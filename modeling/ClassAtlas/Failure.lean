import ClassAtlas.Json.Basic

/-!
Failures as they are reported to a user. A failure of the program itself has a code that says what
kind it is, and some codes come with advice; any failure may be wrapped in a note about what was
being done.
-/
namespace ClassAtlas

/-- The kind of a failure, by its word. -/
structure Code where
  word : String
  deriving DecidableEq, Repr, Inhabited

namespace Code

def classesNotFound : Code := ⟨"CLASSES_NOT_FOUND"⟩

def buildFailed : Code := ⟨"BUILD_FAILED"⟩

def outputUnavailable : Code := ⟨"OUTPUT_UNAVAILABLE"⟩

def invalidConfig : Code := ⟨"INVALID_CONFIG"⟩

def runNotFound : Code := ⟨"RUN_NOT_FOUND"⟩

def exportFileNotFound : Code := ⟨"EXPORT_FILE_NOT_FOUND"⟩

def pathTraversal : Code := ⟨"PATH_TRAVERSAL"⟩

def storeFailed : Code := ⟨"STORE_FAILED"⟩

def internal : Code := ⟨"INTERNAL_ERROR"⟩

end Code

/-- Something a user can do about a failure. -/
structure Advice where
  /-- A command to run, rather than a setting to change. -/
  runsCommand : Bool
  command : String
  safe : Bool
  description : String
  deriving DecidableEq, Repr

/-- The advice that comes with a code. -/
def Code.advice (code : Code) : List Advice :=
  match code.word with
  | "CLASSES_NOT_FOUND" => [
      ⟨true, "mvn -q -DskipTests compile", true, "Compile the project so target/classes exists"⟩,
      ⟨false, "codevision analyze --auto-compile", false,
        "Let the analyzer run the build step itself"⟩]
  | "BUILD_TIMEOUT" =>
    [⟨false, "codevision analyze --build-timeout 1200", false, "Raise compile.maxRuntimeSeconds"⟩]
  | "BUILD_FAILED" =>
    [⟨true, "mvn -DskipTests compile", true, "Run the build manually to see the failure"⟩]
  | "RUN_NOT_FOUND" => [⟨true, "codevision runs list", true, "List stored runs"⟩]
  | _ => []

inductive Failure where
  /-- A failure of the program, with what caused it. -/
  | coded (code : Code) (message : String) (cause : Option Failure) (details : Option Json)
  /-- A setting that cannot be used. -/
  | setting (field message : String)
  /-- What was being done when something failed. -/
  | wrapped (note : String) (cause : Failure)
  | plain (message : String)
  deriving Repr, Inhabited, BEq

namespace Failure

def ofCode (code : Code) (message : String) : Failure := .coded code message none none

def because (code : Code) (message : String) (cause : Failure) : Failure :=
  .coded code message (some cause) none

/-- The failure of a run that was asked to stop. -/
def cancelled : Failure := .plain "context canceled"

def text : Failure → String
  | .coded code message none _ => "[" ++ code.word ++ "] " ++ message
  | .coded code message (some cause) _ => "[" ++ code.word ++ "] " ++ message ++ ": " ++ cause.text
  | .setting field message => "config error in field '" ++ field ++ "': " ++ message
  | .wrapped note cause => note ++ ": " ++ cause.text
  | .plain message => message

/-- What is directly below a failure. -/
def cause? : Failure → Option Failure
  | .coded _ _ cause _ => cause
  | .wrapped _ cause => some cause
  | _ => none

/-- The outermost code. -/
def code? : Failure → Option Code
  | .coded code _ _ _ => some code
  | .wrapped _ cause => cause.code?
  | _ => none

/-- The details of the outermost failure that has a code. -/
def details? : Failure → Option Json
  | .coded _ _ _ details => details
  | .wrapped _ cause => cause.details?
  | _ => none

/-- Give details to the outermost failure that has a code; none if there is no such failure. -/
def withDetails? (details : Json) : Failure → Option Failure
  | .coded code message cause _ => some (.coded code message cause (some details))
  | .wrapped note cause => (cause.withDetails? details).map (.wrapped note)
  | _ => none

/-- The outermost code as a word, empty when there is none. -/
def codeWord (f : Failure) : String := (f.code?.map Code.word).getD ""

/-- What is shown to a user: the text, and the advice that comes with the code. -/
def report (f : Failure) : String :=
  "Error: " ++ f.text ++ "\n" ++
    String.join (((f.code?.map Code.advice).getD []).map fun a =>
      "  hint: " ++ a.description ++ ": " ++ a.command ++ "\n")

end Failure

def Advice.toJson (a : Advice) : Json :=
  .object ([("type", .text (if a.runsCommand then "run-command" else "edit-config"))] ++
    (if a.command.isEmpty then [] else [("command", .text a.command)]) ++
    (if a.safe then [("safe", .bool true)] else []) ++
    (if a.description.isEmpty then [] else [("description", .text a.description)]))

/-- The document of a failure that has a code itself. -/
def Failure.toJson? : Failure → Option Json
  | .coded code message _ details =>
    some (.object ([("code", .text code.word), ("message", .text message)] ++
      (match details with
        | some details => [("details", details)]
        | none => []) ++
      (match code.advice with
        | [] => []
        | advice => [("suggestedFixes", .list (advice.map Advice.toJson))])))
  | _ => none

end ClassAtlas
