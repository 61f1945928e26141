import ClassAtlas.Json.Writer
import ClassAtlas.Log.Record
import ClassAtlas.Text.Quoted

/-!
Reports as text, one line each: for people as a message followed by `name=value` pairs, or for
programs as a document. A logger carries values and groups that were opened before.
-/
namespace ClassAtlas.Log

inductive Format where
  | line
  | document
  deriving DecidableEq, Repr

/-- Documents are asked for by name, in any case; a long s is an s. -/
def Format.ofName (s : String) : Format :=
  if Text.lower (Text.replaceChar s 'ſ' 's') == "json" then .document else .line

/-- A group of names that was opened, with the values that were added in it. -/
structure Scope where
  name : String
  values : List (String × Value)

/-- How reports are written. The first scope is the one outside every group. -/
structure Logger where
  format : Format
  level : Level
  outer : List (String × Value)
  groups : List Scope

namespace Logger

def make (format : Format) (level : Level) : Logger := ⟨format, level, [], []⟩

def isEnabled (l : Logger) (level : Level) : Bool := l.level.value ≤ level.value

/-- Add values to the innermost scope. -/
def addTo : List Scope → List (String × Value) → List Scope
  | [], _ => []
  | [s], values => [{ s with values := s.values ++ values }]
  | s :: more, values => s :: addTo more values

def withValues (l : Logger) (values : List (String × Value)) : Logger :=
  match l.groups with
  | [] => { l with outer := l.outer ++ values }
  | groups => { l with groups := addTo groups values }

/-- Open a group; one without a name is no group. -/
def withGroup (l : Logger) (name : String) : Logger :=
  if name.isEmpty then l else { l with groups := l.groups ++ [⟨name, []⟩] }

end Logger

mutual

/-- A value inside a list, as plain text. -/
def plainText : Value → String
  | .none => "<nil>"
  | .text s => s
  | .int n => toString n
  | .bool b => if b then "true" else "false"
  | .number x => Decimal.Layout.general.write x
  | .duration d => d.text
  | .moment m => m.text
  | .failure message => message
  | .list items => "[" ++ Text.join " " (plainTexts items) ++ "]"
  | .group members => "[" ++ Text.join " " (plainMembers members) ++ "]"

def plainTexts : List Value → List String
  | [] => []
  | v :: more => plainText v :: plainTexts more

def plainMembers : List (String × Value) → List String
  | [] => []
  | (name, v) :: more => (name ++ "=" ++ plainText v) :: plainMembers more

end

/-- A text is quoted when it would not stand out as one word. -/
def wordText (s : String) : String :=
  if s.toList.any fun c => c == ' ' || c == '\t' || c == '\n' || c == '"' then Text.quoted s else s

mutual

def lineText : Value → String
  | .text s => wordText s
  | .group members => "\x7b" ++ Text.join " " (lineMembers members) ++ "\x7d"
  | v => plainText v

def lineMembers : List (String × Value) → List String
  | [] => []
  | (name, v) :: more => (name ++ "=" ++ lineText v) :: lineMembers more

end

/-- The values of the open groups under their full names, and the names in force at the end. -/
def qualified (path : String) : List Scope → List (String × Value) → List (String × Value)
  | [], own => own.map fun (name, v) => (path ++ name, v)
  | s :: more, own =>
    let path := path ++ s.name ++ "."
    s.values.map (fun (name, v) => (path ++ name, v)) ++ qualified path more own

/-- A group among the members of another. -/
def namedGroup (name : String) (members : List (String × Json)) : List (String × Json) :=
  if name.isEmpty || members.isEmpty then members else [(name, .object members)]

mutual

def toJson : Value → Json
  | .none => .null
  | .text s => .text s
  | .int n => .int n
  | .bool b => .bool b
  | .number x => .ofOption .number (Json.Number.ofBinary64? x)
  | .duration d => .int d.nanos
  | .moment m => .text m.preciseText
  | .failure message => .text message
  | .list items => .list (listJson items)
  | .group members => .object (membersJson members)

def listJson : List Value → List Json
  | [] => []
  | v :: more => toJson v :: listJson more

/-- Members of a group. A group of which nothing is written is left out, one without a name is opened
up, and a value that is nothing under no name is no member. -/
def membersJson : List (String × Value) → List (String × Json)
  | [] => []
  | (name, .group members) :: more => namedGroup name (membersJson members) ++ membersJson more
  | ("", .none) :: more => membersJson more
  | (name, v) :: more => (name, toJson v) :: membersJson more

end

/-- The open groups nested in each other, the record's own values innermost. Groups at the end in
which nothing stands are left out. -/
def nestedJson : List Scope → List (String × Value) → List (String × Json)
  | [], own => membersJson own
  | s :: more, own => namedGroup s.name (membersJson s.values ++ nestedJson more own)

/-- The line of a record; none if its level is not enabled. -/
def Logger.write? (l : Logger) (time : Time.Moment) (r : Record) : Option String :=
  if !l.isEnabled r.level then none
  else
    let own := r.values.filter (!·.2.isEmptyGroup)
    some <| match l.format with
      | .line =>
        let values := (l.outer ++ qualified "" l.groups own).filter (!·.1.isEmpty)
        let tail := Text.join " " (values.map fun (name, v) => name ++ "=" ++ lineText v)
        time.toUtc.text ++ " [" ++ r.level.name ++ "] " ++ r.message ++
          (if values.isEmpty then "" else " | " ++ tail) ++ "\n"
      | .document =>
        (Json.object ([("time", .text time.preciseText), ("level", .text r.level.capitals),
          ("msg", .text r.message)] ++ membersJson l.outer ++ nestedJson l.groups own)).write
          .compact ++ "\n"

end ClassAtlas.Log
