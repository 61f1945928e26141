import ClassAtlas.ClassFile.Decode
import ClassAtlas.Graph.Basic
import ClassAtlas.Scan.Vocabulary

/-!
The endpoints of a class. A method that maps requests serves every path of its class joined with
every path of its own; otherwise it may listen to messages, or else run on a schedule.
-/
namespace ClassAtlas.Scan

open ClassFile (AnnotationUse Member)

/-- The paths of the mapping annotations. One that names no path stands for the root. -/
def mappingPaths (annotations : List AnnotationUse) : List String :=
  (annotations.filter (isMapping ·.type)).flatMap fun a =>
    match a.texts "value" ++ a.texts "path" with
    | [] => ["/"]
    | paths => paths

/-- The first value that a mapping annotation gives to a name. -/
def mappingText (annotations : List AnnotationUse) (name : String) : String :=
  ((annotations.filter (isMapping ·.type)).findSome? (·.text? name)).getD ""

def anyVerb : String := "ANY"

/-- The verb that one annotation settles. -/
def settledVerb? (a : AnnotationUse) : Option String :=
  match mappingVerb? a.type with
  | some verb => some verb
  | none =>
    if a.type == requestMapping then
      (a.text? "method").map (Text.dropStart · "RequestMethod.")
    else none

/-- The verb of a method, and whether it maps requests at all. The first annotation that settles a
verb decides. -/
def httpVerb (annotations : List AnnotationUse) : String × Bool :=
  match annotations.findSome? settledVerb? with
  | some verb => (verb, true)
  | none => (anyVerb, annotations.any (·.type == requestMapping))

/-- Two parts of a route with one slash between them. -/
def joinPath (base path : String) : String :=
  Text.dropTrailing '/' base ++ "/" ++ Text.dropLeading '/' path

/-- Every path of the class with every path of the method. A class without paths is at the root. -/
def combinePaths (classPaths methodPaths : List String) : List String :=
  let classPaths := if classPaths.isEmpty then ["/"] else classPaths
  if methodPaths.isEmpty then classPaths
  else classPaths.flatMap fun base => methodPaths.map (joinPath base)

def listenerPath (a : AnnotationUse) : String :=
  match a.texts "topics" with
  | [] =>
    match a.text? "topicPattern" with
    | some pattern => "topicPattern=" ++ pattern
    | none => "kafka-listener"
  | topics => "topics=" ++ Text.join "," topics

/-- A period as a number that is not negative, or as a text. -/
def period? (a : AnnotationUse) (name : String) : Option String :=
  match a.int? name with
  | some n =>
    if 0 ≤ n then some (name ++ "=" ++ toString n)
    else (a.text? (name ++ "String")).map (name ++ "=" ++ ·)
  | none => (a.text? (name ++ "String")).map (name ++ "=" ++ ·)

def schedulePath (a : AnnotationUse) : String :=
  match a.text? "cron" with
  | some cron => "cron=" ++ cron
  | none => ((period? a "fixedDelay").or (period? a "fixedRate")).getD "schedule"

def orElse (first second : String) : String := if first.isEmpty then second else first

def use? (annotations : List AnnotationUse) (type : String) : Option AnnotationUse :=
  annotations.find? (·.type == type)

/-- The endpoints of one method of a class. -/
def methodEndpoints (className : String) (classAnnotations : List AnnotationUse) (m : Member) :
    List Graph.Endpoint :=
  let methodPaths := mappingPaths m.annotations
  let (verb, routable) := httpVerb m.annotations
  if routable || !methodPaths.isEmpty then
    (combinePaths (mappingPaths classAnnotations) methodPaths).map fun path =>
      { kind := .http, httpMethod := verb, path, controllerClass := className,
        controllerMethod := m.name
        produces := orElse (mappingText m.annotations "produces")
          (mappingText classAnnotations "produces")
        consumes := orElse (mappingText m.annotations "consumes")
          (mappingText classAnnotations "consumes")
        framework := "SPRING_MVC" }
  else match use? m.annotations kafkaListener with
    | some a =>
      [⟨.messageListener, "", listenerPath a, className, m.name, "", "", "SPRING_KAFKA"⟩]
    | none =>
      match use? m.annotations scheduled with
      | some a => [⟨.scheduled, "", schedulePath a, className, m.name, "", "", "SPRING_SCHEDULER"⟩]
      | none => []

/-- Methods that a compiler made serve nothing. -/
def isGenerated (m : Member) : Bool :=
  ClassFile.Access.has m.access ClassFile.Access.bridge ||
    ClassFile.Access.has m.access ClassFile.Access.synthetic

/-- The endpoints of a class, method by method. -/
def endpoints (c : ClassFile.Class) : List Graph.Endpoint :=
  (c.methods.filter (!isGenerated ·)).flatMap
    (methodEndpoints c.header.name c.attributes.annotations)

/-- Whether some method makes a bean. -/
def isBeanFactory (c : ClassFile.Class) : Bool :=
  c.methods.any fun m => (use? m.annotations beanFactory).isSome

end ClassAtlas.Scan
