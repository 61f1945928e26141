import ClassAtlas.Collections
import ClassAtlas.Text.Basic
import ClassAtlas.Text.Lower

/-!
The annotations that a scan understands, by their full names, and the classes that take part in one.
Sources and compiled classes are read with the same vocabulary, so that both give a class the same
tags. The classes below an accepted package take part unless they are test doubles; calls leave out
the platform's own classes as well.
-/
namespace ClassAtlas.Scan

def entityAnnotations : List String := [
  "jakarta.persistence.Entity",
  "javax.persistence.Entity",
  "org.springframework.data.mongodb.core.mapping.Document"]

def tableAnnotations : List String := [
  "jakarta.persistence.Table",
  "javax.persistence.Table"]

def relationshipAnnotations : List String := [
  "jakarta.persistence.OneToOne",
  "jakarta.persistence.OneToMany",
  "jakarta.persistence.ManyToOne",
  "jakarta.persistence.ManyToMany",
  "jakarta.persistence.JoinColumn",
  "jakarta.persistence.JoinTable",
  "javax.persistence.OneToOne",
  "javax.persistence.OneToMany",
  "javax.persistence.ManyToOne",
  "javax.persistence.ManyToMany",
  "javax.persistence.JoinColumn",
  "javax.persistence.JoinTable"]

def injectionAnnotations : List String := [
  "org.springframework.beans.factory.annotation.Autowired",
  "jakarta.inject.Inject",
  "javax.inject.Inject",
  "jakarta.annotation.Resource",
  "javax.annotation.Resource"]

def generatorAnnotations : List String := [
  "jakarta.persistence.SequenceGenerator",
  "javax.persistence.SequenceGenerator",
  "jakarta.persistence.TableGenerator",
  "javax.persistence.TableGenerator",
  "org.hibernate.annotations.GenericGenerator"]

def generatedValueAnnotations : List String := [
  "jakarta.persistence.GeneratedValue",
  "javax.persistence.GeneratedValue"]

def requestMapping : String := "org.springframework.web.bind.annotation.RequestMapping"

def kafkaListener : String := "org.springframework.kafka.annotation.KafkaListener"

def scheduled : String := "org.springframework.scheduling.annotation.Scheduled"

def beanFactory : String := "org.springframework.context.annotation.Bean"

/-- The verb of an annotation that maps one verb. -/
def mappingVerb? : String → Option String
  | "org.springframework.web.bind.annotation.GetMapping" => some "GET"
  | "org.springframework.web.bind.annotation.PostMapping" => some "POST"
  | "org.springframework.web.bind.annotation.PutMapping" => some "PUT"
  | "org.springframework.web.bind.annotation.DeleteMapping" => some "DELETE"
  | "org.springframework.web.bind.annotation.PatchMapping" => some "PATCH"
  | _ => none

def isMapping (name : String) : Bool :=
  name == requestMapping || (mappingVerb? name).isSome

/-- The tag of classes that receive injections but are never injected. -/
def controllerTag : String := "CONTROLLER"

/-- The tag of classes with a method that makes a bean. -/
def beanFactoryTag : String := "BEAN_FACTORY"

def stereotype? : String → Option String
  | "org.springframework.web.bind.annotation.RestController" => some controllerTag
  | "org.springframework.stereotype.Controller" => some controllerTag
  | "org.springframework.stereotype.Service" => some "SERVICE"
  | "org.springframework.stereotype.Repository" => some "REPOSITORY"
  | "org.springframework.stereotype.Component" => some "COMPONENT"
  | "org.springframework.context.annotation.Configuration" => some "CONFIGURATION"
  | _ => none

/-- The tags of some annotations, in their order and each once. -/
def stereotypes (annotations : List String) : List String :=
  (Listing.appendUnique (some []) (annotations.filterMap stereotype?)).items

/-- Whether some tag other than that of a controller is there. -/
def isInjectionTarget (stereotypes : List String) : Bool := stereotypes.any (· != controllerTag)

def isEntity (name : String) : Bool := entityAnnotations.contains name

def isTable (name : String) : Bool := tableAnnotations.contains name

def isRelationship (name : String) : Bool := relationshipAnnotations.contains name

def isInjection (name : String) : Bool := injectionAnnotations.contains name

def isGenerator (name : String) : Bool := generatorAnnotations.contains name

def isGeneratedValue (name : String) : Bool := generatedValueAnnotations.contains name

/-- Whether some rule of a scan looks for an annotation. -/
def isKnown (name : String) : Bool :=
  isEntity name || isTable name || isRelationship name ||
    isInjection name || isGenerator name || isGeneratedValue name ||
    (stereotype? name).isSome || isMapping name ||
    name == kafkaListener || name == scheduled || name == beanFactory

/-! Which classes take part -/

/-- The packages to accept. None at all accepts every class. -/
structure Filter where
  packages : List String
  deriving DecidableEq, Repr

/-- Blank packages do not count. -/
def Filter.ofPackages (packages : List String) : Filter :=
  ⟨(packages.map Text.trim).filter (!·.isEmpty)⟩

/-- The part after the last mark, or the whole when nothing follows the mark. -/
def innerPart (mark : Char) (name : String) : String :=
  let part := Text.afterLast mark name
  if part.isEmpty then name else part

/-- Whether the innermost simple name contains "mock" in any case. -/
def isMock (name : String) : Bool :=
  !Text.isBlank name &&
    Text.contains (Text.lower (innerPart '$' (innerPart '.' name))) "mock"

/-- Whether a name ends in the number that a compiler gives to a nameless inner class. -/
def isAnonymous (name : String) : Bool :=
  Text.containsChar name '$' &&
    (let number := Text.afterLast '$' name
     !number.isEmpty && number.toList.all Char.isDigit)

def Filter.accepts (f : Filter) (name : String) : Bool :=
  !name.isEmpty && !isMock name &&
    (f.packages.isEmpty || f.packages.any (Text.startsWith name ·))

def platformNamespaces : List String := ["java.", "javax.", "jakarta.", "jdk.", "sun."]

/-- Whether a class may be an end of a call. Arrays and platform classes may not. -/
def Filter.acceptsCall (f : Filter) (name : String) : Bool :=
  !Text.startsWith name "[" && !platformNamespaces.any (Text.startsWith name ·) && f.accepts name

end ClassAtlas.Scan
