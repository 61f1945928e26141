import ClassAtlas.ClassFile.Decode
import ClassAtlas.Json.Basic

/-!
What a class file holds, as a document.
-/
namespace ClassAtlas.ClassFile

/-- What the constants of a kind are called; the others are none. -/
def ElementValue.constantKind? : ElementValue → Option String
  | .integral _ _ => some "int"
  | .boolean _ => some "bool"
  | .character _ => some "string"
  | .text _ => some "string"
  | .float _ => some "float"
  | .double _ => some "float"
  | _ => none

mutual

def ElementValue.toJson (v : ElementValue) : Json :=
  let parts : List (String × Json) := match v with
    | .enum type name => [("enumType", .text type), ("enumName", .text name)]
    | .classRef name => [("class", .text name)]
    | .nested type visible values =>
      [("annotation", .object [("type", .text type), ("visible", .bool visible),
        ("values", .list (namedValues ⟨type, visible, values⟩ values))])]
    | .array items => [("array", .list (valueItems items))]
    | _ => []
  .object ([("tag", .text (String.singleton v.tag)), ("text", .ofOption .text v.text?)] ++
    (v.constantKind?.toList.map fun kind => ("const", .text kind)) ++ parts)

def valueItems : List ElementValue → List Json
  | [] => []
  | v :: more => v.toJson :: valueItems more

/-- Values under their names, with what the names give when they are asked for. -/
def namedValues (use : AnnotationUse) : List (String × ElementValue) → List Json
  | [] => []
  | (name, v) :: more =>
    .object [("name", .text name), ("value", v.toJson), ("strings", .texts (use.texts name)),
      ("string", .ofOption .text (use.text? name)),
      ("int", .ofOption (fun n => .text (toString n)) (use.int? name))] :: namedValues use more

end

def AnnotationUse.toJson (a : AnnotationUse) : Json :=
  .object [("type", .text a.type), ("visible", .bool a.visible), ("values", .list (namedValues a a.values))]

def annotationsJson (uses : List AnnotationUse) : Json := .list (uses.map AnnotationUse.toJson)

def Header.toJson (h : Header) : Json :=
  .object [("major", .nat h.major), ("minor", .nat h.minor), ("access", .nat h.access),
    ("name", .text h.name), ("superName", .text h.superName), ("interfaces", .texts h.interfaces)]

def Member.toJson (m : Member) : Json :=
  .object [("access", .nat m.access), ("name", .text m.name), ("descriptor", .text m.descriptor),
    ("signature", .text m.signature), ("typeName", .text m.typeName),
    ("annotations", annotationsJson m.annotations)]

def Attributes.toJson (a : Attributes) : Json :=
  .object [("signature", .text a.signature), ("sourceFile", .text a.sourceFile),
    ("record", .bool a.record), ("annotations", annotationsJson a.annotations)]

def Event.toJson : Event → Json
  | .header h => .object [("event", .text "class"), ("header", h.toJson)]
  | .field m => .object [("event", .text "field"), ("member", m.toJson)]
  | .method m => .object [("event", .text "method"), ("member", m.toJson)]
  | .call c => .object [("event", .text "insn"), ("opcode", .nat c.opcode), ("owner", .text c.owner),
      ("name", .text c.name), ("descriptor", .text c.descriptor), ("interface", .bool c.ofInterface),
      ("offset", .nat c.offset)]
  | .finish a => .object [("event", .text "end"), ("attributes", a.toJson)]

end ClassAtlas.ClassFile
