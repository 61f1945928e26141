import ClassAtlas.Source.Token

/-!
The declarations of a source file, as far as a graph needs them: the package, the imports, and the
types at the top level with their annotations, supertypes and fields. Bodies of methods and nested
types are stepped over.
-/
namespace ClassAtlas.Source

/-- A use of an annotation type, with the tokens between its parentheses. -/
structure Mark where
  name : String
  arguments : List Token
  deriving Repr, Inhabited

structure FieldDeclaration where
  marks : List Mark
  type : String
  names : List String
  deriving Repr, Inhabited

inductive TypeKind where
  | ordinary
  | interface
  | enum
  | record
  deriving DecidableEq, Repr, Inhabited

structure TypeDeclaration where
  kind : TypeKind
  name : String
  marks : List Mark
  /-- What stands first behind the word that announces a superclass. -/
  superclass : Option String
  /-- The types that are implemented or, for an interface, extended. -/
  supertypes : List String
  fields : List FieldDeclaration
  deriving Repr, Inhabited

inductive Item where
  | packageName (name : String)
  | importText (text : String)
  | type (declaration : TypeDeclaration)
  deriving Repr, Inhabited

/-- The tokens up to the bracket that closes what is open, and those behind it. -/
def bracketed : Nat → List Token → List Token × List Token
  | _, [] => ([], [])
  | depth, t :: rest =>
    if t.closes && depth == 0 then ([], rest)
    else
      let depth := if t.opens then depth + 1 else if t.closes then depth - 1 else depth
      let (inside, after) := bracketed depth rest
      (t :: inside, after)

def dropComments (ts : List Token) : List Token := ts.dropWhile Token.isComment

/-- Tokens without the comments at their end. -/
def trimComments (ts : List Token) : List Token := (dropComments ts.reverse).reverse

/-- A dotted name. Comments inside belong to it. -/
def takeName : Bool → List Token → List Token × List Token
  | _, [] => ([], [])
  | afterWord, t :: rest =>
    let goesOn :=
      if t.isComment then afterWord else if afterWord then t.isMark '.' else t.kind == .word
    if !goesOn then ([], t :: rest)
    else
      let (name, after) := takeName (if t.isComment then afterWord else !afterWord) rest
      if t.isComment && name.isEmpty then ([], t :: rest) else (t :: name, after)

/-- The use of an annotation type, behind its mark. -/
def takeMark (ts : List Token) : Mark × List Token :=
  let (name, rest) := takeName false (dropComments ts)
  match dropComments rest with
  | t :: more =>
    if t.isMark '(' then
      let (arguments, after) := bracketed 0 more
      (⟨writtenText name, arguments⟩, after)
    else (⟨writtenText name, []⟩, rest)
  | [] => (⟨writtenText name, []⟩, rest)

def modifierWords : List String := [
  "public", "protected", "private", "abstract", "static", "final", "strictfp", "default",
  "synchronized", "native", "transient", "volatile", "sealed"]

def isModifier (t : Token) : Bool := modifierWords.any t.isWord

/-- Whether an annotation is used here, rather than its type declared. -/
def startsMark (t : Token) (rest : List Token) : Bool :=
  t.isMark '@' && !(dropComments rest).head?.any (·.isWord "interface")

/-- The modifiers in front of a declaration. -/
def modifiersWithin : Nat → List Token → List Mark × List Token
  | 0, ts => ([], ts)
  | _ + 1, [] => ([], [])
  | fuel + 1, t :: rest =>
    if t.isComment || isModifier t then modifiersWithin fuel rest
    else if t.isWord "non" && rest.head?.any (·.isMark '-') then modifiersWithin fuel (rest.drop 1)
    else if startsMark t rest then
      let (mark, rest) := takeMark rest
      let (marks, rest) := modifiersWithin fuel rest
      (mark :: marks, rest)
    else ([], t :: rest)

def takeModifiers (ts : List Token) : List Mark × List Token := modifiersWithin ts.length ts

/-- How deep inside angle brackets a token leads. -/
def angleDepth (depth : Nat) (t : Token) : Nat :=
  if t.isMark '<' then depth + 1 else if t.isMark '>' then depth - 1 else depth

/-- The tokens of types and names, up to the first mark outside angle brackets that ends them. -/
def headWithin (ends : Token → Bool) : Nat → Nat → List Token → List Token × List Token
  | 0, _, ts => ([], ts)
  | _ + 1, _, [] => ([], [])
  | fuel + 1, depth, t :: rest =>
    if depth == 0 && ends t then ([], t :: rest)
    else if startsMark t rest then
      let (_, after) := takeMark rest
      let (head, last) := headWithin ends fuel depth after
      (t :: rest.take (rest.length - after.length) ++ head, last)
    else
      let (head, last) := headWithin ends fuel (angleDepth depth t) rest
      (t :: head, last)

def takeHead (ends : Token → Bool) (ts : List Token) : List Token × List Token :=
  headWithin ends ts.length 0 ts

/-- The tokens behind the angle bracket that closes type arguments; none if it is no type that stands
here. -/
def afterArguments? : Nat → List Token → Option (List Token)
  | _, [] => none
  | depth, t :: rest =>
    if t.isMark '>' then
      match depth with
      | 0 => some rest
      | depth + 1 => afterArguments? depth rest
    else if t.isMark '<' then afterArguments? (depth + 1) rest
    else if t.kind == .word || t.isComment || ['.', ',', '?', '&', '[', ']', '@'].any t.isMark then
      afterArguments? depth rest
    else none

/-- The tokens from the comma or semicolon on that ends an initial value. -/
def valueEndWithin : Nat → List Token → List Token
  | 0, ts => ts
  | _ + 1, [] => []
  | fuel + 1, t :: rest =>
    if t.isMark ',' || t.isMark ';' then t :: rest
    else if t.opens then valueEndWithin fuel (bracketed 0 rest).2
    else if t.isMark '<' then valueEndWithin fuel ((afterArguments? 0 rest).getD rest)
    else valueEndWithin fuel rest

def valueEnd (ts : List Token) : List Token := valueEndWithin ts.length ts

/-- The tokens behind a member that has a body or ends with a semicolon. -/
def memberEndWithin : Nat → List Token → List Token
  | 0, ts => ts
  | _ + 1, [] => []
  | fuel + 1, t :: rest =>
    if t.isMark ';' then rest
    else if t.isMark '\x7b' then (bracketed 0 rest).2
    else if t.opens then memberEndWithin fuel (bracketed 0 rest).2
    else memberEndWithin fuel rest

def memberEnd (ts : List Token) : List Token := memberEndWithin ts.length ts

/-- Further names of a field declaration, and the tokens behind it. -/
def moreNamesWithin : Nat → List Token → List String × List Token
  | 0, ts => ([], ts)
  | _ + 1, [] => ([], [])
  | fuel + 1, t :: rest =>
    if t.isMark ',' then
      match dropComments rest with
      | name :: rest =>
        let (names, after) := moreNamesWithin fuel (valueEnd rest)
        (name.text :: names, after)
      | [] => ([], [])
    else ([], rest)

/-- A head without the brackets behind its name. -/
def dropBrackets (head : List Token) : List Token :=
  (head.reverse.dropWhile fun t => t.isComment || t.isMark '[' || t.isMark ']').reverse

def endsHead (t : Token) : Bool := ['(', '=', ',', ';', '\x7b', '\x7d'].any t.isMark

/-- Whether a type is declared here. -/
def startsType (ts : List Token) : Bool :=
  ts.head?.any fun t => ["class", "interface", "enum"].any t.isWord || t.isMark '@'

/-- The fields among the members of a body, which ends with the tokens. -/
def fieldsWithin : Nat → List Token → List FieldDeclaration
  | 0, _ => []
  | _ + 1, [] => []
  | fuel + 1, ts =>
    let (marks, rest) := takeModifiers ts
    if startsType rest then fieldsWithin fuel (memberEnd rest)
    else
      let (head, after) := takeHead endsHead rest
      match after with
      | [] => []
      | t :: more =>
        if t.isMark ';' && head.isEmpty then fieldsWithin fuel more
        else if t.isMark '(' || t.isMark '\x7b' || t.isMark '\x7d' then
          fieldsWithin fuel (memberEnd after)
        else
          let named := dropBrackets head
          let type := writtenText (trimComments named.dropLast)
          let name := (named.getLast?.map Token.text).toList
          let (names, after) := moreNamesWithin after.length (valueEnd after)
          ⟨marks, type, name ++ names⟩ :: fieldsWithin fuel after

def fieldsOf (body : List Token) : List FieldDeclaration := fieldsWithin body.length body

/-- The members of an enumeration stand behind the semicolon that ends its constants. -/
def afterConstantsWithin : Nat → List Token → List Token
  | 0, _ => []
  | _ + 1, [] => []
  | fuel + 1, t :: rest =>
    if t.isMark ';' then rest
    else if t.opens then afterConstantsWithin fuel (bracketed 0 rest).2
    else afterConstantsWithin fuel rest

def bodyFields (kind : TypeKind) (body : List Token) : List FieldDeclaration :=
  match kind with
  | .interface => []
  | .enum => fieldsOf (afterConstantsWithin body.length body)
  | .ordinary => fieldsOf body
  | .record => fieldsOf body

def clauseWords : List String := ["extends", "implements", "permits"]

def isClauseWord (t : Token) : Bool := clauseWords.any t.isWord

/-- The clauses in front of a body, each with the word that announces it. -/
def clausesWithin : Nat → List Token → List (String × List Token)
  | 0, _ => []
  | _ + 1, [] => []
  | fuel + 1, t :: rest =>
    let (clause, after) := takeHead isClauseWord rest
    (t.text, clause) :: clausesWithin fuel after

/-- How deep inside brackets of other kinds a token leads. -/
def bracketDepth (depth : Nat) (t : Token) : Nat :=
  if t.opens then depth + 1 else if t.closes then depth - 1 else depth

/-- The pieces between the commas at depth zero. -/
def listed (deepen : Nat → Token → Nat) : Nat → List Token → List (List Token)
  | _, [] => [[]]
  | depth, t :: rest =>
    if depth == 0 && t.isMark ',' then [] :: listed deepen depth rest
    else match listed deepen (deepen depth t) rest with
      | piece :: more => (t :: piece) :: more
      | [] => [[t]]

/-- The parts of a piece of a list: comments around a type stand for themselves. -/
def listParts (piece : List Token) : List String :=
  let type := trimComments (dropComments piece)
  (piece.takeWhile Token.isComment).map Token.text ++
    (if type.isEmpty then [] else [writtenText type]) ++
    (if type.isEmpty then [] else (piece.reverse.takeWhile Token.isComment).reverse.map Token.text)

def typeList (clause : List Token) : List String :=
  (listed (fun depth t => bracketDepth (angleDepth depth t) t) 0
    (trimComments (dropComments clause))).flatMap listParts

def superclassOf (clause : List Token) : Option String :=
  match clause with
  | [] => none
  | t :: _ => if t.isComment then some t.text else some (writtenText (trimComments clause))

/-- Whether a clause lists the types that a type stands below, beside its superclass. -/
def listsSupertypes (kind : TypeKind) (word : String) : Bool :=
  word == "implements" || (kind == .interface && word == "extends")

/-- A type declaration behind the word that says what it is, and the tokens behind it. -/
def takeType (kind : TypeKind) (marks : List Mark) (ts : List Token) :
    TypeDeclaration × List Token :=
  match dropComments ts with
  | [] => (⟨kind, "", marks, none, [], []⟩, [])
  | name :: rest =>
    let (_, rest) := takeHead (fun t => isClauseWord t || t.isMark '\x7b' || t.isMark '(') rest
    let rest := match rest with
      | t :: more =>
        if t.isMark '(' then
          (takeHead (fun t => isClauseWord t || t.isMark '\x7b') (bracketed 0 more).2).2
        else rest
      | [] => rest
    let (header, rest) := takeHead (·.isMark '\x7b') rest
    let (body, after) := bracketed 0 (rest.drop 1)
    let clauses := clausesWithin header.length header
    (⟨kind, name.text, marks,
      if kind == .interface then none else (clauses.lookup "extends").bind superclassOf,
      (clauses.filter fun c => listsSupertypes kind c.1).flatMap fun c => typeList c.2,
      bodyFields kind body⟩, after)

/-- The kind of type that a word announces. -/
def typeKind? (t : Token) (rest : List Token) : Option TypeKind :=
  if t.isWord "class" then some .ordinary
  else if t.isWord "interface" then some .interface
  else if t.isWord "enum" then some .enum
  else if t.isWord "record" && (dropComments rest).head?.any (·.kind == .word) then some .record
  else none

def upToSemicolon (ts : List Token) : List Token := ts.takeWhile (!·.isMark ';')

def itemsWithin : Nat → List Token → List Item
  | 0, _ => []
  | _ + 1, [] => []
  | fuel + 1, ts =>
    let (marks, rest) := takeModifiers ts
    match rest with
    | [] => []
    | t :: rest =>
      if t.isWord "package" then
        let name := upToSemicolon rest
        .packageName (writtenText (trimComments (dropComments name))) ::
          itemsWithin fuel (rest.drop (name.length + 1))
      else if t.isWord "import" then
        let name := upToSemicolon rest
        .importText (writtenText (t :: rest.take (name.length + 1))) ::
          itemsWithin fuel (rest.drop (name.length + 1))
      else if t.isMark ';' then itemsWithin fuel rest
      else match typeKind? t rest with
        | some kind =>
          let (declaration, after) := takeType kind marks rest
          .type declaration :: itemsWithin fuel after
        | none => itemsWithin fuel (memberEnd (t :: rest))

/-- The items of a source file. -/
def items (text : String) : List Item :=
  let ts := tokens text
  itemsWithin ts.length ts

end ClassAtlas.Source
