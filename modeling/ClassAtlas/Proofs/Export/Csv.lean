import ClassAtlas.Export.Files
import Mathlib

/-!
Comma-separated text after RFC 4180, with a line feed behind every row. A field stands as it is or
in quotes, and between quotes everything stands for itself but a quote, which is written twice. A
reader that goes through a text character by character accepts exactly such texts, and it reads
every table of rows with at least one field back from what is written for it.
-/
namespace ClassAtlas.Export.Csv

/-- Whether a character may stand outside quotes. -/
def Plain (c : Char) : Prop := c ≠ ',' ∧ c ≠ '"' ∧ c ≠ '\r' ∧ c ≠ '\n'

/-- What is written between the quotes of a field, and the characters it stands for. -/
inductive Quoted : List Char → List Char → Prop where
  | nil : Quoted [] []
  | char {text field : List Char} {c : Char} (h : Quoted text field) (hc : c ≠ '"') :
    Quoted (text ++ [c]) (field ++ [c])
  | quote {text field : List Char} (h : Quoted text field) :
    Quoted (text ++ ['"', '"']) (field ++ ['"'])

/-- A field as it may be written. -/
inductive Spells : List Char → String → Prop where
  | bare {text : List Char} (h : ∀ c ∈ text, Plain c) : Spells text (String.ofList text)
  | quoted {text field : List Char} (h : Quoted text field) :
    Spells ('"' :: (text ++ ['"'])) (String.ofList field)

/-- Fields with a comma behind each of them. -/
inductive Fields : List Char → List String → Prop where
  | nil : Fields [] []
  | concat {text piece : List Char} {fields : List String} {field : String} (h : Fields text fields)
    (hfield : Spells piece field) : Fields (text ++ (piece ++ [','])) (fields ++ [field])

/-- Rows with a line feed behind each of them. The last field of a row has no comma behind it, so
there is no row without fields. -/
inductive Rows : List Char → List (List String) → Prop where
  | nil : Rows [] []
  | concat {text line piece : List Char} {rows : List (List String)} {fields : List String}
    {field : String} (h : Rows text rows) (hfields : Fields line fields)
    (hfield : Spells piece field) :
    Rows (text ++ (line ++ (piece ++ ['\n']))) (rows ++ [fields ++ [field]])

/-- Where in a field a reader is. -/
inductive Stage where
  | start
  | bare
  | quoted
  /-- Behind a quote that ends the field, or is the first of two. -/
  | closing
  deriving DecidableEq

/-- What a reader has read: whole rows, whole fields of a row, and a part of a field. -/
structure Reader where
  stage : Stage
  field : List Char
  row : List String
  rows : List (List String)

namespace Reader

def start : Reader := ⟨.start, [], [], []⟩

def take (r : Reader) (stage : Stage) (c : Char) : Reader :=
  { r with stage := stage, field := r.field ++ [c] }

def endField (r : Reader) : Reader := ⟨.start, [], r.row ++ [String.ofList r.field], r.rows⟩

def endRow (r : Reader) : Reader := ⟨.start, [], [], r.rows ++ [r.row ++ [String.ofList r.field]]⟩

/-- A character outside quotes. -/
def outside (r : Reader) (c : Char) : Option Reader :=
  if c = ',' then some r.endField
  else if c = '\n' then some r.endRow
  else if r.stage = .closing ∨ c = '"' ∨ c = '\r' then none
  else some (r.take .bare c)

def step (r : Reader) (c : Char) : Option Reader :=
  match r.stage with
  | .start => if c = '"' then some { r with stage := .quoted } else r.outside c
  | .bare => r.outside c
  | .quoted => some (if c = '"' then { r with stage := .closing } else r.take .quoted c)
  | .closing => if c = '"' then some (r.take .quoted c) else r.outside c

/-- The rows, if the last one is over. -/
def finish? (r : Reader) : Option (List (List String)) :=
  if r.stage = .start ∧ r.row = [] then some r.rows else none

end Reader

/-- The table that a text holds. -/
def read? (text : String) : Option (List (List String)) :=
  (text.toList.foldlM Reader.step .start).bind Reader.finish?

/-! What a reader accepts -/

namespace Reader

/-- What is written of a field, by where in it a reader is. -/
inductive Part : Stage → List Char → List Char → Prop where
  | start : Part .start [] []
  | bare {text : List Char} (h : ∀ c ∈ text, Plain c) : Part .bare text text
  | quoted {text field : List Char} (h : Quoted text field) : Part .quoted ('"' :: text) field
  | closing {text field : List Char} (h : Quoted text field) :
    Part .closing ('"' :: (text ++ ['"'])) field

theorem Part.spells {stage : Stage} {text field : List Char} (h : Part stage text field)
    (hstage : stage ≠ .quoted) : Spells text (String.ofList field) := by
  cases h with
  | start => exact .bare (by simp)
  | bare h => exact .bare h
  | quoted h => exact absurd rfl hstage
  | closing h => exact .quoted h

/-- What a reader has read of a text is what the text says so far. -/
def Covers (r : Reader) (text : List Char) : Prop :=
  ∃ lines line part, Rows lines r.rows ∧ Fields line r.row ∧ Part r.stage part r.field ∧
    text = lines ++ (line ++ part)

theorem covers_start : start.Covers [] := ⟨[], [], [], .nil, .nil, .start, rfl⟩

theorem Covers.outside {r r' : Reader} {text : List Char} {c : Char} (h : r.Covers text)
    (hstage : r.stage ≠ .quoted) (hnext : r.outside c = some r') : r'.Covers (text ++ [c]) := by
  obtain ⟨lines, line, part, hrows, hfields, hpart, rfl⟩ := h
  have hspells := hpart.spells hstage
  unfold Reader.outside at hnext
  split at hnext
  · next hc =>
    cases hnext
    subst hc
    exact ⟨lines, line ++ (part ++ [',']), [], hrows, hfields.concat hspells, .start, by simp⟩
  · next hcomma =>
    split at hnext
    · next hc =>
      cases hnext
      subst hc
      exact ⟨lines ++ (line ++ (part ++ ['\n'])), [], [], hrows.concat hfields hspells, .nil, .start,
        by simp⟩
    · next hfeed =>
      split at hnext
      · cases hnext
      · next hplain =>
        cases hnext
        obtain ⟨hclosing, hquote, hreturn⟩ : r.stage ≠ .closing ∧ c ≠ '"' ∧ c ≠ '\r' := by
          simpa using hplain
        have hbare : part = r.field ∧ ∀ d ∈ r.field, Plain d := by
          generalize r.stage = stage, r.field = field at hpart hstage hclosing
          cases hpart with
          | start => simp
          | bare h => exact ⟨rfl, h⟩
          | quoted h => exact absurd rfl hstage
          | closing h => exact absurd rfl hclosing
        obtain ⟨rfl, hall⟩ := hbare
        refine ⟨lines, line, r.field ++ [c], hrows, hfields, .bare ?_, by simp⟩
        intro d hd
        rcases List.mem_append.1 hd with hd | hd
        · exact hall d hd
        · obtain rfl := List.mem_singleton.1 hd
          exact ⟨hcomma, hquote, hreturn, hfeed⟩

/-- One character more. -/
theorem Covers.step {r r' : Reader} {text : List Char} {c : Char} (h : r.Covers text)
    (hstep : r.step c = some r') : r'.Covers (text ++ [c]) := by
  obtain ⟨stage, field, row, rows⟩ := r
  have hcovers := h
  obtain ⟨lines, line, part, hrows, hfields, hpart, rfl⟩ := h
  -- between quotes no separator ends the field, and a quote may be the first of two
  cases hpart with
  | start =>
    simp only [Reader.step] at hstep
    split at hstep
    · next hc =>
      cases hstep
      subst hc
      exact ⟨lines, line, ['"'], hrows, hfields, .quoted .nil, by simp⟩
    · exact hcovers.outside (by simp) hstep
  | bare hplain => exact hcovers.outside (by simp) hstep
  | @quoted text field hquoted =>
    simp only [Reader.step, Option.some.injEq] at hstep
    subst hstep
    split
    · next hc =>
      subst hc
      exact ⟨lines, line, '"' :: (text ++ ['"']), hrows, hfields, .closing hquoted, by simp⟩
    · next hc =>
      exact ⟨lines, line, '"' :: (text ++ [c]), hrows, hfields, .quoted (hquoted.char hc), by simp⟩
  | @closing text field hquoted =>
    simp only [Reader.step] at hstep
    split at hstep
    · next hc =>
      cases hstep
      subst hc
      exact ⟨lines, line, '"' :: (text ++ ['"', '"']), hrows, hfields, .quoted hquoted.quote,
        by simp⟩
    · exact hcovers.outside (by simp) hstep

theorem Covers.run {r r' : Reader} {text more : List Char} (h : r.Covers text)
    (hrun : more.foldlM Reader.step r = some r') : r'.Covers (text ++ more) := by
  induction more generalizing r text with
  | nil =>
    cases hrun
    rwa [List.append_nil]
  | cons c more ih =>
    obtain ⟨next, hnext, hrun⟩ := Option.bind_eq_some_iff.1 hrun
    rw [List.append_cons]
    exact ih (h.step hnext) hrun

/-! What a reader makes of a text -/

theorem run_bare {text : List Char} (h : ∀ c ∈ text, Plain c) {stage : Stage}
    (hstage : stage = .start ∨ stage = .bare) (field : List Char) (row : List String)
    (rows : List (List String)) : ∃ stage', stage' ≠ .quoted ∧
      text.foldlM Reader.step ⟨stage, field, row, rows⟩ =
        some ⟨stage', field ++ text, row, rows⟩ := by
  induction text generalizing stage field with
  | nil =>
    refine ⟨stage, ?_, by simp⟩
    rcases hstage with rfl | rfl <;> simp
  | cons c text ih =>
    obtain ⟨⟨hcomma, hquote, hreturn, hfeed⟩, htext⟩ := List.forall_mem_cons.1 h
    have hstep : Reader.step ⟨stage, field, row, rows⟩ c = some ⟨.bare, field ++ [c], row, rows⟩ := by
      rcases hstage with rfl | rfl <;>
        simp [Reader.step, Reader.outside, hcomma, hquote, hreturn, hfeed, take]
    rw [List.foldlM_cons, hstep, List.append_cons field c text]
    exact ih htext (.inr rfl) _

theorem run_quoted {text field : List Char} (h : Quoted text field) (row : List String)
    (rows : List (List String)) : text.foldlM Reader.step ⟨.quoted, [], row, rows⟩ =
      some ⟨.quoted, field, row, rows⟩ := by
  induction h with
  | nil => rfl
  | char _ hc ih => simp [List.foldlM_append, ih, Reader.step, take, hc]
  | quote _ ih => simp [List.foldlM_append, ih, Reader.step, take]

/-- A field is known behind its last character, and what may follow it ends it. -/
theorem run_spells {text : List Char} {field : String} (h : Spells text field) (row : List String)
    (rows : List (List String)) : ∃ stage, stage ≠ .quoted ∧
      text.foldlM Reader.step ⟨.start, [], row, rows⟩ = some ⟨stage, field.toList, row, rows⟩ := by
  cases h with
  | bare h => simpa using run_bare h (.inl rfl) [] row rows
  | quoted h =>
    refine ⟨.closing, by simp, ?_⟩
    simp [List.foldlM_append, Reader.step, run_quoted h]

theorem step_comma {stage : Stage} (h : stage ≠ .quoted) (field : String) (row : List String)
    (rows : List (List String)) : Reader.step ⟨stage, field.toList, row, rows⟩ ',' =
      some ⟨.start, [], row ++ [field], rows⟩ := by
  cases stage with
  | quoted => exact absurd rfl h
  | _ => simp [Reader.step, Reader.outside, endField]

theorem step_lineFeed {stage : Stage} (h : stage ≠ .quoted) (field : String) (row : List String)
    (rows : List (List String)) : Reader.step ⟨stage, field.toList, row, rows⟩ '\n' =
      some ⟨.start, [], [], rows ++ [row ++ [field]]⟩ := by
  cases stage with
  | quoted => exact absurd rfl h
  | _ => simp [Reader.step, Reader.outside, endRow]

theorem run_fields {text : List Char} {fields : List String} (h : Fields text fields)
    (rows : List (List String)) : text.foldlM Reader.step ⟨.start, [], [], rows⟩ =
      some ⟨.start, [], fields, rows⟩ := by
  induction h with
  | nil => rfl
  | @concat _ _ fields _ _ hfield ih =>
    obtain ⟨stage, hstage, hrun⟩ := run_spells hfield fields rows
    simp only [List.foldlM_append, ih, hrun, List.foldlM_cons, List.foldlM_nil, step_comma hstage,
      Option.bind_eq_bind, Option.bind_some, Option.pure_def]

theorem run_rows {text : List Char} {rows : List (List String)} (h : Rows text rows) :
    text.foldlM Reader.step start = some ⟨.start, [], [], rows⟩ := by
  induction h with
  | nil => rfl
  | @concat _ _ _ rows fields _ _ hfields hfield ih =>
    obtain ⟨stage, hstage, hrun⟩ := run_spells hfield fields rows
    simp only [List.foldlM_append, ih, run_fields hfields, hrun, List.foldlM_cons, List.foldlM_nil,
      step_lineFeed hstage, Option.bind_eq_bind, Option.bind_some, Option.pure_def]

end Reader

theorem read?_eq_some_iff {text : String} {rows : List (List String)} :
    read? text = some rows ↔ Rows text.toList rows := by
  constructor
  · intro h
    obtain ⟨r, hrun, hfinish⟩ := Option.bind_eq_some_iff.1 h
    obtain ⟨lines, line, part, hrows, hfields, hpart, htext⟩ := Reader.covers_start.run hrun
    obtain ⟨stage, field, row, all⟩ := r
    simp only [Reader.finish?, Option.ite_none_right_eq_some, Option.some.injEq] at hfinish
    obtain ⟨⟨rfl, rfl⟩, rfl⟩ := hfinish
    cases hpart
    -- no field of a further row was begun, so nothing of it was read
    have hline : line = [] := by
      generalize hnone : ([] : List String) = none at hfields
      cases hfields with
      | nil => rfl
      | concat _ _ => simp at hnone
    rw [List.nil_append] at htext
    rw [htext, hline]
    simpa using hrows
  · intro h
    simp [read?, Reader.run_rows h, Reader.finish?]

/-! What is written for a table -/

theorem quoted_doubleQuotes (field : List Char) : Quoted (doubleQuotes field) field := by
  induction field using List.reverseRecOn with
  | nil => exact .nil
  | append_singleton field c ih =>
    have hsplit : doubleQuotes (field ++ [c]) = doubleQuotes field ++ doubleQuotes [c] :=
      List.flatMap_append
    rw [hsplit]
    by_cases hc : c = '"'
    · subst hc
      exact ih.quote
    · have hone : doubleQuotes [c] = [c] := by simp [doubleQuotes, hc]
      rw [hone]
      exact ih.char hc

/-- The quotes that are set for blanks and for the end mark do no harm. -/
theorem spells_writeField (field : String) : Spells (writeField field) field := by
  unfold writeField
  split
  · have h := Spells.quoted (quoted_doubleQuotes field.toList)
    rwa [String.ofList_toList] at h
  · next hquotes =>
    have h : Spells field.toList (String.ofList field.toList) := by
      refine .bare ?_
      intro c hc
      simp only [needsQuotes, Bool.or_eq_true, not_or, List.any_eq_true, not_exists, not_and] at hquotes
      simpa [isSpecial, Plain, not_or, and_assoc] using hquotes.1.2 c hc
    rwa [String.ofList_toList] at h

theorem writeRow_concat (fields : List String) (field : String) :
    writeRow (fields ++ [field]) =
      fields.flatMap (fun f => writeField f ++ [',']) ++ (writeField field ++ ['\n']) := by
  induction fields with
  | nil => simp [writeRow]
  | cons first fields ih =>
    obtain ⟨next, rest, hrest⟩ := List.exists_cons_of_ne_nil (l := fields ++ [field]) (by simp)
    rw [List.cons_append, List.flatMap_cons, List.append_assoc, ← ih, hrest]
    simp [writeRow]

theorem fields_writeField (fields : List String) :
    Fields (fields.flatMap fun f => writeField f ++ [',']) fields := by
  induction fields using List.reverseRecOn with
  | nil => exact .nil
  | append_singleton fields field ih =>
    rw [List.flatMap_append, List.flatMap_singleton]
    exact ih.concat (spells_writeField field)

theorem rows_write {rows : List (List String)} (h : ∀ row ∈ rows, row ≠ []) :
    Rows (write rows).toList rows := by
  rw [write, String.toList_ofList]
  induction rows using List.reverseRecOn with
  | nil => exact .nil
  | append_singleton rows row ih =>
    obtain ⟨hrows, hrow⟩ := List.forall_mem_append.1 h
    obtain ⟨fields, field, rfl⟩ :=
      (List.eq_nil_or_concat row).resolve_left (hrow row (by simp))
    rw [List.flatMap_append, List.flatMap_singleton, List.concat_eq_append, writeRow_concat]
    exact (ih hrows).concat (fields_writeField fields) (spells_writeField field)

/-- A row without fields would be read as a row with one empty field. -/
theorem read?_write {rows : List (List String)} (h : ∀ row ∈ rows, row ≠ []) :
    read? (write rows) = some rows :=
  read?_eq_some_iff.2 (rows_write h)

end ClassAtlas.Export.Csv
