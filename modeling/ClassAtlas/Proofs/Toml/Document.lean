import ClassAtlas.Toml.Reader
import Mathlib.Data.List.Nodup

/-!
The table that the statements of a document make up. Values and a list of tables are found in it as
they were said, and a whole number in it is one of 64 bits.
-/
namespace ClassAtlas.Toml

namespace Items

variable {key : String} {items : Items} {change : Option Item → Option Item}

theorem update_of_not_mem (h : key ∉ items.map (·.1)) :
    items.update key change = (change none).map fun item => items ++ [(key, item)] := by
  induction items with
  | nil => rfl
  | cons first more ih =>
    obtain ⟨name, item⟩ := first
    rw [List.map_cons, List.mem_cons, not_or] at h
    have hname : (name == key) = false := by simpa using Ne.symm h.1
    simp [update, hname, ih h.2, Function.comp_def]

theorem update_concat (h : key ∉ items.map (·.1)) (item : Item) :
    update key change (items ++ [(key, item)]) =
      (change (some item)).map fun item => items ++ [(key, item)] := by
  induction items with
  | nil => simp [update]
  | cons first more ih =>
    obtain ⟨name, other⟩ := first
    rw [List.map_cons, List.mem_cons, not_or] at h
    have hname : (name == key) = false := by simpa using Ne.symm h.1
    simp [update, hname, ih h.2, Function.comp_def]

theorem assign_of_not_mem (h : key ∉ items.map (·.1)) (value : Value) :
    items.assign value [key] = some (items ++ [(key, .value value)]) := by
  rw [assign, update_of_not_mem h]
  rfl

theorem toTable_append (a b : Items) : toTable (a ++ b) = toTable a ++ toTable b := by
  induction a with
  | nil => rfl
  | cons first more ih =>
    obtain ⟨name, item⟩ := first
    rw [List.cons_append, toTable, toTable, ih, List.cons_append]

end Items

/-- The statements that put values into the open table. -/
def assigns (entries : Table) : List Statement := entries.map fun e => .assign [e.1] e.2

/-- Values as the items of a table. -/
def valuesOf (entries : Table) : Items := entries.map fun e => (e.1, .value e.2)

theorem toTable_valuesOf (entries : Table) : Items.toTable (valuesOf entries) = entries := by
  induction entries with
  | nil => rfl
  | cons e entries ih =>
    rw [valuesOf, List.map_cons, Items.toTable, Item.toValue]
    exact congrArg (e :: ·) ih

theorem keys_valuesOf (entries : Table) : (valuesOf entries).map (·.1) = entries.map (·.1) := by
  simp [valuesOf]

/-- Values with new keys go to the end of the open table, wherever it stands. -/
theorem carryOut_assigns (current : List String) (place : Items → Items)
    (hplace : ∀ change table table', change table = some table' →
      Items.within current change (place table) = some (place table'))
    {entries : Table} {table : Items} (h : (table.map (·.1) ++ entries.map (·.1)).Nodup)
    (more : List Statement) :
    carryOut (assigns entries ++ more) current (place table) =
      carryOut more current (place (table ++ valuesOf entries)) := by
  induction entries generalizing table with
  | nil =>
    rw [valuesOf, List.map_nil, List.append_nil]
    rfl
  | cons e entries ih =>
    have hnew : e.1 ∉ table.map (·.1) := by
      intro hmem
      exact (List.nodup_append.1 h).2.2 _ hmem _ (by simp) rfl
    have hstep := hplace (·.assign e.2 [e.1]) _ _ (Items.assign_of_not_mem hnew e.2)
    have hrest : ((table ++ [(e.1, Item.value e.2)]).map (·.1) ++ entries.map (·.1)).Nodup := by
      simpa using h
    rw [assigns, List.map_cons, List.cons_append, carryOut, hstep, Option.bind_some]
    refine (ih hrest).trans ?_
    rw [List.append_assoc]
    rfl

/-- A table with a list of tables at its end, the last one of them first. -/
def withTables (root : Items) (key : String) : List Items → Items
  | [] => root
  | tables => root ++ [(key, .tables tables)]

theorem withTables_of_ne_nil {tables : List Items} (h : tables ≠ []) (root : Items) (key : String) :
    withTables root key tables = root ++ [(key, .tables tables)] := by
  cases tables with
  | nil => exact absurd rfl h
  | cons last earlier => rfl

theorem atPath_withTables {root : Items} {key : String} (h : key ∉ root.map (·.1))
    (tables : List Items) :
    (withTables root key tables).atPath Items.openItem [key] =
      some (withTables root key ([] :: tables)) := by
  cases tables with
  | nil => exact (Items.update_of_not_mem h).trans rfl
  | cons last earlier => exact (Items.update_concat h _).trans rfl

theorem within_withTables {root : Items} {key : String} (h : key ∉ root.map (·.1))
    (earlier : List Items) (change : Items → Option Items) (table table' : Items)
    (hchange : change table = some table') :
    Items.within [key] change (withTables root key (table :: earlier)) =
      some (withTables root key (table' :: earlier)) := by
  refine (Items.update_concat h _).trans ?_
  simp [Items.within, hchange, withTables]

/-- The statements that add tables to a list. -/
def adds (key : String) (tables : List Table) : List Statement :=
  tables.flatMap fun t => .itemHeader [key] :: assigns t

theorem carryOut_adds {root : Items} {key : String} (h : key ∉ root.map (·.1)) {tables : List Table}
    (htables : ∀ t ∈ tables, (t.map (·.1)).Nodup) (current : List String) (earlier : List Items) :
    carryOut (adds key tables) current (withTables root key earlier) =
      some (withTables root key ((tables.map valuesOf).reverse ++ earlier)) := by
  induction tables generalizing current earlier with
  | nil => rfl
  | cons t tables ih =>
    obtain ⟨ht, hmore⟩ := List.forall_mem_cons.1 htables
    have hassigns : carryOut (assigns t ++ adds key tables) [key] (withTables root key ([] :: earlier)) =
        carryOut (adds key tables) [key] (withTables root key (([] ++ valuesOf t) :: earlier)) :=
      carryOut_assigns [key] (fun table => withTables root key (table :: earlier))
        (within_withTables h earlier) (by simpa using ht) _
    rw [List.nil_append, ih hmore] at hassigns
    rw [adds, List.flatMap_cons, List.cons_append, carryOut, atPath_withTables h, Option.bind_some]
    refine hassigns.trans ?_
    simp

theorem toTables_eq (tables : List Items) :
    Items.toTables tables = tables.map fun t => .table (Items.toTable t) := by
  induction tables with
  | nil => rfl
  | cons t tables ih => rw [Items.toTables, ih, List.map_cons]

/-- A document that says values and then tables of a list holds just these. -/
theorem tableOf?_assigns_adds {plain : Table} {key : String} {tables : List Table}
    (hkeys : (plain.map (·.1) ++ [key]).Nodup) (hne : tables ≠ [])
    (htables : ∀ t ∈ tables, (t.map (·.1)).Nodup) :
    tableOf? (assigns plain ++ adds key tables) =
      some (plain ++ [(key, .list (tables.map .table))]) := by
  obtain ⟨hplain, -, hapart⟩ := List.nodup_append.1 hkeys
  have hkey : key ∉ (valuesOf plain).map (·.1) := by
    rw [keys_valuesOf]
    exact fun hmem => hapart key hmem key (by simp) rfl
  have hroot : carryOut (assigns plain ++ adds key tables) [] [] =
      carryOut (adds key tables) [] ([] ++ valuesOf plain) :=
    carryOut_assigns [] (fun table => table) (fun change table table' h => h) (by simpa using hplain) _
  have hadds : carryOut (adds key tables) [] (valuesOf plain) =
      some (withTables (valuesOf plain) key ((tables.map valuesOf).reverse ++ [])) :=
    carryOut_adds hkey htables [] []
  have hsome : (tables.map valuesOf).reverse ≠ [] := by simpa using hne
  rw [List.append_nil, withTables_of_ne_nil hsome] at hadds
  rw [tableOf?, hroot, List.nil_append, hadds, Option.map_some, Items.toTable_append,
    toTable_valuesOf, Items.toTable, Items.toTable, Item.toValue, toTables_eq]
  simp [toTable_valuesOf, Function.comp_def]

theorem Table.member?_cons (e : String × Value) (t : Table) (name : String) :
    Table.member? (e :: t) name =
      (t.member? name).or (if Text.lower e.1 = Text.lower name then some e.2 else none) := by
  rw [Table.member?, Table.member?, List.reverse_cons, List.find?_append, Option.map_or]
  by_cases h : Text.lower e.1 = Text.lower name <;> simp [h]

theorem Table.exists_of_member? {t : Table} {name : String} {v : Value}
    (h : t.member? name = some v) : ∃ e ∈ t, Text.lower e.1 = Text.lower name ∧ e.2 = v := by
  obtain ⟨e, hfind, hv⟩ := Option.map_eq_some_iff.1 h
  have hsame := List.find?_some hfind
  exact ⟨e, List.mem_reverse.1 (List.mem_of_find?_eq_some hfind), beq_iff_eq.1 hsame, hv⟩

/-- Where keys differ and have small letters only, a member is found under its key. -/
theorem Table.member?_eq_lookup {t : Table} (hkeys : (t.map (·.1)).Nodup)
    (hlower : ∀ key ∈ t.map (·.1), Text.lower key = key) {name : String}
    (hname : Text.lower name = name) : t.member? name = t.lookup name := by
  induction t with
  | nil => rfl
  | cons e t ih =>
    rw [List.map_cons] at hkeys hlower
    obtain ⟨hnew, hmore⟩ := List.nodup_cons.1 hkeys
    obtain ⟨he, hlower⟩ := List.forall_mem_cons.1 hlower
    rw [Table.member?_cons, List.lookup_cons, he, hname]
    by_cases hfound : e.1 = name
    · have hnone : Table.member? t name = none := by
        by_contra hsome
        obtain ⟨v, hv⟩ := Option.ne_none_iff_exists'.1 hsome
        obtain ⟨other, hother, hsame, -⟩ := Table.exists_of_member? hv
        have hmem : other.1 ∈ t.map (·.1) := List.mem_map_of_mem hother
        rw [hlower _ hmem, hname] at hsame
        exact hnew (hfound ▸ hsame ▸ hmem)
      simp [hnone, hfound]
    · have hdiffers : (name == e.1) = false := by simpa using Ne.symm hfound
      simp [hfound, hdiffers, ih hmore hlower]

theorem Table.member?_of_keys {t : Table} {keys : List String} (h : (t.map (·.1)).Sublist keys)
    (hdistinct : keys.Nodup) (hlower : ∀ key ∈ keys, Text.lower key = key) {name : String}
    (hname : name ∈ keys) : t.member? name = t.lookup name :=
  Table.member?_eq_lookup (h.nodup hdistinct) (fun key hkey => hlower key (h.subset hkey))
    (hlower name hname)

/-! Numbers -/

/-- A value that is no whole number beyond 64 bits. -/
def Value.Fits (v : Value) : Prop := ∀ n, v = .int n → n < 0x8000000000000000

def Item.Fits (item : Item) : Prop := ∀ v, item = .value v → v.Fits

def Items.Fit (items : Items) : Prop := ∀ e ∈ items, e.2.Fits

theorem Item.fits_table (origin : Origin) (entries : Items) : (Item.table origin entries).Fits := nofun

theorem Item.fits_tables (tables : List Items) : (Item.tables tables).Fits := nofun

namespace Items

theorem Fit.update {items items' : Items} (h : items.Fit) {key : String}
    {change : Option Item → Option Item} (hchange : ∀ old new, change old = some new → new.Fits)
    (hupdate : items.update key change = some items') : items'.Fit := by
  induction items generalizing items' with
  | nil =>
    obtain ⟨item, hitem, rfl⟩ := Option.map_eq_some_iff.1 hupdate
    exact List.forall_mem_singleton.2 (hchange none item hitem)
  | cons first more ih =>
    obtain ⟨name, item⟩ := first
    obtain ⟨hfirst, hmore⟩ := List.forall_mem_cons.1 h
    rw [Items.update] at hupdate
    split at hupdate
    · obtain ⟨item', hitem, rfl⟩ := Option.map_eq_some_iff.1 hupdate
      exact List.forall_mem_cons.2 ⟨hchange _ item' hitem, hmore⟩
    · obtain ⟨rest, hrest, rfl⟩ := Option.map_eq_some_iff.1 hupdate
      exact List.forall_mem_cons.2 ⟨hfirst, ih hmore hrest⟩

theorem Fit.within {path : List String} {items items' : Items} (h : items.Fit)
    {change : Items → Option Items}
    (hchange : ∀ table table', Fit table → change table = some table' → Fit table')
    (hwithin : items.within path change = some items') : items'.Fit := by
  cases path with
  | nil => exact hchange items items' h hwithin
  | cons key path =>
    refine h.update ?_ hwithin
    -- what is changed is inside a table, and a table is no number
    intro old new hnew
    split at hnew
    · obtain ⟨_, -, rfl⟩ := Option.map_eq_some_iff.1 hnew
      exact Item.fits_table _ _
    · obtain ⟨_, -, rfl⟩ := Option.map_eq_some_iff.1 hnew
      exact Item.fits_table _ _
    · obtain ⟨_, -, rfl⟩ := Option.map_eq_some_iff.1 hnew
      exact Item.fits_tables _
    · cases hnew

theorem Fit.assign {path : List String} {value : Value} {items items' : Items} (h : items.Fit)
    (hvalue : value.Fits) (hassign : items.assign value path = some items') : items'.Fit := by
  unfold Items.assign at hassign
  split at hassign
  · cases hassign
  · refine h.update ?_ hassign
    intro old new hnew
    split at hnew
    · obtain rfl := Option.some.inj hnew
      rintro v ⟨⟩
      exact hvalue
    · cases hnew
  · refine h.update ?_ hassign
    intro old new hnew
    split at hnew
    · obtain ⟨_, -, rfl⟩ := Option.map_eq_some_iff.1 hnew
      exact Item.fits_table _ _
    · obtain ⟨_, -, rfl⟩ := Option.map_eq_some_iff.1 hnew
      exact Item.fits_table _ _
    · cases hnew

theorem Fit.atPath {path : List String} {change : Option Item → Option Item} {items items' : Items}
    (h : items.Fit) (hchange : ∀ old new, change old = some new → new.Fits)
    (hpath : items.atPath change path = some items') : items'.Fit := by
  unfold Items.atPath at hpath
  split at hpath
  · cases hpath
  · exact h.within (fun _ _ htable => htable.update hchange) hpath

end Items

/-- A statement whose value fits. -/
def Statement.Fits (s : Statement) : Prop := ∀ path value, s = .assign path value → value.Fits

theorem fits_openTable (old : Option Item) (new : Item) (h : Items.openTable old = some new) :
    new.Fits := by
  unfold Items.openTable at h
  split at h
  · obtain rfl := Option.some.inj h
    exact Item.fits_table _ _
  · obtain rfl := Option.some.inj h
    exact Item.fits_table _ _
  · cases h

theorem fits_openItem (old : Option Item) (new : Item) (h : Items.openItem old = some new) :
    new.Fits := by
  unfold Items.openItem at h
  split at h
  · obtain rfl := Option.some.inj h
    exact Item.fits_tables _
  · obtain rfl := Option.some.inj h
    exact Item.fits_tables _
  · cases h

/-- Each statement leaves the numbers as they are or puts in one that fits. -/
theorem fit_carryOut {statements : List Statement} (hstatements : ∀ s ∈ statements, s.Fits)
    {current : List String} {items items' : Items} (h : items.Fit)
    (hcarry : carryOut statements current items = some items') : items'.Fit := by
  induction statements generalizing current items with
  | nil =>
    obtain rfl := Option.some.inj hcarry
    exact h
  | cons s statements ih =>
    obtain ⟨hs, hmore⟩ := List.forall_mem_cons.1 hstatements
    cases s with
    | header path =>
      obtain ⟨next, hnext, hrest⟩ := Option.bind_eq_some_iff.1 hcarry
      exact ih hmore (h.atPath fits_openTable hnext) hrest
    | itemHeader path =>
      obtain ⟨next, hnext, hrest⟩ := Option.bind_eq_some_iff.1 hcarry
      exact ih hmore (h.atPath fits_openItem hnext) hrest
    | assign path value =>
      obtain ⟨next, hnext, hrest⟩ := Option.bind_eq_some_iff.1 hcarry
      exact ih hmore (h.within (fun _ _ ht => ht.assign (hs path value rfl)) hnext) hrest

theorem Items.Fit.toTable {items : Items} (h : items.Fit) : ∀ e ∈ Items.toTable items, e.2.Fits := by
  induction items with
  | nil => exact nofun
  | cons first more ih =>
    obtain ⟨name, item⟩ := first
    obtain ⟨hfirst, hmore⟩ := List.forall_mem_cons.1 h
    rw [Items.toTable]
    refine List.forall_mem_cons.2 ⟨?_, ih hmore⟩
    cases item with
    | value v => exact hfirst v rfl
    | table origin entries =>
      rw [Item.toValue]
      exact nofun
    | tables items =>
      rw [Item.toValue]
      exact nofun

theorem int?_lt {cs : List Char} {n : Int} (h : int? cs = some n) : n < 0x8000000000000000 := by
  obtain ⟨-, hbounds⟩ := Option.filter_eq_some_iff.1 h
  simp only [Bool.and_eq_true, decide_eq_true_eq] at hbounds
  exact hbounds.2

theorem fits_scalar? {newer : Bool} {cs : List Char} {v : Value} (h : scalar? newer cs = some v) :
    v.Fits := by
  rintro n rfl
  unfold scalar? at h
  split at h
  · cases h
  split at h
  · cases h
  split at h
  next hint =>
    obtain ⟨⟩ := h
    exact int?_lt hint
  split at h
  · cases h
  split at h
  · cases h
  · cases h

theorem fits_bare? {edition : Edition} {cs rest : List Char} {v : Value}
    (h : bare? edition cs = some (v, rest)) : v.Fits := by
  obtain ⟨v, hscalar, hv⟩ := Option.map_eq_some_iff.1 h
  obtain rfl := (Prod.mk.inj hv).1
  exact fits_scalar? hscalar

theorem fits_value? {edition : Edition} {fuel : Nat} {cs rest : List Char} {v : Value}
    (h : value? edition fuel cs = some (v, rest)) : v.Fits := by
  cases fuel with
  | zero =>
    rw [value?] at h
    cases h
  | succ fuel =>
    unfold value? at h
    split at h
    · cases h
    · obtain ⟨_, -, hv⟩ := Option.map_eq_some_iff.1 h
      obtain rfl := (Prod.mk.inj hv).1
      exact nofun
    · obtain ⟨_, -, h⟩ := Option.bind_eq_some_iff.1 h
      obtain ⟨_, htable, hv⟩ := Option.bind_eq_some_iff.1 h
      obtain ⟨_, -, rfl⟩ := Option.map_eq_some_iff.1 htable
      obtain rfl := (Prod.mk.inj (Option.some.inj hv)).1
      exact nofun
    · split at h
      · obtain ⟨_, -, hv⟩ := Option.map_eq_some_iff.1 h
        obtain rfl := (Prod.mk.inj hv).1
        exact nofun
      · exact fits_bare? h

theorem fits_statement? {edition : Edition} {cs rest : List Char} {s : Statement}
    (h : statement? edition cs = some (s, rest)) : s.Fits := by
  rintro path value rfl
  unfold statement? at h
  split at h
  · obtain ⟨⟨_, _⟩, -, h⟩ := Option.bind_eq_some_iff.1 h
    dsimp only at h
    split at h
    · obtain ⟨_, -, hs⟩ := Option.map_eq_some_iff.1 h
      cases hs
    · cases h
  · obtain ⟨⟨_, _⟩, -, h⟩ := Option.bind_eq_some_iff.1 h
    dsimp only at h
    split at h
    · obtain ⟨_, -, hs⟩ := Option.map_eq_some_iff.1 h
      cases hs
    · cases h
  · obtain ⟨⟨_, _⟩, -, h⟩ := Option.bind_eq_some_iff.1 h
    dsimp only at h
    split at h
    · obtain ⟨⟨read, _⟩, hread, h⟩ := Option.bind_eq_some_iff.1 h
      obtain ⟨_, -, hs⟩ := Option.map_eq_some_iff.1 h
      cases hs
      exact fits_value? hread
    · cases h

theorem fits_statements? {edition : Edition} {fuel : Nat} {cs : List Char} {statements : List Statement}
    (h : statements? edition fuel cs = some statements) : ∀ s ∈ statements, s.Fits := by
  induction fuel generalizing cs statements with
  | zero => cases h
  | succ fuel ih =>
    obtain ⟨next, -, h⟩ := Option.bind_eq_some_iff.1 h
    split at h
    · obtain rfl := Option.some.inj h
      simp
    · obtain ⟨⟨s, rest⟩, hs, hrest⟩ := Option.bind_eq_some_iff.1 h
      obtain ⟨more, hmore, rfl⟩ := Option.map_eq_some_iff.1 hrest
      exact List.forall_mem_cons.2 ⟨fits_statement? hs, ih hmore⟩

/-- The whole numbers of a document have 64 bits. -/
theorem fits_read? {edition : Edition} {text : String} {t : Table} (h : read? edition text = some t) :
    ∀ e ∈ t, e.2.Fits := by
  obtain ⟨statements, hstatements, htable⟩ := Option.bind_eq_some_iff.1 h
  obtain ⟨items, hcarry, rfl⟩ := Option.map_eq_some_iff.1 htable
  have hempty : Items.Fit [] := by simp [Items.Fit]
  exact (fit_carryOut (fits_statements? hstatements) hempty hcarry).toTable

theorem fits_readBytes? {edition : Edition} {bytes : List UInt8} {t : Table}
    (h : readBytes? edition bytes = some t) : ∀ e ∈ t, e.2.Fits := by
  unfold readBytes? at h
  dsimp only at h
  split at h
  · exact fits_read? h
  · cases h

theorem eq_int_of_int? {v : Value} {n : Int} (h : v.int? = some n) : v = .int n := by
  unfold Value.int? at h
  split at h
  · rw [Option.some.inj h]
  · cases h

theorem lt_of_getD?_int? {t : Table} (ht : ∀ e ∈ t, e.2.Fits) {name : String} {default n : Int}
    (hdefault : default < 0x8000000000000000) (h : t.getD? name Value.int? default = some n) :
    n < 0x8000000000000000 := by
  obtain ⟨found, hfound, rfl⟩ := Option.map_eq_some_iff.1 h
  unfold Table.optional? at hfound
  split at hfound
  · obtain rfl := Option.some.inj hfound
    exact hdefault
  next value hvalue =>
    obtain ⟨e, he, -, rfl⟩ := Table.exists_of_member? hvalue
    obtain ⟨n, hint, rfl⟩ := Option.map_eq_some_iff.1 hfound
    exact ht e he n (eq_int_of_int? hint)

end ClassAtlas.Toml
