import Tabular.Proofs.Table.Lookup
import Tabular.Proofs.Table.Step
import Mathlib.Data.List.Forall2

/-!
A table as the list of its keys and rows in the order of insertion. Insertions add at the end,
deletions take one pair out, updates replace one row where it stands, and nothing else touches the
list. Slots and the index are only the means to that.
-/
namespace Tabular

theorem Row.get?_setAll {r s : Row} {changes : List (String × Value)}
    (h : r.setAll changes = .ok s) (name : String) :
    s.get? name = (changes.reverse.lookup name).or (r.get? name) := by
  induction changes generalizing r with
  | nil =>
    cases h
    rfl
  | cons change changes ih =>
    obtain ⟨field, v⟩ := change
    obtain ⟨r', hr, hs⟩ := setAll_cons_eq_ok_iff.1 h
    have hfirst : r'.get? name = ([(field, v)].lookup name).or (r.get? name) := by
      by_cases hname : name = field
      · subst hname
        simp [get?_of_set hr]
      · have hb : (name == field) = false := by simpa using hname
        simp [get?_of_set_of_ne hr hname, List.lookup_cons, hb]
    rw [ih hs, hfirst, List.reverse_cons, List.lookup_append, Option.or_assoc]

namespace Table

/-- The rows in the order of insertion. -/
def rows (t : Table) : List Row := t.toList.map (·.2)

@[simp] theorem length_rows (t : Table) : t.rows.length = t.size := by simp [rows]

theorem rows_eq (t : Table) : t.rows = t.entries.map (·.row) := by simp [rows, toList]

theorem WellFormed.position?_eq {t : Table} (h : t.WellFormed) {e : Entry} (he : e ∈ t.entries)
    (column : String) : e.row.position? column = t.columns.findIdx? (·.name == column) := by
  have hnames := Column.names_of_equalLists (h.columns e he)
  have hmap := congrArg (List.findIdx? (· == column)) hnames
  simpa [List.findIdx?_map, Function.comp_def, Row.position?] using hmap

theorem WellFormed.forall₂_columnCells {t : Table} (h : t.WellFormed) {column : String}
    {vs : List Value} (hvs : t.columnCells column = .ok vs) :
    List.Forall₂ (fun row v => row.get? column = some v) t.rows vs := by
  unfold columnCells at hvs
  split at hvs
  · rename_i i hi
    cases hvs
    rw [rows_eq]
    refine List.forall₂_map_left_iff.2 (List.forall₂_map_right_iff.2 ?_)
    refine List.forall₂_same.2 fun e he => ?_
    have hp : e.row.position? column = some i := by rw [h.position?_eq he, hi]
    simp [Row.get?, hp, Row.position?_lt hp]
  · cases hvs

theorem exists_columnCells {t : Table} {c : Column} (hc : c ∈ t.columns) :
    ∃ vs, t.columnCells c.name = .ok vs := by
  have hfind : (t.columns.findIdx? (·.name == c.name)).isSome = true := by
    rw [List.findIdx?_isSome, List.any_eq_true]
    exact ⟨c, hc, beq_self_eq_true _⟩
  obtain ⟨i, hi⟩ := Option.isSome_iff_exists.1 hfind
  exact ⟨_, by simp [columnCells, hi]; rfl⟩

theorem change_eq_ok_iff {t : Table} {field : String} {raw : Raw} {c : String × Value} :
    t.change field raw = .ok c ↔
      field ≠ t.keyName ∧ ∃ column v, t.column? field = some column ∧ column.store raw = .ok v ∧
        c = (field, v) := by
  unfold change
  cases t.column? field with
  | none => simp
  | some column =>
    by_cases hkey : field = t.keyName
    · simp [hkey]
    · simp only [hkey, if_false, Except.map_eq_ok_iff]
      simp [hkey, eq_comm]

/-- A row with the last of the updates to each of its cells. The other cells, among them the key,
are as they were. -/
def Updates (t : Table) (updates : List (String × Raw)) (row row' : Row) : Prop :=
  row'.columns = row.columns ∧ ∀ name,
    match Row.cell? name updates with
    | none => row'.get? name = row.get? name
    | some raw => name ≠ t.keyName ∧ ∃ column v, t.column? name = some column ∧
        column.store raw = .ok v ∧ row'.get? name = some v

theorem lookup_of_changes {t : Table} {updates : List (String × Raw)}
    {changes : List (String × Value)}
    (h : List.Forall₂ (fun u c => t.change u.1 u.2 = .ok c) updates changes) (name : String) :
    (updates.lookup name = none ∧ changes.lookup name = none) ∨
      ∃ raw v, updates.lookup name = some raw ∧ changes.lookup name = some v ∧
        t.change name raw = .ok (name, v) := by
  induction h with
  | nil => exact .inl ⟨rfl, rfl⟩
  | @cons u c updates changes hc _ ih =>
    obtain ⟨field, raw⟩ := u
    obtain ⟨-, -, v, -, -, rfl⟩ := change_eq_ok_iff.1 hc
    by_cases hname : name = field
    · subst hname
      exact .inr ⟨raw, v, by simp, by simp, hc⟩
    · have hb : (name == field) = false := by simpa using hname
      simpa only [List.lookup_cons, hb] using ih

theorem updates_of_setAll {t : Table} {updates : List (String × Raw)}
    {changes : List (String × Value)} {row row' : Row} (stored : t.changes updates = .ok changes)
    (set : row.setAll changes = .ok row') : t.Updates updates row row' := by
  refine ⟨Row.columns_of_setAll set, fun name => ?_⟩
  have hget := Row.get?_setAll set name
  have hall := List.forall₂_reverse_iff.2 (Except.mapM_eq_ok_iff.1 stored)
  rcases lookup_of_changes hall name with ⟨hu, hc⟩ | ⟨raw, v, hu, hc, hchange⟩
  · simpa [Row.cell?, hu, hc] using hget
  · obtain ⟨hkey, column, w, hcolumn, hw, hv⟩ := change_eq_ok_iff.1 hchange
    obtain rfl := congrArg Prod.snd hv
    simp only [Row.cell?, hu]
    exact ⟨hkey, column, v, hcolumn, hw, by simpa [hc] using hget⟩

section

variable (keyName : String) (k : Value) (row row' : Row) (l l' : List (Value × Row))

def Appends : Prop :=
  ∃ r, l' = l ++ [(k, r)] ∧ r.columns = row.columns ∧ r.get? keyName = some k ∧
    ∀ name, name ≠ keyName → r.get? name = row.get? name

/-- The list with another row under a key, in the same place. -/
def Replaces : Prop :=
  ∃ before behind, l = before ++ (k, row) :: behind ∧ l' = before ++ (k, row') :: behind

/-- The list without one of its pairs, and the others in their order. -/
def Removes : Prop :=
  ∃ before behind, l = before ++ (k, row) :: behind ∧ l' = before ++ behind

end

/-- What an event does to the list. -/
inductive Edit (keyName : String) (l : List (Value × Row)) : Event → List (Value × Row) → Prop
  | append {k : Value} {row : Row} {l' : List (Value × Row)} (h : Appends keyName k row l l') :
      Edit keyName l (.inserted k row) l'
  | issue (k : Value) : Edit keyName l (.issued k) l
  | replace {k : Value} {row row' : Row} {l' : List (Value × Row)}
      (h : Replaces k row row' l l') : Edit keyName l .updated l'
  | remove {k : Value} {row : Row} {l' : List (Value × Row)} (h : Removes k row l l') :
      Edit keyName l .deleted l'
  | rename : Edit keyName l .renamed l

inductive Edits (keyName : String) :
    List (Value × Row) → List Event → List (Value × Row) → Prop
  | refl (l : List (Value × Row)) : Edits keyName l [] l
  | head {l m n : List (Value × Row)} {e : Event} {es : List Event} (edit : Edit keyName l e m)
      (rest : Edits keyName m es n) : Edits keyName l (e :: es) n

variable {t s : Table}

@[simp] theorem toList_append (t : Table) (k : Value) (row : Row) :
    (t.append k row).toList = t.toList ++ [(k, row)] := by simp [toList, append]

theorem appends_of_set {k : Value} {row r : Row} (set : row.set t.keyName k = .ok r)
    (cursor : Int64) : Appends t.keyName k row t.toList
      (({ t with cursor } : Table).append k r).toList :=
  ⟨r, toList_append _ k r, Row.columns_of_set set, Row.get?_of_set set,
    fun _ hne => Row.get?_of_set_of_ne set hne⟩

namespace WellFormed

theorem exists_split (h : t.WellFormed) {e : Entry} (he : e ∈ t.entries) :
    ∃ before behind, t.entries = before ++ e :: behind ∧
      ∀ e' ∈ before ++ behind, e'.slot ≠ e.slot := by
  obtain ⟨before, behind, hsplit⟩ := List.append_of_mem he
  have hascend := h.slots_ascend
  rw [hsplit, List.pairwise_append, List.pairwise_cons] at hascend
  obtain ⟨-, ⟨hbehind, -⟩, hbefore⟩ := hascend
  refine ⟨before, behind, hsplit, fun e' he' => ?_⟩
  rcases List.mem_append.1 he' with he' | he'
  · exact Nat.ne_of_lt (hbefore e' he' e List.mem_cons_self)
  · exact Nat.ne_of_gt (hbehind e' he')

theorem replaces_replaceRow (h : t.WellFormed) {e : Entry} (he : e ∈ t.entries) (row : Row) :
    Replaces e.key e.row row t.toList (t.replaceRow e.slot row).toList := by
  obtain ⟨before, behind, hsplit, hother⟩ := h.exists_split he
  have hkeep : ∀ es, es ⊆ before ++ behind → es.map (Entry.withRow e.slot row) = es := by
    intro es hes
    refine (List.map_congr_left fun e' he' => ?_).trans (List.map_id es)
    exact Entry.withRow_of_slot_ne (hother e' (hes he')) row
  refine ⟨before.map fun e => (e.key, e.row), behind.map fun e => (e.key, e.row), ?_, ?_⟩
  · simp [toList, hsplit]
  · simp [toList, Table.replaceRow, hsplit, hkeep before (List.subset_append_left _ _),
      hkeep behind (List.subset_append_right _ _), Entry.withRow_of_slot_eq]

theorem removes_removeEntry (h : t.WellFormed) {e : Entry} (he : e ∈ t.entries) :
    Removes e.key e.row t.toList (t.removeEntry e).toList := by
  obtain ⟨before, behind, hsplit, hother⟩ := h.exists_split he
  have hkeep : ∀ es, es ⊆ before ++ behind → es.filter (·.slot != e.slot) = es := by
    intro es hes
    refine List.filter_eq_self.2 fun e' he' => ?_
    simpa using hother e' (hes he')
  refine ⟨before.map fun e => (e.key, e.row), behind.map fun e => (e.key, e.row), ?_, ?_⟩
  · simp [toList, hsplit]
  · simp [toList, Table.removeEntry, hsplit, hkeep before (List.subset_append_left _ _),
      hkeep behind (List.subset_append_right _ _)]

theorem edit_of_step (h : t.WellFormed) {e : Event} (step : t.Step e s) :
    Edit t.keyName t.toList e s.toList := by
  cases step with
  | insert _ _ _ set => exact .append (appends_of_set set _)
  | issue => exact .issue _
  | update _ mem _ => exact .replace (h.replaces_replaceRow mem _)
  | delete mem => exact .remove (h.removes_removeEntry mem)
  | rename => exact .rename

theorem of_step (h : t.WellFormed) {e : Event} (step : t.Step e s) : s.WellFormed := by
  cases step with
  | insert _ settles columns set =>
    refine (h.with_name_cursor t.name _).append settles.slot?_eq_none ?_ (Row.get?_of_set set)
    rwa [Row.columns_of_set set]
  | issue => exact h.with_name_cursor t.name _
  | update stored mem set =>
    refine h.replaceRow mem (Row.columns_of_setAll set) (Row.get?_of_setAll set fun c hc => ?_)
    obtain ⟨u, -, hu⟩ := Except.exists_of_mem_mapM stored hc
    exact field_ne_of_change hu
  | delete mem => exact h.removeEntry mem
  | rename name => exact h.with_name_cursor name t.cursor

theorem edits_of_steps (h : t.WellFormed) {es : List Event} (steps : t.Steps es s) :
    Edits t.keyName t.toList es s.toList := by
  induction steps with
  | refl => exact .refl _
  | head step rest ih =>
    have hname := (Steps.single step).keyName_eq
    refine .head (h.edit_of_step step) ?_
    rw [← hname]
    exact ih (h.of_step step)

end WellFormed

/-- What the operations that succeed do to the list, and what is read off it. -/
structure Refines (t : Table) : Prop where
  keys_nodup : (t.toList.map (·.1)).Nodup
  insertRow : ∀ row key k, (t.insertRow row key).1 = .ok k →
    Appends t.keyName k row t.toList (t.insertRow row key).2.toList
  updateRow : ∀ key updates, (t.updateRow key updates).1 = .ok () →
    ∃ k row row', t.get? key = some row ∧ t.Updates updates row row' ∧
      Replaces k row row' t.toList (t.updateRow key updates).2.toList
  deleteRow : ∀ key row, (t.deleteRow key).1 = .ok row →
    ∃ k, t.get? key = some row ∧ Removes k row t.toList (t.deleteRow key).2.toList
  columnCells : ∀ c ∈ t.columns, ∃ vs, t.columnCells c.name = .ok vs ∧
    List.Forall₂ (fun p v => p.2.get? c.name = some v) t.toList vs
  size : t.size = t.toList.length

theorem WellFormed.refines (h : t.WellFormed) : t.Refines where
  keys_nodup := by simpa [toList, Function.comp_def] using h.keys_nodup
  insertRow row key k ok := by
    rcases h.insertRow_cases row key with ⟨e, he⟩ | ⟨k', c, r, -, -, -, set, ho⟩
    · rw [he] at ok
      cases ok
    · rw [ho] at ok ⊢
      cases ok
      exact appends_of_set set c
  updateRow key updates ok := by
    rcases t.updateRow_cases key updates with ⟨e, he⟩ | ⟨slot, e, _, r, hf, hat, hm, -, set, ho⟩
    · rw [he] at ok
      cases ok
    · obtain ⟨mem, rfl⟩ := h.entryAt?_iff.1 hat
      rw [ho]
      exact ⟨e.key, e.row, r, h.get?_of_find? mem hf, updates_of_setAll hm set,
        h.replaces_replaceRow mem r⟩
  deleteRow key row ok := by
    rcases t.deleteRow_cases key with ⟨ho, -⟩ | ⟨slot, e, hf, hat, ho⟩
    · rw [ho] at ok
      cases ok
    · obtain ⟨mem, rfl⟩ := h.entryAt?_iff.1 hat
      rw [ho] at ok ⊢
      cases ok
      exact ⟨e.key, h.get?_of_find? mem hf, h.removes_removeEntry mem⟩
  columnCells c hc := by
    obtain ⟨vs, hvs⟩ := exists_columnCells hc
    refine ⟨vs, hvs, ?_⟩
    exact List.forall₂_map_left_iff.1 (h.forall₂_columnCells hvs)
  size := (length_toList t).symm

/-- A table is the list of its keys and rows: each operation that succeeds edits the list in one
place, and along every run the list goes through the edits that the journal records. -/
theorem refines_of_reachable (h : t.Reachable) :
    t.Refines ∧ ∀ ops, Edits t.keyName t.toList (t.journal ops) (t.run ops).toList :=
  ⟨h.wellFormed.refines, fun ops => h.wellFormed.edits_of_steps (h.wellFormed.steps_run ops)⟩

/-- Of two new texts for one note the last one stands, and the note stays in its place. -/
theorem refines_of_reachable_notes :
    let t := notes.run editNotes
    let note (k : Value) (s : String) : Value × Row := (k, ⟨notes.columns, [k, .text s], rfl⟩)
    let updates : List (String × Raw) := [("text", .text "tea"), ("text", .text "corn")]
    t.toList = [note (.integer 2) "rye", note (.integer 4) "salt"] ∧
      (t.updateRow (.int 2) updates).1 = .ok () ∧
      (t.updateRow (.int 2) updates).2.toList =
        [note (.integer 2) "corn", note (.integer 4) "salt"] ∧
      t.Refines ∧ ∀ ops, Edits t.keyName t.toList (t.journal ops) (t.run ops).toList := by
  intro t note updates
  have ht : t.Reachable := (Reachable.built notes_built).run editNotes
  exact ⟨by decide, by decide, by decide, refines_of_reachable ht⟩

end Table

end Tabular
