import Tabular.Proofs.Table.Step

/-!
Properties of the rows of a table. Rows are stored by insertions and by updates and by nothing else,
so a property of all rows is kept along a run once it is known what those two must bring for it.
-/
namespace Tabular.Table

def AllRows (P : Table → Row → Prop) (t : Table) : Prop := ∀ e ∈ t.entries, P t e.row

/-- A property of rows with what an operation has to bring, so that the rows that it stores have the
property. Neither depends on more of the table than its columns and its key. -/
structure RowRule (P : Table → Row → Prop) (Brings : Table → Operation → Prop) : Prop where
  row_congr : ∀ {t s : Table}, s.columns = t.columns → s.keyName = t.keyName →
    ∀ row, P s row ↔ P t row
  brings_congr : ∀ {t s : Table}, s.columns = t.columns → s.keyName = t.keyName →
    ∀ op, Brings s op ↔ Brings t op
  /-- A row is stored with the key on which its insertion settles. -/
  insertRow : ∀ {t : Table} {row r : Row} {key : Option Raw} {k : Value} {c : Int64},
    t.WellFormed → key.any Raw.isNull = false → t.Settles row key k c →
    Column.equalLists row.columns t.columns = true → row.set t.keyName k = .ok r →
    Brings t (.insertRow row key) → P t r
  insert : ∀ {t : Table} {data : List (String × Raw)} {row : Row}, t.WellFormed →
    t.row data = .ok row → Brings t (.insert data) → Brings t (.insertRow row none)
  insertRows : ∀ {t : Table} {rows : List Row}, Brings t (.insertRows rows) →
    ∀ row ∈ rows, Brings t (.insertRow row none)
  updateRow : ∀ {t : Table} {e : Entry} {r : Row} {key : Raw} {updates : List (String × Raw)}
    {changes : List (String × Value)}, t.WellFormed → e ∈ t.entries →
    t.changes updates = .ok changes → e.row.setAll changes = .ok r →
    P t e.row → Brings t (.updateRow key updates) → P t r

variable {P : Table → Row → Prop} {Brings : Table → Operation → Prop} {t : Table}

theorem allRows_of_create {name : String} {columns : List Column} {key : Option String}
    {settings : Settings} (h : create name columns key settings = .ok t) : t.AllRows P := by
  simp [AllRows, entries_of_create h]

namespace RowRule

variable (rule : RowRule P Brings)

include rule

theorem allRows_append_iff (cursor : Int64) (k : Value) (r : Row) :
    (({ t with cursor } : Table).append k r).AllRows P ↔ t.AllRows P ∧ P t r := by
  have hrow : ∀ row, P (({ t with cursor } : Table).append k r) row ↔ P t row :=
    rule.row_congr rfl rfl
  simp only [AllRows, hrow]
  exact forall_mem_entries_append

theorem allRows_insertRow_iff (h : t.WellFormed) (held : t.AllRows P) {row : Row}
    {key : Option Raw} {k : Value} (ok : (t.insertRow row key).1 = .ok k) :
    ∃ c r, key.any Raw.isNull = false ∧ t.Settles row key k c ∧ row.set t.keyName k = .ok r ∧
      ((t.insertRow row key).2.AllRows P ↔ P t r) := by
  rcases h.insertRow_cases row key with ⟨e, he⟩ | ⟨k', c, r, present, settles, -, set, ho⟩
  · rw [he] at ok
    cases ok
  · rw [ho] at ok ⊢
    cases ok
    refine ⟨c, r, present, settles, set, ?_⟩
    rw [rule.allRows_append_iff, and_iff_right held]

theorem allRows_replaceRow_iff (held : t.AllRows P) {e : Entry} (he : e ∈ t.entries) (r : Row) :
    (t.replaceRow e.slot r).AllRows P ↔ P t r := by
  have hrow : ∀ row, P (t.replaceRow e.slot r) row ↔ P t row := rule.row_congr rfl rfl
  simp only [AllRows, hrow]
  refine List.forall_mem_map.trans ⟨fun hall => ?_, fun hr e' he' => ?_⟩
  · simpa [Entry.withRow_of_slot_eq] using hall e he
  · by_cases hs : e'.slot = e.slot
    · rwa [Entry.withRow_of_slot_eq hs]
    · rw [Entry.withRow_of_slot_ne hs]
      exact held e' he'

theorem allRows_insertRow (h : t.WellFormed) (held : t.AllRows P) {row : Row} {key : Option Raw}
    (brings : Brings t (.insertRow row key)) : (t.insertRow row key).2.AllRows P := by
  rcases h.insertRow_cases row key with ⟨e, he⟩ | ⟨k, c, r, present, settles, columns, set, ho⟩
  · rwa [he]
  · rw [ho, rule.allRows_append_iff]
    exact ⟨held, rule.insertRow h present settles columns set brings⟩

theorem allRows_insertRows (h : t.WellFormed) (held : t.AllRows P) {rows : List Row}
    (brings : ∀ row ∈ rows, Brings t (.insertRow row none)) :
    (t.insertRows rows).2.AllRows P := by
  induction rows generalizing t with
  | nil => exact held
  | cons row rows ih =>
    obtain ⟨hrow, hrows⟩ := List.forall_mem_cons.1 brings
    have hw := wellFormed_invariant.insertRow row none h
    have hheld := rule.allRows_insertRow h held hrow
    have hsteps := h.steps_insertRow row none
    rcases hins : t.insertRow row none with ⟨e | k, s⟩ <;> rw [hins] at hw hheld hsteps
    · simpa [Table.insertRows, hins] using hheld
    · rw [insertRows_cons_of_ok hins]
      refine ih hw hheld fun row hmem => ?_
      exact (rule.brings_congr hsteps.columns_eq hsteps.keyName_eq _).2 (hrows row hmem)

theorem allRows_after (h : t.WellFormed) (held : t.AllRows P) {op : Operation}
    (brings : Brings t op) : (t.after op).AllRows P := by
  have hsteps := h.steps_after op
  have hrow : ∀ row, P (t.after op) row ↔ P t row :=
    rule.row_congr hsteps.columns_eq hsteps.keyName_eq
  cases op with
  | insert data =>
    rcases t.insert_cases data with ⟨e, -, ho⟩ | ⟨row, heq, ho⟩ <;> simp only [after, ho]
    · exact held
    · exact rule.allRows_insertRow h held (rule.insert h heq brings)
  | insertRow row key => exact rule.allRows_insertRow h held brings
  | insertRows rows => exact rule.allRows_insertRows h held (rule.insertRows brings)
  | updateRow key updates =>
    rcases t.updateRow_cases key updates with
      ⟨e, he⟩ | ⟨slot, e, changes, r, -, hat, hm, -, set, ho⟩
    · simpa only [after, he] using held
    · obtain ⟨mem, rfl⟩ := h.entryAt?_iff.1 hat
      simp only [after, ho]
      exact (rule.allRows_replaceRow_iff held mem r).2
        (rule.updateRow h mem hm set (held e mem) brings)
  | deleteRow key =>
    intro e' he'
    rw [hrow]
    rcases t.deleteRow_cases key with ⟨ho, -⟩ | ⟨_, e, -, -, ho⟩ <;> simp only [after, ho] at he'
    · exact held e' he'
    · exact held e' (List.mem_of_mem_filter he')
  | rename name =>
    intro e' he'
    rw [hrow]
    refine held e' ?_
    simp only [after, Table.rename] at he'
    split at he' <;> exact he'
  | issueKey =>
    intro e' he'
    rw [hrow]
    refine held e' ?_
    simp only [after, Table.issueKey] at he'
    split at he' <;> exact he'

/-- What holds of all rows at first holds of all rows in the end, if every operation brings what it
has to. -/
theorem allRows_run (h : t.WellFormed) (held : t.AllRows P) {ops : List Operation}
    (brings : ∀ op ∈ ops, Brings t op) : (t.run ops).AllRows P := by
  induction ops generalizing t with
  | nil => exact held
  | cons op ops ih =>
    obtain ⟨hop, hops⟩ := List.forall_mem_cons.1 brings
    have hsteps := h.steps_after op
    refine ih (wellFormed_invariant.after h op) (rule.allRows_after h held hop) fun op' hmem => ?_
    exact (rule.brings_congr hsteps.columns_eq hsteps.keyName_eq op').2 (hops op' hmem)

end RowRule

end Tabular.Table
