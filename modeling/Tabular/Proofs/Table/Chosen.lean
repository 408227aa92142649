import Tabular.Proofs.Null
import Tabular.Proofs.Table.Generated

/-!
Keys that are chosen for rows. An integer key is free until a row is inserted under it, and never
again; any other key is free whenever no row is under it.
-/
namespace Tabular.Table

def keys (t : Table) : List Value := t.toList.map (·.1)

theorem keys_eq (t : Table) : t.keys = t.entries.map (·.key) := by simp [keys, toList]

variable {t : Table}

/-- Where no row was deleted, the keys taken are those of the rows. -/
def NoneFreed (t : Table) : Prop := ∀ k, k ∈ t.taken ↔ k ∈ t.keys

theorem NoneFreed.insertRow (h : t.NoneFreed) (row : Row) (key : Option Raw) :
    (t.insertRow row key).2.NoneFreed := by
  rcases t.insertRow_cases row key with ⟨e, he⟩ | ⟨k, c, -, -, -, ⟨e, -, he⟩ | ⟨r, -, ho⟩⟩
  · rwa [he]
  · rwa [he]
  · rw [ho]
    intro k'
    have hk' := h k'
    simp only [keys_eq] at hk' ⊢
    simp [append, hk', or_comm]

theorem NoneFreed.insertRows (h : t.NoneFreed) (rows : List Row) :
    (t.insertRows rows).2.NoneFreed := by
  induction rows generalizing t with
  | nil => exact h
  | cons row rows ih =>
    have hrow := h.insertRow row none
    rcases hins : t.insertRow row none with ⟨e | k, s⟩ <;> rw [hins] at hrow
    · simpa [Table.insertRows, hins] using hrow
    · rw [insertRows_cons_of_ok hins]
      exact ih hrow

theorem Built.noneFreed (h : t.Built) : t.NoneFreed := by
  have hempty : ∀ {name columns key settings} {t : Table},
      Table.create name columns key settings = .ok t → t.NoneFreed := by
    intro name columns key settings t h k
    obtain ⟨-, ⟨_, -, -, rfl⟩ | ⟨-, -, rfl⟩⟩ := create_cases h <;> simp [keys_eq]
  cases h with
  | create h => exact hempty h
  | @ofRows _ _ _ rows _ h =>
    obtain ⟨t₀, h₀, rfl⟩ := ofRows_cases h
    exact (hempty h₀).insertRows rows

namespace WellFormed

theorem isSome_slot?_iff (h : t.WellFormed) {k : Value} :
    (t.slot? k).isSome = true ↔ k ∈ t.keys := by
  rw [Option.isSome_iff_exists, keys_eq, List.mem_map]
  constructor
  · rintro ⟨slot, hslot⟩
    obtain ⟨e, he, hk, -⟩ := h.slot?_iff_mem.1 hslot
    exact ⟨e, he, hk⟩
  · rintro ⟨e, he, rfl⟩
    exact ⟨e.slot, h.slot?_of_mem he⟩

/-- A key that is never generated is taken only while it is in use. -/
theorem isTaken_iff_mem_keys (h : t.WellFormed) (chosen : t.generatesKeys = false) {k : Value} :
    t.isTaken k = true ↔ k ∈ t.keys := by
  simp [isTaken, chosen, h.isSome_slot?_iff]

end WellFormed

/-- A row for the table is inserted under a chosen key exactly if the key is free: for an integer
column if no row was ever inserted under it, and for any other column if none is under it now. The
answer is the key, or else that it is a duplicate. -/
theorem insertRow_explicit (h : t.Built) (ops : List Operation) {row : Row}
    (fits : Column.equalLists row.columns t.columns = true) {raw : Raw}
    (present : raw.isNull = false) {k : Value} (stored : t.keyColumn.store raw = .ok k) :
    let s := t.run ops
    (t.keyColumn.affinity = .integer → (s.insertRow row (some raw)).1 =
        if k ∈ t.keys ∨ k ∈ t.insertedKeys ops then .error (.duplicateKey s.name k) else .ok k) ∧
      (t.keyColumn.affinity ≠ .integer → (s.insertRow row (some raw)).1 =
        if k ∈ s.keys then .error (.duplicateKey s.name k) else .ok k) := by
  intro s
  have ht := (Reachable.built h).wellFormed
  have hs : s.WellFormed := ht.run ops
  have hsteps := ht.steps_run ops
  have hanswer : (s.insertRow row (some raw)).1 =
      if s.isTaken k = true then .error (.duplicateKey s.name k) else .ok k := by
    refine hs.insertRow_chosen_isTaken (by rwa [hsteps.columns_eq]) (by simpa using present) rfl ?_
    rw [hsteps.keyColumn_eq, Column.resolve_of_not_isNull present, stored]
  have htaken : k ∈ s.taken ↔ k ∈ t.keys ∨ k ∈ t.insertedKeys ops := by
    rw [hsteps.taken_eq, List.mem_append, List.mem_reverse, h.noneFreed, or_comm]
    rfl
  constructor
  · intro hinteger
    have hgen : s.generatesKeys = true := by
      rw [hsteps.generatesKeys_eq]
      exact decide_eq_true hinteger
    simp only [hanswer, hs.isTaken_eq_true_iff hgen, htaken]
  · intro hother
    have hgen : s.generatesKeys = false := by
      rw [hsteps.generatesKeys_eq]
      exact decide_eq_false hother
    simp only [hanswer, hs.isTaken_iff_mem_keys hgen]

def labels : Table where
  name := "labels"
  columns := [{ name := "label", affinity := .text }]
  keyName := "label"
  implicitKey := false
  settings := {}
  cursor := 1

theorem labels_built : labels.Built :=
  @Built.create "labels" labels.columns (some "label") {} labels (by decide)

/-- The number of a deleted note is not given to another, but a deleted label is. -/
theorem insertRow_explicit_labels :
    let tea : Row := ⟨notes.columns, [.null, .text "tea"], rfl⟩
    let label : Row := ⟨labels.columns, [.null], rfl⟩
    let ops : List Operation :=
      [.insert [("label", .text "old")], .insert [("label", .text "new")], .deleteRow (.text "old")]
    ((notes.run twoNotes).insertRow tea (some (.text " 41 "))).1 =
        .error (.duplicateKey "notes" (.integer 41)) ∧
      ((notes.run twoNotes).insertRow tea (some (.int 7))).1 = .ok (.integer 7) ∧
      ((labels.run ops).insertRow label (some (.text "old"))).1 = .ok (.text "old") ∧
      ((labels.run ops).insertRow label (some (.text "new"))).1 =
        .error (.duplicateKey "labels" (.text "new")) := by
  intro tea label ops
  have hinserted : notes.insertedKeys twoNotes = [.integer 41, .integer 42] := by decide
  have hlive : (labels.run ops).keys = [.text "new"] := by decide
  have hnote := @insertRow_explicit notes notes_built twoNotes tea (by decide)
  have hlabel := @insertRow_explicit labels labels_built ops label (by decide)
  refine ⟨?_, ?_, ?_, ?_⟩
  · rw [(@hnote (.text " 41 ") rfl (.integer 41) (by decide)).1 rfl, hinserted]
    rfl
  · rw [(@hnote (.int 7) rfl (.integer 7) rfl).1 rfl, hinserted]
    rfl
  · rw [(@hlabel (.text "old") rfl (.text "old") rfl).2 (by decide), hlive]
    rfl
  · rw [(@hlabel (.text "new") rfl (.text "new") rfl).2 (by decide), hlive]
    rfl

end Tabular.Table
