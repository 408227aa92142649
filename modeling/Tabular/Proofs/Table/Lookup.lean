import Tabular.Proofs.Table.WellFormed
import Tabular.Proofs.Coercion

/-!
Which row a live key leads to when it is given as a raw value. The form that the affinity of the key
column prefers is looked up before the key itself, so a strict key column may lead to another row.
-/
namespace Tabular.Table

theorem mem_toList_iff {t : Table} {k : Value} {row : Row} :
    (k, row) ∈ t.toList ↔ ∃ e ∈ t.entries, e.key = k ∧ e.row = row := by
  simp [toList]

theorem find?_toRaw (t : Table) (k : Value) :
    t.find? k.toRaw =
      ((t.keyColumn.affinity.coerce k.toRaw).toOption.bind t.slot?).or (t.slot? k) := by
  simp [find?, Except.toOption]

/-- A live key that its affinity turns into another live key. -/
def Shadowed (t : Table) (k : Value) : Prop :=
  ∃ k', t.keyColumn.affinity.coerce k.toRaw = .ok k' ∧ k' ≠ k ∧ ∃ row, (k', row) ∈ t.toList

namespace WellFormed

variable {t : Table}

theorem toList_replaceRow (h : t.WellFormed) {e : Entry} (he : e ∈ t.entries) (row : Row) :
    (t.replaceRow e.slot row).toList =
      t.toList.map fun p => if p.1 = e.key then (p.1, row) else p := by
  simp only [toList, Table.replaceRow, List.map_map]
  refine List.map_congr_left fun e' he' => ?_
  by_cases hk : e'.key = e.key
  · obtain rfl := h.eq_of_key_eq he' he hk
    simp [Entry.withRow_of_slot_eq]
  · have hs := h.slot_ne_of_key_ne he' he hk
    simp [Entry.withRow_of_slot_ne hs, hk]

theorem toList_removeEntry (h : t.WellFormed) {e : Entry} (he : e ∈ t.entries) :
    (t.removeEntry e).toList = t.toList.filter (·.1 ≠ e.key) := by
  simp only [toList, Table.removeEntry, List.filter_map]
  refine congrArg _ (List.filter_congr fun e' he' => ?_)
  by_cases hk : e'.key = e.key
  · simp [h.eq_of_key_eq he' he hk]
  · have hs := h.slot_ne_of_key_ne he' he hk
    simp [hs, hk]

theorem get?_of_find? (h : t.WellFormed) {e : Entry} (he : e ∈ t.entries) {key : Raw}
    (hf : t.find? key = some e.slot) : t.get? key = some e.row := by
  have hat := h.entryAt?_iff.2 ⟨he, rfl⟩
  simp [Table.get?, hf, hat]

/-- Once the changes are stored, nothing can go wrong any more: a row has all columns of its
table. -/
theorem updateRow_of_find? (h : t.WellFormed) {e : Entry} (he : e ∈ t.entries) {key : Raw}
    (hf : t.find? key = some e.slot) (updates : List (String × Raw)) :
    (∃ err, t.changes updates = .error err ∧ t.updateRow key updates = (.error err, t)) ∨
      ∃ cs row, t.changes updates = .ok cs ∧ e.row.setAll cs = .ok row ∧
        t.updateRow key updates = (.ok (), t.replaceRow e.slot row) := by
  have hat := h.entryAt?_iff.2 ⟨he, rfl⟩
  have hcols := h.columns e he
  unfold updateRow
  simp only [hf, hat]
  cases hm : t.changes updates with
  | error err => exact .inl ⟨err, rfl, rfl⟩
  | ok cs =>
    obtain ⟨row, hrow⟩ := exists_setAll_of_changes hm hcols
    exact .inr ⟨cs, row, rfl, hrow, by simp [hcols, Row.setEach_of_setAll hrow]⟩

theorem deleteRow_of_find? (h : t.WellFormed) {e : Entry} (he : e ∈ t.entries) {key : Raw}
    (hf : t.find? key = some e.slot) : t.deleteRow key = (.ok e.row, t.removeEntry e) := by
  have hat := h.entryAt?_iff.2 ⟨he, rfl⟩
  simp [deleteRow, hf, hat]

/-- A live key is looked up as itself, unless its preferred form is another live key. -/
theorem find?_toRaw_eq_iff (h : t.WellFormed) {e : Entry} (he : e ∈ t.entries) :
    t.find? e.key.toRaw = some e.slot ↔ ¬ t.Shadowed e.key := by
  have hslot := h.slot?_of_mem he
  rw [find?_toRaw, hslot]
  cases hc : t.keyColumn.affinity.coerce e.key.toRaw with
  | error err => simp [Shadowed, hc, Except.toOption]
  | ok k' =>
    have hshadow : t.Shadowed e.key ↔ k' ≠ e.key ∧ ∃ e' ∈ t.entries, e'.key = k' := by
      simp [Shadowed, hc, mem_toList_iff]
    rw [hshadow]
    by_cases hk : k' = e.key
    · subst hk
      simp [Except.toOption, hslot]
    · cases hs : t.slot? k' with
      | none =>
        have hdead : ¬ ∃ e' ∈ t.entries, e'.key = k' := by
          rintro ⟨e', he', rfl⟩
          rw [h.slot?_of_mem he'] at hs
          cases hs
        simp [Except.toOption, hs, hdead]
      | some slot =>
        obtain ⟨e', he', rfl, rfl⟩ := h.slot?_iff_mem.1 hs
        have hne := h.slot_ne_of_key_ne he' he hk
        have hlive : ∃ e'' ∈ t.entries, e''.key = e'.key := ⟨e', he', rfl⟩
        simp [Except.toOption, hs, hne, hk, hlive]

end WellFormed

def LaxKeysCoerced (t : Table) : Prop :=
  t.keyColumn.strict = false → ∀ e ∈ t.entries, t.keyColumn.affinity.coerce e.key.toRaw = .ok e.key

theorem Settles.coerce_toRaw {t : Table} {row : Row} {key : Option Raw} {k : Value} {c : Int64}
    (h : t.Settles row key k c) (present : key.any Raw.isNull = false)
    (lax : t.keyColumn.strict = false) : t.keyColumn.affinity.coerce k.toRaw = .ok k := by
  cases h with
  | chosen hraw hk _ =>
    have hpresent := isNull_of_chosenKey? present hraw
    exact Affinity.coerce_toRaw (Column.coerce_of_resolve lax hpresent hk)
  | generated _ hgen _ =>
    have hinteger : t.keyColumn.affinity = .integer := by simpa [generatesKeys] using hgen
    rw [hinteger]
    rfl

theorem laxKeysCoerced_invariant : Invariant LaxKeysCoerced where
  insertRow {t} row key h := by
    rcases t.insertRow_cases row key with ⟨e, he⟩ | ⟨k, c, hp, hs, -, hset⟩
    · rwa [he]
    · rcases hset with ⟨e, -, he⟩ | ⟨r, -, he⟩
      · rw [he]
        exact h
      · rw [he]
        intro lax
        exact forall_mem_entries_append.2 ⟨h lax, hs.coerce_toRaw hp lax⟩
  updateRow {t} key updates h := by
    rcases t.updateRow_cases key updates with ⟨e, he⟩ | ⟨slot, e, changes, r, -, -, -, -, -, ho⟩
    · rwa [he]
    · rw [ho]
      intro lax
      refine List.forall_mem_map.2 fun e' he' => ?_
      rw [Entry.key_withRow]
      exact h lax e' he'
  deleteRow {t} key h := by
    rcases t.deleteRow_cases key with ⟨ho, -⟩ | ⟨slot, e, -, -, ho⟩
    · rwa [ho]
    · rw [ho]
      intro lax e' he'
      exact h lax e' (List.mem_of_mem_filter he')
  rename {t} name h := by
    unfold Table.rename
    split <;> exact h
  issueKey {t} h := by
    unfold Table.issueKey
    split <;> exact h

theorem laxKeysCoerced_of_create {name : String} {columns : List Column} {key : Option String}
    {settings : Settings} {t : Table} (h : create name columns key settings = .ok t) :
    t.LaxKeysCoerced := by
  intro _
  simp [entries_of_create h]

theorem Reachable.laxKeysCoerced {t : Table} (h : t.Reachable) : t.LaxKeysCoerced :=
  laxKeysCoerced_invariant.reachable laxKeysCoerced_of_create h

/-- The live key, as a raw value, leads to its row and no other. -/
structure Addresses (t : Table) (k : Value) (row : Row) : Prop where
  contains : t.contains k.toRaw = true
  get : t.get? k.toRaw = some row
  update : ∀ updates,
    (∃ e, t.changes updates = .error e ∧ t.updateRow k.toRaw updates = (.error e, t)) ∨
      ∃ cs row', t.changes updates = .ok cs ∧ row.setAll cs = .ok row' ∧
        (t.updateRow k.toRaw updates).1 = .ok () ∧
        (t.updateRow k.toRaw updates).2.toList =
          t.toList.map fun p => if p.1 = k then (p.1, row') else p
  delete : (t.deleteRow k.toRaw).1 = .ok row ∧
    (t.deleteRow k.toRaw).2.toList = t.toList.filter (·.1 ≠ k)

theorem WellFormed.addresses_of_find? {t : Table} (h : t.WellFormed) {e : Entry}
    (he : e ∈ t.entries) (hf : t.find? e.key.toRaw = some e.slot) : t.Addresses e.key e.row where
  contains := by simp [Table.contains, hf]
  get := h.get?_of_find? he hf
  update updates := by
    rcases h.updateRow_of_find? he hf updates with hfail | ⟨cs, row', hcs, hset, ho⟩
    · exact .inl hfail
    · refine .inr ⟨cs, row', hcs, hset, by rw [ho], ?_⟩
      rw [ho]
      exact h.toList_replaceRow he row'
  delete := by
    have ho := h.deleteRow_of_find? he hf
    rw [ho]
    exact ⟨rfl, h.toList_removeEntry he⟩

/-- A key leads to its own row only through its own slot, as rows hold their keys. -/
theorem WellFormed.find?_of_get? {t : Table} (h : t.WellFormed) {e : Entry} (he : e ∈ t.entries)
    {key : Raw} (hget : t.get? key = some e.row) : t.find? key = some e.slot := by
  simp only [Table.get?, Option.bind_eq_bind, Option.bind_eq_some_iff, Option.pure_def,
    Option.some.injEq] at hget
  obtain ⟨slot, hf, e', hat, hrow⟩ := hget
  obtain ⟨he', rfl⟩ := h.entryAt?_iff.1 hat
  have hk : some e'.key = some e.key := by rw [← h.key_cell e' he', ← h.key_cell e he, hrow]
  rw [hf, h.eq_of_key_eq he' he (Option.some.inj hk)]

/-- A live key leads to its row and no other exactly if its affinity does not turn it into another
live key, and in a lax key column it never does. -/
theorem addresses_iff_not_shadowed {t : Table} (h : t.Reachable) {k : Value} {row : Row}
    (live : (k, row) ∈ t.toList) :
    (t.Addresses k row ↔ ¬ t.Shadowed k) ∧ (t.keyColumn.strict = false → ¬ t.Shadowed k) := by
  have hw := h.wellFormed
  obtain ⟨e, he, rfl, rfl⟩ := mem_toList_iff.1 live
  refine ⟨⟨fun ha => ?_, fun hs => ?_⟩, fun lax => ?_⟩
  · exact (hw.find?_toRaw_eq_iff he).1 (hw.find?_of_get? he ha.get)
  · exact hw.addresses_of_find? he ((hw.find?_toRaw_eq_iff he).2 hs)
  · rintro ⟨k', hk', hne, -⟩
    rw [h.laxKeysCoerced lax e he] at hk'
    exact hne (Except.ok.inj hk').symm

def readings : Table where
  name := "readings"
  columns := [{ name := "at", affinity := .real, strict := true }]
  keyName := "at"
  implicitKey := false
  settings := {}
  cursor := 1

def reading (k : Value) : Row := ⟨readings.columns, [k], rfl⟩

def threeReadings : Table :=
  readings.run [.insert [("at", .int 5)], .insert [("at", .real (.ofInt 5))],
    .insert [("at", .int 7)]]

theorem threeReadings_reachable : threeReadings.Reachable :=
  have h := @Built.create "readings" readings.columns (some "at") {} readings (by decide)
  (Reachable.built h).run _

theorem addresses_threeReadings :
    (.integer 7, reading (.integer 7)) ∈ threeReadings.toList ∧
      threeReadings.Addresses (.integer 7) (reading (.integer 7)) := by
  have live : (.integer 7, reading (.integer 7)) ∈ threeReadings.toList := by decide
  refine ⟨live, (addresses_iff_not_shadowed threeReadings_reachable live).1.2 ?_⟩
  rintro ⟨k', hk', -, row, hrow⟩
  obtain rfl : Value.real (.ofInt 7) = k' := Except.ok.inj hk'
  have dead : Value.real (.ofInt 7) ∉ threeReadings.toList.map (·.1) := by decide
  exact dead (List.mem_map_of_mem hrow)

/-- The key 5 leads to the row of 5.0, as a real key column prefers real numbers. -/
theorem not_addresses_threeReadings :
    threeReadings.Reachable ∧ (.integer 5, reading (.integer 5)) ∈ threeReadings.toList ∧
      threeReadings.get? (Value.integer 5).toRaw = some (reading (.real (.ofInt 5))) ∧
      ¬ threeReadings.Addresses (.integer 5) (reading (.integer 5)) := by
  have hget : threeReadings.get? (Value.integer 5).toRaw = some (reading (.real (.ofInt 5))) := by
    decide
  refine ⟨threeReadings_reachable, by decide, hget, fun h => ?_⟩
  have hrow := hget.symm.trans h.get
  exact absurd hrow (by decide)
end Tabular.Table
