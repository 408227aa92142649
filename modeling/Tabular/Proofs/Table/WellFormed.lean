import Tabular.Proofs.Table.Run
import Tabular.Proofs.Table.Cases
import Tabular.Proofs.Except
import Mathlib.Data.List.Nodup

/-!
The state of a table holds the same facts in several places: in the rows, in the index, in the keys
taken and in the cells of the key column. In every table that can be reached they agree.
-/
namespace Tabular.Table

structure WellFormed (t : Table) : Prop where
  /-- The columns have different names, of which the key is one. -/
  names_nodup : (t.columns.map (·.name)).Nodup
  key_named : t.keyName ∈ t.columns.map (·.name)
  slots_ascend : t.entries.Pairwise (·.slot < ·.slot)
  slot_lt : ∀ e ∈ t.entries, e.slot < t.nextSlot
  /-- The index leads from a key to a slot exactly if the row in the slot is under the key. -/
  slot?_iff : ∀ key slot, t.slot? key = some slot ↔ ∃ row, t.entryAt? slot = some ⟨slot, key, row⟩
  keys_nodup : (t.entries.map (·.key)).Nodup
  columns : ∀ e ∈ t.entries, Column.equalLists e.row.columns t.columns = true
  /-- A row holds one value for each column. -/
  width : ∀ e ∈ t.entries, e.row.cells.length = t.columns.length
  key_cell : ∀ e ∈ t.entries, e.row.get? t.keyName = some e.key
  key_taken : ∀ e ∈ t.entries, e.key ∈ t.taken

theorem entryAt?_eq_some_iff {t : Table} (h : t.entries.Pairwise (·.slot < ·.slot)) {slot : Nat}
    {e : Entry} : t.entryAt? slot = some e ↔ e ∈ t.entries ∧ e.slot = slot := by
  unfold entryAt?
  generalize t.entries = es at h
  induction es with
  | nil => simp
  | cons e' es ih =>
    obtain ⟨hlt, hes⟩ := List.pairwise_cons.1 h
    by_cases hs : e'.slot = slot
    · simp only [List.find?_cons, hs, beq_self_eq_true, Option.some.injEq, List.mem_cons]
      constructor
      · rintro rfl
        exact ⟨.inl rfl, hs⟩
      · rintro ⟨rfl | he, hslot⟩
        · rfl
        · have := hlt e he
          omega
    · have hb : (e'.slot == slot) = false := by simpa using hs
      simp only [List.find?_cons, hb, ih hes, List.mem_cons]
      constructor
      · exact fun ⟨he, hslot⟩ => ⟨.inr he, hslot⟩
      · rintro ⟨rfl | he, hslot⟩
        · exact absurd hslot hs
        · exact ⟨he, hslot⟩

theorem exists_entryAt?_iff {t : Table} (h : t.entries.Pairwise (·.slot < ·.slot)) {key : Value}
    {slot : Nat} : (∃ row, t.entryAt? slot = some ⟨slot, key, row⟩) ↔
      ∃ e ∈ t.entries, e.key = key ∧ e.slot = slot := by
  constructor
  · rintro ⟨row, hrow⟩
    exact ⟨_, ((entryAt?_eq_some_iff h).1 hrow).1, rfl, rfl⟩
  · rintro ⟨e, he, rfl, rfl⟩
    exact ⟨e.row, (entryAt?_eq_some_iff h).2 ⟨he, rfl⟩⟩

namespace WellFormed

variable {t : Table}

theorem entryAt?_iff (h : t.WellFormed) {slot : Nat} {e : Entry} :
    t.entryAt? slot = some e ↔ e ∈ t.entries ∧ e.slot = slot :=
  entryAt?_eq_some_iff h.slots_ascend

theorem slot?_iff_mem (h : t.WellFormed) {key : Value} {slot : Nat} :
    t.slot? key = some slot ↔ ∃ e ∈ t.entries, e.key = key ∧ e.slot = slot := by
  rw [h.slot?_iff, exists_entryAt?_iff h.slots_ascend]

theorem slot?_of_mem (h : t.WellFormed) {e : Entry} (he : e ∈ t.entries) :
    t.slot? e.key = some e.slot :=
  h.slot?_iff_mem.2 ⟨e, he, rfl, rfl⟩

theorem eq_of_slot_eq (h : t.WellFormed) {e e' : Entry} (he : e ∈ t.entries) (he' : e' ∈ t.entries)
    (hs : e.slot = e'.slot) : e = e' := by
  have h₁ := h.entryAt?_iff.2 ⟨he, hs⟩
  have h₂ := h.entryAt?_iff.2 ⟨he', rfl⟩
  exact Option.some.inj (h₁.symm.trans h₂)

theorem eq_of_key_eq (h : t.WellFormed) {e e' : Entry} (he : e ∈ t.entries) (he' : e' ∈ t.entries)
    (hk : e.key = e'.key) : e = e' := by
  have h₁ := h.slot?_of_mem he
  rw [hk, h.slot?_of_mem he'] at h₁
  exact h.eq_of_slot_eq he he' (Option.some.inj h₁).symm

theorem slot_ne_of_key_ne (h : t.WellFormed) {e e' : Entry} (he : e ∈ t.entries)
    (he' : e' ∈ t.entries) (hk : e.key ≠ e'.key) : e.slot ≠ e'.slot :=
  fun hs => hk (congrArg Entry.key (h.eq_of_slot_eq he he' hs))

theorem eq_keyColumn (h : t.WellFormed) {c : Column} (hc : c ∈ t.columns)
    (named : c.name = t.keyName) : c = t.keyColumn := by
  unfold keyColumn column?
  cases hfind : t.columns.find? (·.name == t.keyName) with
  | none => exact absurd named (by simpa using List.find?_eq_none.1 hfind c hc)
  | some d =>
    have hd : d.name = t.keyName := by simpa using List.find?_some hfind
    exact List.inj_on_of_nodup_map h.names_nodup hc (List.mem_of_find?_eq_some hfind)
      (named.trans hd.symm)

theorem keyColumn_mem (h : t.WellFormed) :
    t.keyColumn ∈ t.columns ∧ t.keyColumn.name = t.keyName := by
  obtain ⟨c, hc, hn⟩ := List.mem_map.1 h.key_named
  obtain rfl := h.eq_keyColumn hc hn
  exact ⟨hc, hn⟩

/-- What has to be known of the entries one by one. That keys differ follows, as the index leads
from a key to one slot only. -/
theorem of_mem (names_nodup : (t.columns.map (·.name)).Nodup)
    (key_named : t.keyName ∈ t.columns.map (·.name))
    (slots_ascend : t.entries.Pairwise (·.slot < ·.slot))
    (slot_lt : ∀ e ∈ t.entries, e.slot < t.nextSlot)
    (slot?_iff : ∀ key slot, t.slot? key = some slot ↔
      ∃ e ∈ t.entries, e.key = key ∧ e.slot = slot)
    (columns : ∀ e ∈ t.entries, Column.equalLists e.row.columns t.columns = true)
    (key_cell : ∀ e ∈ t.entries, e.row.get? t.keyName = some e.key)
    (key_taken : ∀ e ∈ t.entries, e.key ∈ t.taken) : t.WellFormed where
  names_nodup := names_nodup
  key_named := key_named
  slots_ascend := slots_ascend
  slot_lt := slot_lt
  slot?_iff key slot := by rw [slot?_iff, exists_entryAt?_iff slots_ascend]
  keys_nodup := by
    rw [List.Nodup, List.pairwise_map]
    -- two entries under one key would be two slots to which the index leads
    refine slots_ascend.imp_of_mem ?_
    intro e e' he he' hlt hk
    have h₁ := (slot?_iff e.key e.slot).2 ⟨e, he, rfl, rfl⟩
    have h₂ := (slot?_iff e.key e'.slot).2 ⟨e', he', hk.symm, rfl⟩
    rw [h₁, Option.some.injEq] at h₂
    omega
  columns := columns
  width e he := by
    have hn := congrArg List.length (Column.names_of_equalLists (columns e he))
    rw [e.row.length_cells]
    simpa using hn
  key_cell := key_cell
  key_taken := key_taken

end WellFormed

theorem WellFormed.with_name_cursor {t : Table} (h : t.WellFormed) (name : String)
    (cursor : Int64) : ({ t with name, cursor } : Table).WellFormed :=
  ⟨h.names_nodup, h.key_named, h.slots_ascend, h.slot_lt, h.slot?_iff, h.keys_nodup, h.columns,
    h.width, h.key_cell, h.key_taken⟩

theorem slot?_append (t : Table) (key k : Value) (row : Row) :
    (t.append key row).slot? k = if k = key then some t.nextSlot else t.slot? k := by
  by_cases hk : k = key
  · subst hk
    simp [slot?, append]
  · have hb : (k == key) = false := by simpa using hk
    simp [slot?, append, List.lookup_cons, hb, hk]

theorem forall_mem_entries_append {t : Table} {key : Value} {row : Row} {P : Entry → Prop} :
    (∀ e ∈ (t.append key row).entries, P e) ↔
      (∀ e ∈ t.entries, P e) ∧ P ⟨t.nextSlot, key, row⟩ := by
  simp [append, or_imp, forall_and]

theorem slot?_append_iff {t : Table} (h : t.WellFormed) {key : Value} {row : Row}
    (free : t.slot? key = none) (k : Value) (slot : Nat) :
    (t.append key row).slot? k = some slot ↔
      ∃ e ∈ (t.append key row).entries, e.key = k ∧ e.slot = slot := by
  have hmem : (∃ e ∈ (t.append key row).entries, e.key = k ∧ e.slot = slot) ↔
      (∃ e ∈ t.entries, e.key = k ∧ e.slot = slot) ∨ key = k ∧ t.nextSlot = slot := by
    simp [append, or_and_right, exists_or]
  rw [slot?_append, hmem, ← h.slot?_iff_mem]
  by_cases hk : k = key
  · subst hk
    simp [free]
  · simp [hk, Ne.symm hk]

theorem WellFormed.append {t : Table} (h : t.WellFormed) {key : Value} {row : Row}
    (free : t.slot? key = none) (columns : Column.equalLists row.columns t.columns = true)
    (key_cell : row.get? t.keyName = some key) : (t.append key row).WellFormed := by
  refine .of_mem h.names_nodup h.key_named ?_ ?_ (slot?_append_iff h free) ?_ ?_ ?_
  · refine List.pairwise_append.2 ⟨h.slots_ascend, List.pairwise_singleton _ _, ?_⟩
    intro e he e' he'
    rw [List.mem_singleton.1 he']
    exact h.slot_lt e he
  · have hlt : ∀ e ∈ t.entries, e.slot < t.nextSlot + 1 :=
      fun e he => Nat.lt_succ_of_lt (h.slot_lt e he)
    exact forall_mem_entries_append.2 ⟨hlt, Nat.lt_succ_self _⟩
  · exact forall_mem_entries_append.2 ⟨h.columns, columns⟩
  · exact forall_mem_entries_append.2 ⟨h.key_cell, key_cell⟩
  · have hold : ∀ e ∈ t.entries, e.key ∈ key :: t.taken :=
      fun e he => List.mem_cons_of_mem _ (h.key_taken e he)
    exact forall_mem_entries_append.2 ⟨hold, List.mem_cons_self⟩

/-- An update touches one row, whose columns and key cell stay as they were. -/
theorem WellFormed.replaceRow {t : Table} (h : t.WellFormed) {e : Entry} (he : e ∈ t.entries)
    {row : Row} (columns : row.columns = e.row.columns)
    (key_cell : row.get? t.keyName = e.row.get? t.keyName) :
    (t.replaceRow e.slot row).WellFormed := by
  have entry : ∀ {P : Row → Value → Prop}, (∀ e ∈ t.entries, P e.row e.key) → P row e.key →
      ∀ e' ∈ (t.replaceRow e.slot row).entries, P e'.row e'.key := by
    intro P hold hnew
    refine List.forall_mem_map.2 fun e' he' => ?_
    by_cases hs : e'.slot = e.slot
    · rw [Entry.withRow_of_slot_eq hs, h.eq_of_slot_eq he' he hs]
      exact hnew
    · rw [Entry.withRow_of_slot_ne hs]
      exact hold e' he'
  refine .of_mem h.names_nodup h.key_named ?_ ?_ ?_ ?_ ?_ ?_
  · simpa [Table.replaceRow, List.pairwise_map] using h.slots_ascend
  · simpa [Table.replaceRow] using h.slot_lt
  · intro k slot
    have hs : (t.replaceRow e.slot row).slot? k = t.slot? k := rfl
    rw [hs, h.slot?_iff_mem]
    simp [Table.replaceRow]
  · exact entry (P := fun row _ => Column.equalLists row.columns t.columns = true) h.columns
      (by rw [columns]; exact h.columns e he)
  · exact entry (P := fun row key => row.get? t.keyName = some key) h.key_cell
      (by rw [key_cell]; exact h.key_cell e he)
  · simpa [Table.replaceRow] using h.key_taken

theorem slot?_removeEntry (t : Table) (e : Entry) (k : Value) :
    (t.removeEntry e).slot? k = if k = e.key then none else t.slot? k := by
  unfold slot? removeEntry
  rw [lookup_filter_key (· != e.key)]
  by_cases hk : k = e.key <;> simp [hk]

/-- No other entry has the slot or the key of the one removed. -/
theorem WellFormed.removeEntry {t : Table} (h : t.WellFormed) {e : Entry} (he : e ∈ t.entries) :
    (t.removeEntry e).WellFormed := by
  have hsub : (t.removeEntry e).entries ⊆ t.entries := List.filter_subset_self _
  refine .of_mem h.names_nodup h.key_named (h.slots_ascend.filter _)
    (fun e' he' => h.slot_lt e' (hsub he')) ?_ (fun e' he' => h.columns e' (hsub he'))
    (fun e' he' => h.key_cell e' (hsub he')) (fun e' he' => h.key_taken e' (hsub he'))
  intro k slot
  rw [slot?_removeEntry]
  by_cases hk : k = e.key
  · have hnone : ∀ e' ∈ (t.removeEntry e).entries, e'.key ≠ k := by
      intro e' he' hk'
      have := h.eq_of_key_eq (hsub he') he (hk'.trans hk)
      simp [Table.removeEntry, this] at he'
    simp only [hk, if_true, reduceCtorEq, false_iff]
    rintro ⟨e', he', hk', -⟩
    exact hnone e' he' (hk'.trans hk.symm)
  · rw [if_neg hk, h.slot?_iff_mem]
    constructor
    · rintro ⟨e', he', rfl, rfl⟩
      have hs := h.slot_ne_of_key_ne he' he hk
      exact ⟨e', List.mem_filter.2 ⟨he', by simpa using hs⟩, rfl, rfl⟩
    · rintro ⟨e', he', hk', hs⟩
      exact ⟨e', hsub he', hk', hs⟩

theorem WellFormed.of_empty {t : Table} (names_nodup : (t.columns.map (·.name)).Nodup)
    (key_named : t.keyName ∈ t.columns.map (·.name)) (entries : t.entries = [])
    (index : t.index = []) : t.WellFormed := by
  refine .of_mem names_nodup key_named ?_ ?_ ?_ ?_ ?_ ?_ <;> simp [entries, slot?, index]

theorem wellFormed_of_create {name : String} {columns : List Column} {key : Option String}
    {settings : Settings} {t : Table} (h : create name columns key settings = .ok t) :
    t.WellFormed := by
  obtain ⟨hnodup, ⟨k, -, hkey, rfl⟩ | ⟨-, hkey, rfl⟩⟩ := create_cases h
  · exact .of_empty hnodup hkey rfl rfl
  · refine .of_empty ?_ (by simp [Column.generatedKey]) rfl rfl
    simpa [Column.generatedKey, hnodup] using hkey

theorem field_ne_of_change {t : Table} {field : String} {raw : Raw} {c : String × Value}
    (h : t.change field raw = .ok c) : c.1 ≠ t.keyName := by
  unfold change at h
  split at h
  · cases h
  · split at h
    · cases h
    · rename_i hne
      obtain ⟨v, -, rfl⟩ := Except.map_eq_ok_iff.1 h
      exact hne

theorem get?_keyName_of_changes {t : Table} {updates : List (String × Raw)}
    {changes : List (String × Value)} (h : t.changes updates = .ok changes) {r s : Row}
    (set : r.setAll changes = .ok s) : s.get? t.keyName = r.get? t.keyName := by
  refine Row.get?_of_setAll set fun c hc => ?_
  obtain ⟨u, -, hu⟩ := Except.exists_of_mem_mapM h hc
  exact field_ne_of_change hu

theorem wellFormed_invariant : Invariant WellFormed where
  insertRow {t} row key h := by
    rcases t.insertRow_cases row key with ⟨e, he⟩ | ⟨k, c, -, hs, hcols, hset⟩
    · rwa [he]
    · have hc := h.with_name_cursor t.name c
      rcases hset with ⟨e, -, he⟩ | ⟨r, hset, he⟩
      · rwa [he]
      · rw [he]
        refine hc.append hs.slot?_eq_none ?_ (Row.get?_of_set hset)
        rwa [Row.columns_of_set hset]
  updateRow {t} key updates h := by
    rcases t.updateRow_cases key updates with
      ⟨e, he⟩ | ⟨slot, e, changes, r, -, he, hm, -, hset, ho⟩
    · rwa [he]
    · rw [ho]
      obtain ⟨hmem, rfl⟩ := h.entryAt?_iff.1 he
      exact h.replaceRow hmem (Row.columns_of_setAll hset) (get?_keyName_of_changes hm hset)
  deleteRow {t} key h := by
    rcases t.deleteRow_cases key with ⟨ho, -⟩ | ⟨slot, e, -, he, ho⟩
    · rwa [ho]
    · rw [ho]
      exact h.removeEntry (h.entryAt?_iff.1 he).1
  rename {t} name h := by
    unfold Table.rename
    split
    · exact h
    · exact h.with_name_cursor name t.cursor
  issueKey {t} h := by
    unfold Table.issueKey
    split
    · exact h.with_name_cursor t.name _
    · exact h

theorem WellFormed.run {t : Table} (h : t.WellFormed) (ops : List Operation) :
    (t.run ops).WellFormed := by
  induction ops generalizing t with
  | nil => exact h
  | cons op ops ih => exact ih (wellFormed_invariant.after h op)

theorem Reachable.wellFormed {t : Table} (h : t.Reachable) : t.WellFormed :=
  wellFormed_invariant.reachable wellFormed_of_create h

/-- Whatever is done to a table, with or without success, its rows, index, taken keys and key cells
keep agreeing with each other. -/
theorem wellFormed_run {t : Table} (h : t.Built) (ops : List Operation) :
    (t.run ops).WellFormed :=
  ((Reachable.built h).run ops).wellFormed

def notes : Table where
  name := "notes"
  columns := [.generatedKey "rowid", { name := "text", affinity := .text }]
  keyName := "rowid"
  implicitKey := true
  settings := {}
  cursor := 1

def editNotes : List Operation :=
  [.insert [("text", .text "milk")], .insert [("text", .text "bread")], .deleteRow (.int 1),
    .updateRow (.int 2) [("text", .text "rye")], .insert [("text", .int 7)], .issueKey,
    .insert [("text", .text "salt")]]

theorem notes_built : notes.Built :=
  @Built.create "notes" [{ name := "text", affinity := .text }] none {} notes (by decide)

theorem wellFormed_run_notes :
    (notes.run editNotes).toList.map (·.1) = [.integer 2, .integer 4] ∧
      (notes.run editNotes).WellFormed :=
  ⟨by decide, wellFormed_run notes_built editNotes⟩

end Tabular.Table
