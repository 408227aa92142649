import Tabular.Table.Change
import Tabular.Proofs.Except
import Mathlib.Data.List.Nodup

/-!
What each operation on a table does, in the cases that it distinguishes. Proofs about runs go by
these cases and do not open the operations.
-/
namespace Tabular.Table

theorem repeated?_eq_none_iff {seen : List String} {cs : List Column} :
    repeated? seen cs = none ↔
      (cs.map (·.name)).Nodup ∧ ∀ name ∈ cs.map (·.name), name ∉ seen := by
  induction cs generalizing seen with
  | nil => simp [repeated?]
  | cons c cs ih =>
    by_cases hc : c.name ∈ seen
    · simp [repeated?, hc]
    · simp only [repeated?, List.contains_iff_mem, hc, if_false, ih, List.map_cons, List.nodup_cons,
        List.mem_cons, forall_eq_or_imp, not_or, not_false_eq_true, true_and]
      constructor
      · rintro ⟨hnodup, hnew⟩
        exact ⟨⟨fun hm => (hnew _ hm).1 rfl, hnodup⟩, fun name hm => (hnew name hm).2⟩
      · rintro ⟨⟨hnew, hnodup⟩, hseen⟩
        exact ⟨hnodup, fun name hm => ⟨fun he => hnew (he ▸ hm), hseen name hm⟩⟩

theorem create_cases {name : String} {columns : List Column} {key : Option String}
    {settings : Settings} {t : Table} (h : create name columns key settings = .ok t) :
    (columns.map (·.name)).Nodup ∧
      ((∃ k, key = some k ∧ k ∈ columns.map (·.name) ∧
          t = { name, columns, keyName := k, implicitKey := false, settings,
                cursor := settings.firstKey }) ∨
        (key = none ∧ settings.keyName ∉ columns.map (·.name) ∧
          t = { name, columns := .generatedKey settings.keyName :: columns,
                keyName := settings.keyName, implicitKey := true, settings,
                cursor := settings.firstKey })) := by
  unfold create at h
  split at h
  · cases h
  split at h
  · cases h
  split at h
  · cases h
  rename_i hrep
  refine ⟨(repeated?_eq_none_iff.1 hrep).1, ?_⟩
  cases key with
  | some k =>
    dsimp only at h
    split at h
    · rename_i hkey
      exact .inl ⟨k, rfl, by simpa [List.any_eq_true] using hkey, (Except.ok.inj h).symm⟩
    · cases h
  | none =>
    dsimp only at h
    split at h
    · cases h
    · rename_i hkey
      exact .inr ⟨rfl, by simpa [List.any_eq_true] using hkey, (Except.ok.inj h).symm⟩

theorem entries_of_create {name : String} {columns : List Column} {key : Option String}
    {settings : Settings} {t : Table} (h : create name columns key settings = .ok t) :
    t.entries = [] := by
  obtain ⟨-, ⟨k, -, -, rfl⟩ | ⟨-, -, rfl⟩⟩ := create_cases h <;> rfl

theorem ofRows_cases {name : String} {columns : List Column} {key : Option String}
    {rows : List Row} {t : Table} (h : ofRows name columns key rows = .ok t) :
    ∃ t₀, create name columns key {} = .ok t₀ ∧ t = (t₀.insertRows rows).2 := by
  obtain ⟨t₀, h₀, h⟩ := Except.bind_eq_ok_iff.1 h
  refine ⟨t₀, h₀, ?_⟩
  split at h
  · cases h
  · rename_i heq
    rw [heq, Except.ok.inj h]

/-- The key and the cursor that an insertion settles on: a chosen key as its column stores it, or
else a generated one. -/
inductive Settles (t : Table) (row : Row) (key : Option Raw) : Value → Int64 → Prop
  | chosen {raw : Raw} {k : Value} (chosen : t.chosenKey? row key = some raw)
      (stored : t.keyColumn.resolve raw true = .ok k) (free : t.isTaken k = false) :
      Settles t row key k (cursorAfter t.cursor k)
  | generated {n : Int64} (chosen : t.chosenKey? row key = none) (generates : t.generatesKeys)
      (free : t.freeKey? = some n) : Settles t row key (.integer n) (nextWord n)

theorem settleKey_cases (t : Table) (row : Row) (key : Option Raw) :
    (∃ e, t.settleKey row key = (.error e, t)) ∨
      ∃ k c, t.Settles row key k c ∧ t.settleKey row key = (.ok k, { t with cursor := c }) := by
  unfold settleKey
  split
  · rename_i raw hraw
    unfold acceptKey
    split
    · exact .inl ⟨_, rfl⟩
    · rename_i k hk
      cases hfree : t.isTaken k with
      | true => exact .inl ⟨_, rfl⟩
      | false => exact .inr ⟨k, _, .chosen hraw hk hfree, rfl⟩
  · rename_i hraw
    split
    · rename_i hgen
      unfold issueKey
      split
      · rename_i n hn
        exact .inr ⟨_, _, .generated hraw hgen hn, rfl⟩
      · exact .inl ⟨_, rfl⟩
    · exact .inl ⟨_, rfl⟩

theorem isFree_of_freeKey? {t : Table} {n : Int64} (h : t.freeKey? = some n) :
    t.isFree (.integer n) = true := by
  obtain ⟨m, -, hm⟩ := List.exists_of_findSome?_eq_some h
  split at hm
  · split at hm
    · rename_i hfree
      cases hm
      exact hfree
    · cases hm
  · cases hm

theorem Settles.slot?_eq_none {t : Table} {row : Row} {key : Option Raw} {k : Value} {c : Int64}
    (h : t.Settles row key k c) : t.slot? k = none := by
  cases h with
  | chosen _ _ free =>
    simp only [isTaken, Bool.or_eq_false_iff, Option.isSome_eq_false_iff,
      Option.isNone_iff_eq_none] at free
    exact free.1
  | generated _ _ free =>
    have h := isFree_of_freeKey? free
    simp only [isFree, Bool.and_eq_true, Option.isNone_iff_eq_none] at h
    exact h.2

@[simp] theorem chosenKey?_some (t : Table) (row : Row) (raw : Raw) :
    t.chosenKey? row (some raw) = some raw := rfl

theorem chosenKey?_none_eq_some_iff {t : Table} {row : Row} {raw : Raw} :
    t.chosenKey? row none = some raw ↔
      ∃ v, row.get? t.keyName = some v ∧ v.isNull = false ∧ v.toRaw = raw := by
  simp only [chosenKey?, Option.none_or, Option.bind_eq_some_iff]
  refine exists_congr fun v => and_congr_right fun _ => ?_
  cases v.isNull <;> simp

theorem isNull_of_chosenKey? {t : Table} {row : Row} {key : Option Raw} {raw : Raw}
    (present : key.any Raw.isNull = false) (h : t.chosenKey? row key = some raw) :
    raw.isNull = false := by
  cases key with
  | some raw' =>
    obtain rfl : raw' = raw := by simpa using h
    simpa using present
  | none =>
    obtain ⟨v, -, hnull, rfl⟩ := chosenKey?_none_eq_some_iff.1 h
    rw [Value.isNull_toRaw, hnull]

/-- An insertion fails and changes nothing, or only the cursor if the key has no column; or it adds
the row under the key on which it settles. -/
theorem insertRow_cases (t : Table) (row : Row) (key : Option Raw) :
    (∃ e, t.insertRow row key = (.error e, t)) ∨
      ∃ k c, key.any Raw.isNull = false ∧ t.Settles row key k c ∧
        Column.equalLists row.columns t.columns = true ∧
        ((∃ e, row.set t.keyName k = .error e ∧
            t.insertRow row key = (.error e, { t with cursor := c })) ∨
          ∃ r, row.set t.keyName k = .ok r ∧
            t.insertRow row key = (.ok k, ({ t with cursor := c } : Table).append k r)) := by
  unfold insertRow
  cases hcols : Column.equalLists row.columns t.columns with
  | false => exact .inl ⟨_, rfl⟩
  | true =>
    cases hnull : key.any Raw.isNull with
    | true => exact .inl ⟨_, rfl⟩
    | false =>
      rcases t.settleKey_cases row key with ⟨e, he⟩ | ⟨k, c, hs, he⟩
      · exact .inl ⟨e, by simp [he]⟩
      · refine .inr ⟨k, c, rfl, hs, rfl, ?_⟩
        cases hset : row.set t.keyName k with
        | error e => exact .inl ⟨e, rfl, by simp [he, hset]⟩
        | ok r => exact .inr ⟨r, rfl, by simp [he, hset]⟩

theorem insert_cases (t : Table) (data : List (String × Raw)) :
    (∃ e, t.row data = .error e ∧ t.insert data = (.error e, t)) ∨
      ∃ row, t.row data = .ok row ∧ t.insert data = t.insertRow row none := by
  unfold insert
  cases t.row data with
  | error e => exact .inl ⟨e, rfl, rfl⟩
  | ok row => exact .inr ⟨row, rfl, rfl⟩

theorem mem_names_of_change {t : Table} {field : String} {raw : Raw} {c : String × Value}
    (h : t.change field raw = .ok c) : c.1 ∈ t.columns.map (·.name) := by
  unfold change at h
  split at h
  · cases h
  · rename_i column hcolumn
    split at h
    · cases h
    · obtain ⟨v, -, rfl⟩ := Except.map_eq_ok_iff.1 h
      have hname := List.find?_some hcolumn
      exact List.mem_map.2 ⟨column, List.mem_of_find?_eq_some hcolumn, by simpa using hname⟩

theorem exists_setAll_of_changes {t : Table} {updates : List (String × Raw)}
    {changes : List (String × Value)} (h : t.changes updates = .ok changes) {row : Row}
    (columns : Column.equalLists row.columns t.columns = true) :
    ∃ r, row.setAll changes = .ok r := by
  refine Row.exists_setAll_eq_ok fun c hc => ?_
  obtain ⟨u, -, hu⟩ := Except.exists_of_mem_mapM h hc
  rw [Column.names_of_equalLists columns]
  exact mem_names_of_change hu

/-- An update fails and changes nothing, or replaces the row that is found by one with all changes
made. -/
theorem updateRow_cases (t : Table) (key : Raw) (updates : List (String × Raw)) :
    (∃ e, t.updateRow key updates = (.error e, t)) ∨
      ∃ slot e changes r, t.find? key = some slot ∧ t.entryAt? slot = some e ∧
        t.changes updates = .ok changes ∧ Column.equalLists e.row.columns t.columns = true ∧
        e.row.setAll changes = .ok r ∧ t.updateRow key updates = (.ok (), t.replaceRow slot r) := by
  unfold updateRow
  split
  · exact .inl ⟨_, rfl⟩
  · rename_i slot hslot
    split
    · exact .inl ⟨_, rfl⟩
    · rename_i changes hchanges
      split
      · exact .inl ⟨_, rfl⟩
      · rename_i e he
        cases hcols : Column.equalLists e.row.columns t.columns with
        | false => exact .inl ⟨_, rfl⟩
        | true =>
          obtain ⟨r, hset⟩ := exists_setAll_of_changes hchanges hcols
          refine .inr ⟨slot, e, changes, r, hslot, he, hchanges, hcols, hset, ?_⟩
          simp [Row.setEach_of_setAll hset]

theorem deleteRow_cases (t : Table) (key : Raw) :
    (t.deleteRow key = (.error (.rowNotFound t.name key), t) ∧
        (t.find? key).bind t.entryAt? = none) ∨
      ∃ slot e, t.find? key = some slot ∧ t.entryAt? slot = some e ∧
        t.deleteRow key = (.ok e.row, t.removeEntry e) := by
  unfold deleteRow
  cases h : (t.find? key).bind t.entryAt? with
  | none => exact .inl ⟨rfl, rfl⟩
  | some e =>
    obtain ⟨slot, hslot, he⟩ := Option.bind_eq_some_iff.1 h
    exact .inr ⟨slot, e, hslot, he, rfl⟩

end Tabular.Table
