import Tabular.Proofs.Query.Order
import Tabular.Proofs.Query.Select
import Tabular.Query.Build
import Mathlib

/-!
Rows under the names of their columns. Names label columns and need not differ, since a label can
be chosen freely and an expression is named as it is written. A record has every name once: where
columns share one, it keeps the value of the last.
-/
namespace Tabular

def Json.field? (key : String) : Json → Option Json
  | .object fields => fields.lookup (some key)
  | _ => none

namespace Answer

/-- The last of the columns that have a name. -/
structure LastOf (names : List String) (name : String) (k : Nat) : Prop where
  named : names[k]? = some name
  last : ∀ j, names[j]? = some name → j ≤ k

variable {α : Type} {names : List String} {name other : String} {v w : α}

theorem not_lastOf_nil {k : Nat} : ¬ LastOf [] name k := fun h => nomatch h.named

theorem lastOf_cons_succ {k : Nat} :
    LastOf (other :: names) name (k + 1) ↔ LastOf names name k := by
  constructor
  · rintro ⟨hnamed, hlast⟩
    exact ⟨hnamed, fun j hj => Nat.le_of_succ_le_succ (hlast (j + 1) hj)⟩
  · rintro ⟨hnamed, hlast⟩
    refine ⟨hnamed, fun j hj => ?_⟩
    cases j with
    | zero => exact Nat.zero_le _
    | succ j => exact Nat.succ_le_succ (hlast j hj)

theorem lastOf_cons_zero : LastOf (other :: names) name 0 ↔ other = name ∧ name ∉ names := by
  constructor
  · rintro ⟨hnamed, hlast⟩
    refine ⟨Option.some.inj hnamed, fun hmem => ?_⟩
    obtain ⟨j, hj⟩ := List.mem_iff_getElem?.1 hmem
    exact absurd (hlast (j + 1) hj) (Nat.not_succ_le_zero j)
  · rintro ⟨rfl, hmem⟩
    refine ⟨rfl, fun j hj => ?_⟩
    cases j with
    | zero => exact Nat.le_refl 0
    | succ j => exact absurd (List.mem_of_getElem? (l := names) hj) hmem

theorem exists_lastOf (h : name ∈ names) : ∃ k, LastOf names name k := by
  induction names with
  | nil => cases h
  | cons other names ih =>
    by_cases hlater : name ∈ names
    · obtain ⟨k, hk⟩ := ih hlater
      exact ⟨k + 1, lastOf_cons_succ.2 hk⟩
    · exact ⟨0, lastOf_cons_zero.2 ⟨((List.mem_cons.1 h).resolve_right hlater).symm, hlater⟩⟩

theorem lookup_cons_eq_ite (done : List (String × α)) :
    ((name, v) :: done).lookup other = if other = name then some v else done.lookup other := by
  by_cases h : other = name
  · simp [h]
  · have hb : (other == name) = false := beq_eq_false_iff_ne.2 h
    simp [List.lookup_cons, h, hb]

theorem lookup_setName (done : List (String × α)) :
    (setName name v done).lookup other = if other = name then some v else done.lookup other := by
  induction done with
  | nil => exact lookup_cons_eq_ite []
  | cons p rest ih =>
    obtain ⟨first, w⟩ := p
    unfold setName
    split
    · rename_i heq
      subst heq
      by_cases h : other = name <;> simp [lookup_cons_eq_ite, h]
    split
    · simp only [lookup_cons_eq_ite]
    · rename_i hne _
      rw [lookup_cons_eq_ite, lookup_cons_eq_ite, ih]
      by_cases hfirst : other = first
      · subst hfirst
        simp [Ne.symm hne]
      · simp [hfirst]

/-- Setting columns one after the other leaves the last of each name in place. -/
theorem lookup_foldl_setName {row : List α} (h : row.length = names.length)
    (done : List (String × α)) :
    ((names.zip row).foldl (fun done p => setName p.1 p.2 done) done).lookup name = some v ↔
      (∃ k, LastOf names name k ∧ row[k]? = some v) ∨ name ∉ names ∧ done.lookup name = some v := by
  induction names generalizing row done with
  | nil => simp [not_lastOf_nil]
  | cons first names ih =>
    obtain ⟨w, rest, rfl⟩ := List.exists_cons_of_length_eq_add_one h
    have hsplit : (∃ k, LastOf (first :: names) name k ∧ (w :: rest)[k]? = some v) ↔
        ((first = name ∧ name ∉ names) ∧ w = v) ∨ ∃ k, LastOf names name k ∧ rest[k]? = some v := by
      constructor
      · rintro ⟨k, hk, hv⟩
        cases k with
        | zero => exact .inl ⟨lastOf_cons_zero.1 hk, Option.some.inj hv⟩
        | succ k => exact .inr ⟨k, lastOf_cons_succ.1 hk, hv⟩
      · rintro (⟨hk, rfl⟩ | ⟨k, hk, hv⟩)
        · exact ⟨0, lastOf_cons_zero.2 hk, rfl⟩
        · exact ⟨k + 1, lastOf_cons_succ.2 hk, hv⟩
    rw [List.zip_cons_cons, List.foldl_cons, ih (Nat.succ.inj h), lookup_setName, hsplit]
    by_cases hfirst : name = first
    · subst hfirst
      simpa using or_comm
    · simp [hfirst, Ne.symm hfirst]

/-- A record holds the last value of every name. -/
theorem lookup_byName_iff {row : List α} (h : row.length = names.length) :
    (byName (names.zip row)).lookup name = some v ↔
      ∃ k, LastOf names name k ∧ row[k]? = some v := by
  refine (lookup_foldl_setName h []).trans ?_
  simp

theorem mem_setName {done : List (String × α)} {p : String × α} (h : p ∈ setName name v done) :
    p.1 = name ∨ p ∈ done := by
  induction done with
  | nil => exact .inl (congrArg Prod.fst (List.mem_singleton.1 h))
  | cons q rest ih =>
    unfold setName at h
    split at h
    · rcases List.mem_cons.1 h with rfl | hrest
      · exact .inl rfl
      · exact .inr (List.mem_cons_of_mem _ hrest)
    split at h
    · rcases List.mem_cons.1 h with rfl | hdone
      · exact .inl rfl
      · exact .inr hdone
    · rcases List.mem_cons.1 h with rfl | hrest
      · exact .inr List.mem_cons_self
      · exact (ih hrest).imp_right (List.mem_cons_of_mem _)

def Ascending (pairs : List (String × α)) : Prop := pairs.Pairwise (·.1 < ·.1)

theorem Ascending.setName {done : List (String × α)} (h : Ascending done) :
    Ascending (setName name v done) := by
  induction done with
  | nil => exact List.pairwise_singleton _ _
  | cons p rest ih =>
    obtain ⟨hfirst, hrest⟩ := List.pairwise_cons.1 h
    unfold Answer.setName
    split
    · rename_i heq
      exact List.pairwise_cons.2 ⟨fun q hq => heq ▸ hfirst q hq, hrest⟩
    split
    · rename_i hlt
      refine List.pairwise_cons.2 ⟨List.forall_mem_cons.2 ⟨hlt, fun q hq => ?_⟩, h⟩
      exact lt_trans hlt (hfirst q hq)
    · rename_i hne hle
      refine List.pairwise_cons.2 ⟨fun q hq => ?_, ih hrest⟩
      rcases mem_setName hq with heq | hq
      · exact heq ▸ lt_of_le_of_ne (not_lt.1 hle) (Ne.symm hne)
      · exact hfirst q hq

theorem ascending_byName (pairs : List (String × α)) : Ascending (byName pairs) := by
  suffices h : ∀ done, Ascending done →
      Ascending (pairs.foldl (fun done p => setName p.1 p.2 done) done) from h [] List.Pairwise.nil
  intro done hdone
  induction pairs generalizing done with
  | nil => exact hdone
  | cons p pairs ih => exact ih _ hdone.setName

theorem field?_recordJson (record : List (String × Value)) (name : String) :
    (recordJson record).field? name = (record.lookup name).map Value.toJson := by
  unfold recordJson Json.record Json.field?
  induction record with
  | nil => rfl
  | cons p record ih =>
    obtain ⟨first, v⟩ := p
    simp only [List.map_cons, List.lookup_cons] at ih ⊢
    by_cases h : name = first
    · simp [h]
    · have hb : (name == first) = false := beq_eq_false_iff_ne.2 h
      have hb' : (some name == some first) = false := beq_eq_false_iff_ne.2 (by simpa using h)
      rw [hb, hb', ih]

theorem length_of_mem_ofColumns {n : Nat} {columns : List (String × List Value)}
    {names : List String} {rows : List (List Value)} (h : ofColumns n columns = .rows names rows) :
    ∀ row ∈ rows, row.length = names.length := by
  cases h
  intro row hrow
  obtain ⟨i, -, rfl⟩ := List.mem_map.1 hrow
  simp

end Answer

theorem Selection.exists_ofColumns {db : Database} {t : Table} {places : List Nat} {s : Selection}
    {names : List String} {rows : List (List Value)}
    (h : s.project db t places = .ok (.rows names rows)) :
    ∃ n columns, Answer.ofColumns n columns = .rows names rows := by
  cases s with
  | star =>
    simp only [Selection.project, Except.bind_eq_ok_iff, Except.pure_eq_ok_iff] at h
    obtain ⟨columns, -, h⟩ := h
    exact ⟨_, columns, h⟩
  | columns ps =>
    simp only [Selection.project, Except.bind_eq_ok_iff, Except.pure_eq_ok_iff] at h
    obtain ⟨columns, -, h⟩ := h
    exact ⟨_, columns, h⟩
  | aggregates as =>
    simp only [Selection.project, Except.bind_eq_ok_iff, Except.pure_eq_ok_iff] at h
    obtain ⟨values, -, h⟩ := h
    cases h

namespace Plan

open Answer (LastOf Ascending)

/-- Rows leave a result as records and as objects, one for each row. Under the name of a column
these hold what the last column of this name has in the row, and that is the value of the column
itself unless a column of the same name follows it. -/
theorem records_of_run {db : Database} {p : Plan} {names : List String} {rows : List (List Value)}
    (h : p.run db = .ok (.rows names rows)) :
    (Answer.rows names rows).records.length = rows.length ∧
    ∃ objects, (Answer.rows names rows).toJson = .array objects ∧ objects.length = rows.length ∧
      ∀ (i : Nat) (row : List Value), rows[i]? = some row → ∃ record object,
        (Answer.rows names rows).records[i]? = some record ∧ objects[i]? = some object ∧
        Ascending record ∧
        ∀ (j : Nat) (name : String), names[j]? = some name → ∃ k v, LastOf names name k ∧ j ≤ k ∧
          row[k]? = some v ∧ record.lookup name = some v ∧
          object.field? name = some v.toJson := by
  obtain ⟨t, mask, sorted, -, -, -, hproject⟩ := run_eq_ok_iff.1 h
  obtain ⟨n, columns, hcolumns⟩ := Selection.exists_ofColumns hproject
  have hlength := Answer.length_of_mem_ofColumns hcolumns
  refine ⟨List.length_map _, _, rfl, by simp [Answer.records], fun i row hrow => ?_⟩
  have hrecord : (Answer.rows names rows).records[i]? = some (Answer.byName (names.zip row)) := by
    simp [Answer.records, hrow]
  refine ⟨_, _, hrecord, by rw [List.getElem?_map, hrecord]; rfl, Answer.ascending_byName _,
    fun j name hname => ?_⟩
  have hcells := hlength row (List.mem_of_getElem? hrow)
  obtain ⟨k, hk⟩ := Answer.exists_lastOf (List.mem_of_getElem? hname)
  obtain ⟨v, hv⟩ : ∃ v, row[k]? = some v := by
    have hlt := (List.getElem?_eq_some_iff.1 hk.named).1
    exact ⟨_, List.getElem?_eq_getElem (hcells ▸ hlt)⟩
  have hlookup := (Answer.lookup_byName_iff hcells).2 ⟨k, hk, hv⟩
  exact ⟨k, v, hk, hk.last j hname, hv, hlookup, by rw [Answer.field?_recordJson, hlookup]; rfl⟩

def raisedPoints : Plan where
  selection := .columns [.column "points",
    .computed ⟨.field ⟨"games", "points"⟩, .add, .literal (.int 1), some "points"⟩]
  table := "games"
  filter := .all
  order := none
  limit := none

theorem records_of_run_games :
    let rows : List (List Value) := [[.integer 3, .integer 4], [.null, .null],
      [.integer 7, .integer 8], [.integer 3, .integer 4]]
    let answer := Answer.rows ["points", "points"] rows
    raisedPoints.run scoreboard = .ok answer ∧ answer.records.length = 4 ∧
      ∃ objects, answer.toJson = .array objects ∧ objects.length = 4 ∧
        ∀ (i : Nat) (row : List Value), rows[i]? = some row → ∃ record object,
          answer.records[i]? = some record ∧ objects[i]? = some object ∧ Ascending record ∧
          ∀ (j : Nat) (name : String), ["points", "points"][j]? = some name → ∃ k v,
            LastOf ["points", "points"] name k ∧ j ≤ k ∧ row[k]? = some v ∧
            record.lookup name = some v ∧ object.field? name = some v.toJson := by
  intro rows answer
  have hrun : raisedPoints.run scoreboard = .ok answer := by decide
  exact ⟨hrun, records_of_run hrun⟩

/-- The points themselves are lost, though a selection may be made of both columns. -/
theorem not_records_keep_points :
    let names := ["points", "points"]
    let rows : List (List Value) := [[.integer 3, .integer 4], [.null, .null],
      [.integer 7, .integer 8], [.integer 3, .integer 4]]
    Selection.of [.column "points", .computed ⟨.field ⟨"games", "points"⟩, .add, .literal (.int 1),
        some "points"⟩] = .ok raisedPoints.selection ∧
      raisedPoints.run scoreboard = .ok (.rows names rows) ∧
      ¬ ∀ (i j : Nat) (row : List Value) (name : String) (v : Value), rows[i]? = some row →
        names[j]? = some name → row[j]? = some v → ∃ record,
          (Answer.rows names rows).records[i]? = some record ∧ record.lookup name = some v := by
  refine ⟨rfl, by decide, fun h => ?_⟩
  obtain ⟨record, hrecord, hlookup⟩ := h 0 0 _ "points" (.integer 3) rfl rfl rfl
  obtain rfl : [("points", .integer 4)] = record := Option.some.inj hrecord
  cases hlookup

end Plan
end Tabular
