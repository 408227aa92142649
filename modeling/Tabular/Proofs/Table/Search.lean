import Tabular.Proofs.Table.WellFormed
import Mathlib.Data.List.Perm.Subperm

/-!
The search for the next key to be generated. It goes from word to word, starting at the cursor, and
ends at the first that is free or behind the last word there is. A search among one candidate more
than there are keys has the same answer.
-/
namespace Tabular.Table

/-- The search from a candidate on, with the candidates that it passes over and its answer. -/
inductive Scans (t : Table) : Int64 → List Int64 → Option Int64 → Prop
  | found {n : Int64} (free : t.isFree (.integer n) = true) : Scans t n [] (some n)
  | pass {n next : Int64} {passed : List Int64} {answer : Option Int64}
      (used : t.isFree (.integer n) = false) (step : toWord? (n.toInt + 1) = some next)
      (rest : Scans t next passed answer) : Scans t n (n :: passed) answer
  | exhausted {n : Int64} (used : t.isFree (.integer n) = false)
      (last : toWord? (n.toInt + 1) = none) : Scans t n [] none

variable {t : Table}

/-- The search ends, as there are only so many words behind a candidate. -/
theorem exists_scans (t : Table) (n : Int64) : ∃ passed answer, t.Scans n passed answer := by
  induction hk : (0x8000000000000000 - n.toInt).toNat generalizing n with
  | zero =>
    have := n.toInt_lt
    omega
  | succ k ih =>
    cases hfree : t.isFree (.integer n) with
    | true => exact ⟨[], some n, .found hfree⟩
    | false =>
      cases hstep : toWord? (n.toInt + 1) with
      | none => exact ⟨[], none, .exhausted hfree hstep⟩
      | some next =>
        have hnext := toWord?_eq_some_iff.1 hstep
        obtain ⟨passed, answer, h⟩ := ih next (by omega)
        exact ⟨n :: passed, answer, .pass hfree hstep h⟩

namespace Scans

theorem unique {n : Int64} {passed passed' : List Int64} {answer answer' : Option Int64}
    (h : t.Scans n passed answer) (h' : t.Scans n passed' answer') :
    passed = passed' ∧ answer = answer' := by
  induction h generalizing passed' answer' with
  | found free => cases h' <;> simp_all
  | exhausted used last => cases h' <;> simp_all
  | pass used step _ ih =>
    cases h' with
    | found free => simp_all
    | exhausted _ last => simp_all
    | pass _ step' rest =>
      rw [step] at step'
      cases step'
      obtain ⟨rfl, rfl⟩ := ih rest
      exact ⟨rfl, rfl⟩

theorem isFree {n m : Int64} {passed : List Int64} (h : t.Scans n passed (some m)) :
    t.isFree (.integer m) = true := by
  generalize ha : some m = answer at h
  induction h with
  | found free => cases ha; exact free
  | pass _ _ _ ih => exact ih ha
  | exhausted => cases ha

theorem le {n m : Int64} {passed : List Int64} (h : t.Scans n passed (some m)) :
    n.toInt ≤ m.toInt := by
  generalize ha : some m = answer at h
  induction h with
  | found => cases ha; exact Int.le_refl _
  | pass _ step _ ih =>
    have hnext := toWord?_eq_some_iff.1 step
    have := ih ha
    omega
  | exhausted => cases ha

theorem passed_ascend {n : Int64} {passed : List Int64} {answer : Option Int64}
    (h : t.Scans n passed answer) :
    (∀ m ∈ passed, n.toInt ≤ m.toInt) ∧ passed.Pairwise (·.toInt < ·.toInt) := by
  induction h with
  | found => simp
  | exhausted => simp
  | @pass n _ passed _ _ step _ ih =>
    have hnext := toWord?_eq_some_iff.1 step
    have hlt : ∀ m ∈ passed, n.toInt < m.toInt := by
      intro m hm
      have := ih.1 m hm
      omega
    refine ⟨?_, List.pairwise_cons.2 ⟨hlt, ih.2⟩⟩
    rintro m (_ | ⟨_, hm⟩)
    · exact Int.le_refl _
    · exact Int.le_of_lt (hlt m hm)

theorem passed_used {n : Int64} {passed : List Int64} {answer : Option Int64}
    (h : t.Scans n passed answer) : ∀ m ∈ passed, t.isFree (.integer m) = false := by
  induction h with
  | found => simp
  | exhausted => simp
  | pass used _ _ ih => exact List.forall_mem_cons.2 ⟨used, ih⟩

end Scans

theorem mem_of_isFree_eq_false {k : Value} (h : t.isFree k = false) :
    k ∈ t.taken ++ t.index.map (·.1) := by
  by_cases hk : k ∈ t.taken
  · exact List.mem_append_left _ hk
  · have hslot : (t.slot? k).isSome = true := by
      simpa [Table.isFree, hk] using h
    obtain ⟨slot, hslot⟩ := Option.isSome_iff_exists.1 hslot
    obtain ⟨before, behind, hindex, -⟩ := List.lookup_eq_some_iff.1 hslot
    refine List.mem_append_right _ (List.mem_map.2 ⟨(k, slot), ?_, rfl⟩)
    simp [hindex]

/-- Every candidate that is passed over is a key, and no two of them are the same. -/
theorem Scans.length_passed_le {n : Int64} {passed : List Int64} {answer : Option Int64}
    (h : t.Scans n passed answer) : passed.length ≤ t.taken.length + t.index.length := by
  have hnodup : (passed.map Value.integer).Nodup := by
    refine List.pairwise_map.2 (h.passed_ascend.2.imp fun hlt he => ?_)
    rw [Value.integer.inj he] at hlt
    exact Int.lt_irrefl _ hlt
  have hsub : passed.map Value.integer ⊆ t.taken ++ t.index.map (·.1) := by
    intro k hk
    obtain ⟨m, hm, rfl⟩ := List.mem_map.1 hk
    exact mem_of_isFree_eq_false (h.passed_used m hm)
  have hle := (List.subperm_of_subset hnodup hsub).length_le
  simpa using hle

/-- The first free word among so many candidates from a number on. -/
def firstFree (t : Table) (n : Int) (count : Nat) : Option Int64 :=
  ((List.range count).map fun (i : Nat) => n + i).findSome? fun n => match toWord? n with
    | some w => if t.isFree (.integer w) then some w else none
    | none => none

theorem firstFree_succ (t : Table) (n : Int64) (count : Nat) :
    t.firstFree n.toInt (count + 1) =
      if t.isFree (.integer n) then some n else t.firstFree (n.toInt + 1) count := by
  have hmap : (List.range (count + 1)).map (fun (i : Nat) => n.toInt + i) =
      n.toInt :: (List.range count).map fun (i : Nat) => n.toInt + 1 + i := by
    rw [List.range_succ_eq_map, List.map_cons, List.map_map]
    refine congrArg₂ _ (by simp) (List.map_congr_left fun i _ => ?_)
    simp only [Function.comp_apply, Nat.succ_eq_add_one]
    omega
  unfold firstFree
  rw [hmap, List.findSome?_cons]
  by_cases hfree : t.isFree (.integer n) = true <;> simp [hfree]

theorem firstFree_eq_none (t : Table) {n : Int} (h : 0x8000000000000000 ≤ n) (count : Nat) :
    t.firstFree n count = none := by
  refine List.findSome?_eq_none_iff.2 (List.forall_mem_map.2 fun i _ => ?_)
  have hnone : toWord? (n + i) = none := toWord?_eq_none_iff.2 (.inr (by omega))
  simp [hnone]

theorem Scans.firstFree_eq {n : Int64} {passed : List Int64} {answer : Option Int64}
    (h : t.Scans n passed answer) {count : Nat} (hc : passed.length < count) :
    t.firstFree n.toInt count = answer := by
  induction h generalizing count with
  | found free =>
    obtain ⟨count, rfl⟩ := Nat.exists_eq_add_one.2 hc
    simp [firstFree_succ, free]
  | pass used step _ ih =>
    obtain ⟨count, rfl⟩ := Nat.exists_eq_add_one.2 (Nat.zero_lt_of_lt hc)
    rw [firstFree_succ, used, if_neg Bool.false_ne_true, ← toWord?_eq_some_iff.1 step]
    exact ih (Nat.lt_of_succ_lt_succ hc)
  | @exhausted n used last =>
    obtain ⟨count, rfl⟩ := Nat.exists_eq_add_one.2 hc
    rw [firstFree_succ, used, if_neg Bool.false_ne_true]
    have hn := n.le_toInt
    rcases toWord?_eq_none_iff.1 last with hlow | hhigh
    · omega
    · exact t.firstFree_eq_none hhigh count

theorem freeKey?_eq_iff {answer : Option Int64} :
    t.freeKey? = answer ↔ ∃ passed, t.Scans t.cursor passed answer := by
  have hscan : ∀ {passed answer}, t.Scans t.cursor passed answer → t.freeKey? = answer :=
    fun h => h.firstFree_eq (Nat.lt_succ_of_le h.length_passed_le)
  constructor
  · intro h
    obtain ⟨passed, answer', hs⟩ := t.exists_scans t.cursor
    rw [← h, hscan hs]
    exact ⟨passed, hs⟩
  · rintro ⟨passed, hs⟩
    exact hscan hs

end Tabular.Table
