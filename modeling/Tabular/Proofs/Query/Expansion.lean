import Tabular.Proofs.Query.Combined
import Tabular.Proofs.Query.Order

/-!
Conditions beside the comparisons that they stand for. A test against a list is a chain of
equalities under OR, and a range is two comparisons under AND. The chain joins whole masks where the
test looks at one value after the other, and the range stretches three vectors at once where the
comparisons meet in pairs.
-/
namespace Tabular

namespace Condition

def compare (x : Operand) (c : Comparison) (v : Operand) : Condition := ⟨x, .compare c, v, none⟩

def inList (x : Operand) (raws : List Raw) : Condition := ⟨x, .oneOf false, .list raws, none⟩

/-- The values to which an operand is equal, one by one. -/
def equalAny (x : Operand) (raw : Raw) (raws : List Raw) : Condition :=
  (compare x .eq (.literal raw)).joinAll (raws.map fun raw => (.or, compare x .eq (.literal raw)))

/-- Both ends of a range, one after the other. -/
def within (x low high : Operand) : Condition := join .and (compare x .ge low) (compare x .le high)

end Condition

namespace Cell

theorem test_eq_oneOf (v w : Value) : test .eq v w = .ok (oneOf false [w] v) := by
  cases v <;> cases w <;> simp [test, oneOf, Value.isNull, Value.matches?]

theorem oneOf_append (set set' : List Value) (v : Value) :
    oneOf false (set ++ set') v = (oneOf false set v || oneOf false set' v) := by
  cases hv : v.isNull <;> simp [oneOf, hv]

theorem between_of_test {v low high : Value} {above below : Bool}
    (habove : test .ge v low = .ok above) (hbelow : test .le v high = .ok below) :
    between false v low high = .ok (above && below) := by
  by_cases hnull : v.isNull || low.isNull || high.isNull
  · have hfalse : (above && below) = false := by
      simp only [test] at habove hbelow
      cases hv : v.isNull <;> cases hlow : low.isNull <;> simp_all
    simp only [between, hnull, hfalse, if_true]
  · simp only [between, hnull, habove]
    cases above with
    | false => rfl
    | true => simp [hbelow, bind, Except.bind, pure, Except.pure]

end Cell

namespace Broadcast

variable {α β γ : Type}

theorem combine_map (c : Connective) (f g : α → Bool) (as : List α) :
    combine c (as.map f) (as.map g) = .ok (as.map fun a => c.apply (f a) (g a)) := by
  have hpaired : paired (as.map f) (as.map g) = .ok ((as.map f).zip (as.map g)) :=
    paired_of_length_eq (by simp)
  simp [combine, hpaired, bind, Except.bind, pure, Except.pure, List.zip_map', Function.comp_def]

theorem testAll_zip_zip {c : Connective} {f : α → β → Except Error Bool}
    {g : α → γ → Except Error Bool} {test : α → β → γ → Except Error Bool}
    (htest : ∀ x y z p q, f x y = .ok p → g x z = .ok q → test x y z = .ok (c.apply p q))
    {as : List α} {bs : List β} {cs : List γ} {ps qs : List Bool}
    (hps : testAll (fun (x, y) => f x y) (as.zip bs) = .ok ps)
    (hqs : testAll (fun (x, z) => g x z) (as.zip cs) = .ok qs) :
    testAll (fun (x, y, z) => test x y z) (as.zip (bs.zip cs)) =
      .ok ((ps.zip qs).map fun p => c.apply p.1 p.2) := by
  induction as generalizing bs cs ps qs with
  | nil =>
    cases hps
    rfl
  | cons x as ih =>
    cases bs with
    | nil =>
      cases hps
      rfl
    | cons y bs =>
      cases cs with
      | nil =>
        cases hqs
        simp [testAll]
      | cons z cs =>
        obtain ⟨p, ps, hp, hps', rfl⟩ := testAll_cons_eq_ok_iff.1 hps
        obtain ⟨q, qs, hq, hqs', rfl⟩ := testAll_cons_eq_ok_iff.1 hqs
        exact testAll_cons_eq_ok_iff.2 ⟨_, _, htest x y z p q hp hq, ih hps' hqs', rfl⟩

end Broadcast

namespace Condition

variable {db : Database} {x : Operand}

theorem mask_join (c : Connective) (a b : Condition) :
    (join c a b).mask db = (do Broadcast.combine c (← a.mask db) (← b.mask db)) := by
  simp only [join, Condition.mask, Operand.mask]

theorem mask_inList {vs : List Value} (h : x.values db = .ok vs) (raws : List Raw) :
    (inList x raws).mask db =
      (raws.mapM Raw.store).map fun set => vs.map (Cell.oneOf false set) := by
  simp only [inList, Condition.mask, Operand.values, h]
  rfl

theorem mask_equal (db : Database) (x : Operand) (raw : Raw) :
    (compare x .eq (.literal raw)).mask db = (inList x [raw]).mask db := by
  cases hx : x.values db with
  | error e => simp only [compare, inList, Condition.mask, hx, bind, Except.bind]
  | ok vs =>
    rw [mask_inList hx]
    simp only [compare, Condition.mask, Operand.values, hx, List.mapM_cons, List.mapM_nil]
    cases raw.store with
    | error e => rfl
    | ok w =>
      simp [bind, Except.bind, pure, Except.pure, Broadcast.paired_singleton_right,
        Broadcast.testAll_comp, Cell.test_eq_oneOf, Broadcast.testAll_ok, Except.map]

theorem mask_join_inList (db : Database) (x : Operand) (raws raws' : List Raw) :
    (join .or (inList x raws) (inList x raws')).mask db = (inList x (raws ++ raws')).mask db := by
  rw [mask_join]
  cases hx : x.values db with
  | error e => simp only [inList, Condition.mask, hx, bind, Except.bind]
  | ok vs =>
    simp only [mask_inList hx, List.mapM_append]
    cases raws.mapM Raw.store with
    | error e => rfl
    | ok set =>
      cases raws'.mapM Raw.store with
      | error e => rfl
      | ok set' =>
        simp [bind, Except.bind, pure, Except.pure, Except.map, Broadcast.combine_map,
          Connective.apply, Cell.oneOf_append]

/-- A chain of equalities tests against the values before it and its own. -/
theorem mask_joinAll_equal {a : Condition} {seen : List Raw}
    (h : a.mask db = (inList x seen).mask db) (raws : List Raw) :
    (a.joinAll (raws.map fun raw => (.or, compare x .eq (.literal raw)))).mask db =
      (inList x (seen ++ raws)).mask db := by
  induction raws generalizing a seen with
  | nil => simpa [joinAll] using h
  | cons raw raws ih =>
    have hnext : (join .or a (compare x .eq (.literal raw))).mask db =
        (inList x (seen ++ [raw])).mask db := by
      rw [← mask_join_inList, mask_join, mask_join, h, mask_equal]
    simpa [joinAll] using ih hnext

theorem mask_compare_eq_ok_iff {c : Comparison} {v : Operand} {mask : List Bool} :
    (compare x c v).mask db = .ok mask ↔ ∃ vs ws n, x.values db = .ok vs ∧ v.values db = .ok ws ∧
      Broadcast.commonLength vs.length ws.length = .ok n ∧
      Broadcast.testAll (fun (v, w) => Cell.test c v w)
        ((Broadcast.stretch n vs).zip (Broadcast.stretch n ws)) = .ok mask := by
  simp only [compare, Condition.mask, Except.bind_eq_ok_iff, Broadcast.paired_eq_ok_iff]
  constructor
  · rintro ⟨vs, hvs, ws, hws, ps, ⟨n, hn, rfl⟩, hmask⟩
    exact ⟨vs, ws, n, hvs, hws, hn, hmask⟩
  · rintro ⟨vs, ws, n, hvs, hws, hn, hmask⟩
    exact ⟨vs, hvs, ws, hws, _, ⟨n, hn, rfl⟩, hmask⟩

/-- Where the comparisons with the ends can be made and meet, so can the test of the range. -/
theorem mask_between_of_within {low high : Operand} {mask : List Bool}
    (h : (within x low high).mask db = .ok mask) :
    (between x false low high).mask db = .ok mask := by
  simp only [within, mask_join, Except.bind_eq_ok_iff] at h
  obtain ⟨above, habove, below, hbelow, hmask⟩ := h
  obtain ⟨vs, los, m, hvs, hlos, hm, habove⟩ := mask_compare_eq_ok_iff.1 habove
  obtain ⟨vs', his, k, hvs', hhis, hk, hbelow⟩ := mask_compare_eq_ok_iff.1 hbelow
  cases hvs.symm.trans hvs'
  obtain ⟨n, hn, rfl⟩ := Broadcast.combine_eq_ok_iff.1 hmask
  rw [Broadcast.length_testAll habove, Broadcast.length_testAll hbelow,
    Broadcast.length_zip_stretch hm, Broadcast.length_zip_stretch hk] at hn
  have hlengths := Broadcast.commonLength_eq_ok_iff.1 hm
  have hlengths' := Broadcast.commonLength_eq_ok_iff.1 hk
  have hmeet := Broadcast.commonLength_eq_ok_iff.1 hn
  have hn' : Broadcast.commonLength m his.length = .ok n :=
    Broadcast.commonLength_eq_ok_iff.2 (by omega)
  have habove' := Broadcast.testAll_stretch habove n
  have hbelow' := Broadcast.testAll_stretch hbelow n
  rw [Broadcast.stretch_zip_stretch hm (by omega)] at habove'
  rw [Broadcast.stretch_zip_stretch hk (by omega)] at hbelow'
  have hinside := Broadcast.testAll_zip_zip (c := .and) (f := Cell.test .ge) (g := Cell.test .le)
    (fun _ _ _ _ _ => Cell.between_of_test) habove' hbelow'
  simp only [between, range, Condition.mask, Except.bind_eq_ok_iff]
  refine ⟨vs, hvs, los, hlos, his, hhis, _, Broadcast.tripled_eq_ok_iff.2 ⟨m, n, hm, hn', rfl⟩, ?_⟩
  exact hinside

/-- A test against a list is the chain of the equalities with its values: their masks are the same,
or both fail with the same error. A range has the mask of the two comparisons with its ends wherever
these have one. -/
theorem mask_expanded (db : Database) (x : Operand) :
    (∀ raw raws, (inList x (raw :: raws)).mask db = (equalAny x raw raws).mask db) ∧
      ∀ low high mask, (within x low high).mask db = .ok mask →
        (between x false low high).mask db = .ok mask :=
  ⟨fun raw raws => (mask_joinAll_equal (mask_equal db x raw) raws).symm,
    fun _ _ _ => mask_between_of_within⟩

/-- Games with three points or no points at all, and games with points from three up to an end of
their own. NULL is in no list, and a scalar end meets the other end and the cells. -/
theorem mask_expanded_games :
    let points := Operand.field ⟨"games", "points"⟩
    let highs := Operand.series ⟨[.integer 5, .integer 5, .integer 9, .integer 2], none⟩
    (equalAny points (.int 3) [.null]).mask scoreboard = .ok [true, false, false, true] ∧
      (within points (.literal (.int 3)) highs).mask scoreboard = .ok [true, false, true, false] ∧
      (between points false (.literal (.int 3)) highs).mask scoreboard =
        .ok [true, false, true, false] := by
  intro points highs
  obtain ⟨hin, hbetween⟩ := mask_expanded scoreboard points
  have hwithin : (within points (.literal (.int 3)) highs).mask scoreboard =
      .ok [true, false, true, false] := by decide
  refine ⟨?_, hwithin, hbetween _ _ _ hwithin⟩
  rw [← hin]
  decide

end Condition

end Tabular
