import Tabular.Error
import Tabular.Aggregate.Apply
import Mathlib

/-!
Sums of integers. A sum is exact as long as no sum of the first integers leaves the words. From
there on it is a real number, even if the integers that follow bring it back, so that it depends on
the order of the values. Every order gives the exact sum if the positive integers have a sum that is
a word, and the negative ones too.
-/
namespace Tabular

def Fits (n : Int) : Prop := ∃ w : Int64, w.toInt = n

theorem fits_iff {n : Int} : Fits n ↔ -2 ^ 63 ≤ n ∧ n < 2 ^ 63 := by
  constructor
  · rintro ⟨w, rfl⟩
    exact ⟨w.le_toInt, w.toInt_lt⟩
  · rintro ⟨hlow, hhigh⟩
    exact ⟨Int64.ofInt n, Int64.toInt_ofInt_of_le hlow hhigh⟩

instance (n : Int) : Decidable (Fits n) := decidable_of_iff _ fits_iff.symm

def Value.integer? : Value → Option Int
  | .integer n => some n.toInt
  | _ => none

namespace Aggregate

def addends (vs : List Value) : List Int := vs.filterMap Value.integer?

/-- No sum of the first integers, counted from `t`, leaves the words. -/
def Contained (t : Int) (ns : List Int) : Prop := ∀ p, p <+: ns → Fits (t + p.sum)

instance (t : Int) (ns : List Int) : Decidable (Contained t ns) :=
  decidable_of_iff (∀ p ∈ ns.inits, Fits (t + p.sum)) (by simp [Contained])

theorem Contained.fits {t : Int} {ns : List Int} (h : Contained t ns) : Fits t := by
  simpa using h [] List.nil_prefix

theorem Contained.fits_sum {t : Int} {ns : List Int} (h : Contained t ns) : Fits (t + ns.sum) :=
  h ns (List.prefix_refl ns)

theorem contained_nil {t : Int} : Contained t [] ↔ Fits t := by
  simp [Contained, List.prefix_nil]

theorem contained_cons {t n : Int} {ns : List Int} :
    Contained t (n :: ns) ↔ Fits t ∧ Contained (t + n) ns := by
  constructor
  · intro h
    refine ⟨h.fits, fun p hp => ?_⟩
    simpa [Int.add_assoc] using h (n :: p) ((List.prefix_cons_inj n).2 hp)
  · rintro ⟨ht, h⟩ p hp
    rcases List.prefix_cons_iff.1 hp with rfl | ⟨q, rfl, hq⟩
    · simpa using ht
    · simpa [Int.add_assoc] using h q hq

/-- The sum of integers as real numbers, rounded at every step. -/
def realSum (x : Binary64) (ns : List Int) : Binary64 := ns.foldl (fun x n => x.add (.ofInt n)) x

variable {vs : List Value}

theorem foldl_exactNext_none (vs : List Value) : vs.foldl Sum.exactNext none = none := by
  induction vs with
  | nil => rfl
  | cons v vs ih => cases v <;> exact ih

theorem foldl_exactNext_eq_some_iff (h : ∀ v ∈ vs, ∃ n, v = .integer n) {w u : Int64} :
    vs.foldl Sum.exactNext (some w) = some u ↔
      Contained w.toInt (addends vs) ∧ u.toInt = w.toInt + (addends vs).sum := by
  induction vs generalizing w with
  | nil => simp [addends, contained_nil, Fits, eq_comm, Int64.toInt_inj]
  | cons v vs ih =>
    obtain ⟨⟨n, rfl⟩, hvs⟩ := List.forall_mem_cons.1 h
    have hfits : Fits w.toInt := ⟨w, rfl⟩
    rw [List.foldl_cons, show addends (.integer n :: vs) = n.toInt :: addends vs from rfl,
      contained_cons, and_iff_right hfits, List.sum_cons, ← Int.add_assoc]
    simp only [Sum.exactNext, Option.bind_some, addWords?]
    cases hword : toWord? (w.toInt + n.toInt) with
    | some w' =>
      rw [ih hvs, toWord?_eq_some_iff.1 hword]
    | none =>
      rw [foldl_exactNext_none]
      refine iff_of_false nofun fun hcontained => ?_
      obtain ⟨w', hw'⟩ := hcontained.1.fits
      rw [toWord?_eq_some_iff.2 hw'] at hword
      cases hword

theorem foldlM_next (f : AggregateFunction) (h : ∀ v ∈ vs, ∃ n, v = .integer n) (s : Sum) :
    vs.foldlM (Sum.next f) s =
      .ok ⟨vs.foldl Sum.exactNext s.exact, realSum s.total (addends vs)⟩ := by
  induction vs generalizing s with
  | nil => rfl
  | cons v vs ih =>
    obtain ⟨⟨n, rfl⟩, hvs⟩ := List.forall_mem_cons.1 h
    exact ih hvs _

theorem addends_filter_present (vs : List Value) :
    addends (vs.filter (!·.isNull)) = addends vs := by
  unfold addends
  rw [List.filterMap_filter]
  refine List.filterMap_congr fun v _ => ?_
  cases v <;> rfl

/-- NULL apart, all values are integers. -/
def Integers (vs : List Value) : Prop := ∀ v ∈ vs, v = .null ∨ ∃ n, v = .integer n

theorem apply_sum (h : Integers vs) (argument : Argument) :
    ∃ exact, (∀ u : Int64, exact = some u ↔
        Contained 0 (addends vs) ∧ u.toInt = (addends vs).sum) ∧
      apply ⟨.sum, argument⟩ vs = .ok (Sum.value ⟨exact, realSum .zero (addends vs)⟩) := by
  have hpresent : ∀ v ∈ vs.filter (!·.isNull), ∃ n, v = .integer n := by
    intro v hv
    obtain ⟨hv, hnull⟩ := List.mem_filter.1 hv
    refine (h v hv).resolve_left ?_
    rintro rfl
    cases hnull
  refine ⟨(vs.filter (!·.isNull)).foldl Sum.exactNext (some 0), fun u => ?_, ?_⟩
  · simpa [addends_filter_present] using foldl_exactNext_eq_some_iff hpresent (w := 0)
  · simp only [apply, ofPresent, Sum.of, foldlM_next _ hpresent, addends_filter_present]
    rfl

/-- The sum is exact if and only if no sum of the first integers leaves the words. -/
theorem exists_apply_sum_iff (h : Integers vs) (argument : Argument) :
    (∃ w : Int64, w.toInt = (addends vs).sum ∧ apply ⟨.sum, argument⟩ vs = .ok (.integer w)) ↔
      Contained 0 (addends vs) := by
  obtain ⟨exact, hexact, hsum⟩ := apply_sum h argument
  rw [hsum]
  constructor
  · rintro ⟨w, hw, heq⟩
    cases exact with
    | some u => exact ((hexact u).1 rfl).1
    | none => cases heq
  · intro hcontained
    obtain ⟨w, hw⟩ := hcontained.fits_sum
    rw [Int.zero_add] at hw
    rw [(hexact w).2 ⟨hcontained, hw⟩]
    exact ⟨w, hw, rfl⟩

theorem apply_sum_eq_real (h : Integers vs) (argument : Argument)
    (out : ¬ Contained 0 (addends vs)) :
    apply ⟨.sum, argument⟩ vs = .ok (.real (realSum .zero (addends vs))) := by
  obtain ⟨exact, hexact, hsum⟩ := apply_sum h argument
  cases exact with
  | some u => exact absurd ((hexact u).1 rfl).1 out
  | none => exact hsum

/-- The sum of the positive integers. -/
def gains (ns : List Int) : Int := (ns.filter (0 < ·)).sum

/-- The sum of the negative integers. -/
def losses (ns : List Int) : Int := (ns.filter (· < 0)).sum

theorem sum_bounds (ns : List Int) :
    losses ns ≤ 0 ∧ losses ns ≤ ns.sum ∧ ns.sum ≤ gains ns ∧ 0 ≤ gains ns := by
  induction ns with
  | nil => simp [losses, gains]
  | cons n ns ih =>
    simp only [losses, gains, List.filter_cons, apply_ite List.sum, List.sum_cons,
      decide_eq_true_eq] at ih ⊢
    split_ifs <;> omega

theorem contained_of_fits {ns : List Int} (hgains : Fits (gains ns)) (hlosses : Fits (losses ns)) :
    Contained 0 ns := by
  rintro p ⟨q, rfl⟩
  have hp := sum_bounds p
  have hq := sum_bounds q
  rw [fits_iff] at *
  simp only [gains, losses, List.filter_append, List.sum_append] at *
  omega

theorem filter_addends (p : Int → Bool) (vs : List Value) :
    (addends vs).filter p = addends (vs.filter fun v => v.integer?.any p) := by
  unfold addends
  rw [List.filter_filterMap, List.filterMap_filter]
  refine List.filterMap_congr fun v _ => ?_
  cases v <;> rfl

theorem exists_perm_prefix (p : Int → Bool) (vs : List Value) :
    ∃ ws : List Value, ws.Perm vs ∧ (addends vs).filter p <+: addends ws := by
  refine ⟨_, List.filter_append_perm (fun v => v.integer?.any p) vs, ?_⟩
  rw [filter_addends, addends, addends, List.filterMap_append]
  exact List.prefix_append _ _

theorem forall_perm_contained_iff (vs : List Value) :
    (∀ ws, ws.Perm vs → Contained 0 (addends ws)) ↔
      Fits (gains (addends vs)) ∧ Fits (losses (addends vs)) := by
  constructor
  · intro h
    have hfront : ∀ p : Int → Bool, Fits ((addends vs).filter p).sum := by
      intro p
      obtain ⟨ws, hws, hp⟩ := exists_perm_prefix p vs
      simpa using h ws hws _ hp
    exact ⟨hfront _, hfront _⟩
  · rintro ⟨hgains, hlosses⟩ ws hws
    have hns : (addends ws).Perm (addends vs) := hws.filterMap _
    refine contained_of_fits ?_ ?_
    · rwa [gains, (hns.filter _).sum_eq]
    · rwa [losses, (hns.filter _).sum_eq]

/-- The sum of integers is exact as long as no sum of the first of them leaves the words, and a real
number otherwise. It is a real number in every order if it is no word itself, and exact in every
order if and only if the positive integers have a sum that is a word and the negative ones too. -/
theorem apply_sum_integers (h : Integers vs) (argument : Argument) :
    (Contained 0 (addends vs) → ∃ w : Int64, w.toInt = (addends vs).sum ∧
      apply ⟨.sum, argument⟩ vs = .ok (.integer w)) ∧
    (¬ Contained 0 (addends vs) →
      apply ⟨.sum, argument⟩ vs = .ok (.real (realSum .zero (addends vs)))) ∧
    (¬ Fits (addends vs).sum → ∀ ws, ws.Perm vs →
      ∃ x, apply ⟨.sum, argument⟩ ws = .ok (.real x)) ∧
    ((∀ ws, ws.Perm vs → ∃ w : Int64, w.toInt = (addends vs).sum ∧
        apply ⟨.sum, argument⟩ ws = .ok (.integer w)) ↔
      Fits (gains (addends vs)) ∧ Fits (losses (addends vs))) := by
  have hperm : ∀ ws, ws.Perm vs → Integers ws ∧ (addends ws).sum = (addends vs).sum :=
    fun ws hws => ⟨fun v hv => h v (hws.mem_iff.1 hv), (hws.filterMap _).sum_eq⟩
  refine ⟨(exists_apply_sum_iff h argument).2, apply_sum_eq_real h argument, ?_, ?_⟩
  · intro hout ws hws
    obtain ⟨hints, hsum⟩ := hperm ws hws
    refine ⟨_, apply_sum_eq_real hints argument fun hcontained => hout ?_⟩
    rw [← hsum]
    simpa using hcontained.fits_sum
  · rw [← forall_perm_contained_iff]
    refine forall₂_congr fun ws hws => ?_
    obtain ⟨hints, hsum⟩ := hperm ws hws
    rw [← exists_apply_sum_iff hints argument, hsum]

theorem apply_sum_integers_points :
    let vs : List Value := [.integer Int64.maxValue, .null, .integer (-7), .integer 5]
    Integers vs ∧ Contained 0 (addends vs) ∧
      (∃ w : Int64, w.toInt = Int64.maxValue.toInt - 2 ∧
        apply ⟨.sum, .column "points"⟩ vs = .ok (.integer w)) ∧
      ¬ ∀ ws, ws.Perm vs → ∃ w : Int64, w.toInt = Int64.maxValue.toInt - 2 ∧
        apply ⟨.sum, .column "points"⟩ ws = .ok (.integer w) := by
  intro vs
  have h : Integers vs := by simp [vs, Integers]
  have hsum := apply_sum_integers h (.column "points")
  rw [show (addends vs).sum = Int64.maxValue.toInt - 2 by decide] at hsum
  exact ⟨h, by decide, hsum.1 (by decide), mt hsum.2.2.2.1 (by decide)⟩

/-- The sum leaves the words and comes back. -/
theorem not_apply_sum_perm :
    let vs : List Value := [.integer Int64.maxValue, .integer 1, .integer (-1)]
    let ws : List Value := [.integer 1, .integer (-1), .integer Int64.maxValue]
    ws.Perm vs ∧ (addends vs).sum = Int64.maxValue.toInt ∧
      apply ⟨.sum, .column "points"⟩ vs = .ok (.real (.ofInt (2 ^ 63))) ∧
      apply ⟨.sum, .column "points"⟩ ws = .ok (.integer Int64.maxValue) :=
  ⟨by decide, by decide, by decide +kernel, by decide +kernel⟩

end Aggregate
end Tabular
