import Tabular.Error
import Tabular.Query.Cell
import Tabular.Query.Sorting
import Tabular.Proofs.Binary64.Integer

/-!
Comparing values. Values of one kind are in a total order, and integers and real numbers together
are up to rounding: two integers that differ may both be equal to one real number. The order agrees
with equality as conditions see it, but for zeros with different signs and for NaN.
-/
namespace Tabular

namespace Binary64

theorem isLE_totalOrder {x y : Binary64} : (x.totalOrder y).isLE ↔ x.rank ≤ y.rank :=
  Int.isLE_compare

theorem totalOrder_eq_eq {x y : Binary64} : x.totalOrder y = .eq ↔ x = y :=
  Std.compare_eq_iff_eq.trans rank_inj

theorem sameNumber_of_isZero {x y : Binary64} (hx : x.isZero = true) (hy : y.isZero = true) :
    x.sameNumber y = true := by
  simp only [isZero, decide_eq_true_eq] at hx hy
  simp [sameNumber, isNaN, position, hx, hy]

/-- Two patterns on which equality of numbers and the total order disagree. -/
def Discordant (x y : Binary64) : Prop :=
  x = y ∧ x.isNaN = true ∨ x ≠ y ∧ x.isZero = true ∧ y.isZero = true

instance (x y : Binary64) : Decidable (Discordant x y) :=
  inferInstanceAs (Decidable (_ ∨ _))

theorem sameNumber_iff_totalOrder {x y : Binary64} :
    (x.sameNumber y = true ↔ x.totalOrder y = .eq) ↔ ¬ Discordant x y := by
  rw [totalOrder_eq_eq, Discordant]
  by_cases hxy : x = y
  · subst hxy
    cases h : x.isNaN <;> simp [sameNumber, h]
  · have hzeros : x.sameNumber y = true ↔ x.isZero = true ∧ y.isZero = true := by
      refine ⟨fun h => ?_, fun h => sameNumber_of_isZero h.1 h.2⟩
      simpa [isZero] using (eq_or_isZero_of_sameNumber h).resolve_left hxy
    simp [hxy, hzeros]

end Binary64

namespace Value

theorem order?_swap (v w : Value) : w.order? v = (v.order? w).map Ordering.swap := by
  cases v <;> cases w <;> first | rfl | exact congrArg some Std.OrientedOrd.eq_swap

/-- The real numbers as which two values are compared, if one of them is a real number. An integer
takes part as the number to which it is rounded. -/
def reals? : Value → Value → Option (Binary64 × Binary64)
  | .integer a, .real y => some (.ofInt a.toInt, y)
  | .real x, .integer b => some (x, .ofInt b.toInt)
  | .real x, .real y => some (x, y)
  | _, _ => none

variable {u v w : Value} {x y z : Binary64} {o : Ordering}

theorem order?_of_reals? (h : reals? v w = some (x, y)) : v.order? w = some (x.totalOrder y) := by
  cases v <;> cases w <;> cases h <;> rfl

theorem matches?_of_reals? (h : reals? v w = some (x, y)) : v.matches? w = x.sameNumber y := by
  cases v <;> cases w <;> cases h <;> first | rfl | exact Binary64.sameNumber_comm _ _

theorem matches?_iff_of_reals?_eq_none (h : reals? v w = none) (ho : v.order? w = some o) :
    v.matches? w = true ↔ o = .eq := by
  cases v <;> cases w <;> cases h <;> cases ho <;> simp [matches?, Int64.toInt_inj]

theorem exists_number?_of_order? (hv : v.number? = some x) (h : v.order? w = some o) :
    ∃ y, w.number? = some y := by
  cases v <;> cases hv <;> cases w <;> cases h <;> exact ⟨_, rfl⟩

theorem integers_or_reals? (hv : v.number? = some x) (hw : w.number? = some y) :
    (∃ a b, v = .integer a ∧ w = .integer b) ∨ reals? v w = some (x, y) := by
  cases v <;> cases hv <;> cases w <;> cases hw
  · exact .inl ⟨_, _, rfl, rfl⟩
  · exact .inr rfl
  · exact .inr rfl
  · exact .inr rfl

theorem rank_le_of_isLE (hv : v.number? = some x) (hw : w.number? = some y)
    (h : v.order? w = some o) (hle : o.isLE) : x.rank ≤ y.rank := by
  rcases integers_or_reals? hv hw with ⟨a, b, rfl, rfl⟩ | hreals
  · cases hv
    cases hw
    cases h
    exact Binary64.rank_ofInt_mono (Int.isLE_compare.1 hle)
  · rw [order?_of_reals? hreals] at h
    cases h
    exact Binary64.isLE_totalOrder.1 hle

/-- Two integers, the greater one first, and between them the real number to which both are
rounded. -/
def Blurs (u v w : Value) : Prop :=
  ∃ a b : Int64, b.toInt < a.toInt ∧ u = .integer a ∧ w = .integer b ∧
    v = .real (.ofInt a.toInt) ∧ v = .real (.ofInt b.toInt)

theorem Blurs.order?_eq_gt (h : Blurs u v w) : u.order? w = some .gt := by
  obtain ⟨a, b, hlt, rfl, rfl, -, -⟩ := h
  exact congrArg some (compare_gt_iff_gt.2 hlt)

theorem Blurs.order?_left (h : Blurs u v w) : u.order? v = some .eq := by
  obtain ⟨a, b, -, rfl, -, rfl, -⟩ := h
  exact congrArg some (Binary64.totalOrder_eq_eq.2 rfl)

theorem Blurs.order?_right (h : Blurs u v w) : v.order? w = some .eq := by
  obtain ⟨a, b, -, -, rfl, -, rfl⟩ := h
  exact congrArg some (Binary64.totalOrder_eq_eq.2 rfl)

/-- Integers up to `2 ^ 53` are exact, so one of the two lies beyond. -/
theorem Blurs.exists_large (h : Blurs u v w) :
    ∃ n : Int64, (u = .integer n ∨ w = .integer n) ∧ 2 ^ 53 < n.toInt.natAbs := by
  obtain ⟨a, b, hlt, rfl, rfl, rfl, hb⟩ := h
  by_contra hsmall
  push Not at hsmall
  have ha := Binary64.toInt?_ofInt_of_le (hsmall a (.inl rfl))
  have hb' := Binary64.toInt?_ofInt_of_le (hsmall b (.inr rfl))
  rw [real.inj hb, hb', Option.some.injEq] at ha
  omega

/-- Numbers that are out of order, though each of them is in order with one between them. -/
theorem blurs_of_order?_eq_gt (hu : u.number? = some x) (hv : v.number? = some y)
    (hw : w.number? = some z) {o₁ o₂ : Ordering} (huv : u.order? v = some o₁)
    (hvw : v.order? w = some o₂) (huw : u.order? w = some .gt) (h₁ : o₁.isLE) (h₂ : o₂.isLE) :
    Blurs u v w := by
  have hwu : w.order? u = some .lt := by
    rw [order?_swap u w, huw]
    rfl
  have hxy := rank_le_of_isLE hu hv huv h₁
  have hyz := rank_le_of_isLE hv hw hvw h₂
  have hzx := rank_le_of_isLE hw hu hwu rfl
  -- so all three are rounded to one number, and none but the middle one can be a real number
  obtain rfl : x = y := Binary64.rank_inj.1 (by omega)
  obtain rfl : x = z := Binary64.rank_inj.1 (by omega)
  rcases integers_or_reals? hu hw with ⟨a, b, rfl, rfl⟩ | hreals
  · have hba : b.toInt < a.toInt := compare_gt_iff_gt.1 (Option.some.inj huw)
    cases v with
    | integer m =>
      cases huv
      cases hvw
      have ham := Int.isLE_compare.1 h₁
      have hmb := Int.isLE_compare.1 h₂
      omega
    | real y =>
      cases hv
      exact ⟨a, b, hba, rfl, rfl, congrArg real (Option.some.inj hu).symm,
        congrArg real (Option.some.inj hw).symm⟩
    | _ => cases hv
  · rw [order?_of_reals? hreals, Binary64.totalOrder_eq_eq.2 rfl] at huw
    cases huw

/-- The order of values of one kind is total, and that of numbers is total up to rounding. -/
theorem isLE_order?_trans_iff {o₁ o₂ o₃ : Ordering} (huv : u.order? v = some o₁)
    (hvw : v.order? w = some o₂) (huw : u.order? w = some o₃) (h₁ : o₁.isLE) (h₂ : o₂.isLE) :
    o₃.isLE ↔ ¬ Blurs u v w := by
  constructor
  · intro h₃ hblurs
    rw [hblurs.order?_eq_gt] at huw
    cases huw
    cases h₃
  intro hblurs
  cases hnumber : u.number? with
  | some x =>
    obtain ⟨y, hy⟩ := exists_number?_of_order? hnumber huv
    obtain ⟨z, hz⟩ := exists_number?_of_order? hy hvw
    rw [Ordering.isLE_iff_ne_gt]
    rintro rfl
    exact hblurs (blurs_of_order?_eq_gt hnumber hy hz huv hvw huw h₁ h₂)
  | none =>
    cases u with
    | null =>
      cases v <;> cases huv
      cases w <;> cases huw
      rfl
    | text s =>
      cases v <;> cases huv
      cases w <;> cases hvw
      cases huw
      exact Std.TransOrd.isLE_trans h₁ h₂
    | blob b =>
      cases v <;> cases huv
      cases w <;> cases hvw
      cases huw
      exact Std.TransOrd.isLE_trans h₁ h₂
    | object d => cases v <;> cases huv
    | _ => cases hnumber

/-- Comparing two values in the other direction gives the reverse, and the order is transitive but
where rounding makes a real number equal to two integers that differ. One of these is large. -/
theorem compare_trans_iff {o₁ o₂ o₃ : Ordering} (huv : u.compare v = .ok o₁)
    (hvw : v.compare w = .ok o₂) (huw : u.compare w = .ok o₃) :
    v.compare u = .ok o₁.swap ∧
      (o₁ ≠ .gt → o₂ ≠ .gt → (o₃ ≠ .gt ↔ ¬ Blurs u v w)) ∧
      (Blurs u v w → ∃ n : Int64, (u = .integer n ∨ w = .integer n) ∧
        2 ^ 53 < n.toInt.natAbs) := by
  rw [compare_eq_ok_iff] at huv hvw huw
  refine ⟨?_, fun h₁ h₂ => ?_, Blurs.exists_large⟩
  · rw [compare_eq_ok_iff, order?_swap u v, huv, Option.map_some]
  · rw [← isLE_order?_trans_iff huv hvw huw (Ordering.isLE_iff_ne_gt.2 h₁)
      (Ordering.isLE_iff_ne_gt.2 h₂), Ordering.isLE_iff_ne_gt]

/-- The real number `2 ^ 53` stands between the integers `2 ^ 53` and `2 ^ 53 + 1`. -/
theorem compare_trans_rounded :
    let u := integer 9007199254740992
    let v := real (.ofInt (2 ^ 53))
    let w := integer 9007199254740993
    u.compare v = .ok .eq ∧ v.compare w = .ok .eq ∧ u.compare w = .ok .lt ∧
      v.compare u = .ok .eq ∧ ¬ Blurs u v w := by
  intro u v w
  have huv : u.compare v = .ok .eq := by decide
  have hvw : v.compare w = .ok .eq := by decide
  have huw : u.compare w = .ok .lt := by decide
  obtain ⟨hswap, htrans, -⟩ := compare_trans_iff huv hvw huw
  exact ⟨huv, hvw, huw, hswap, (htrans (by decide) (by decide)).1 (by decide)⟩

/-- `2 ^ 53 + 1` is equal to the real number `2 ^ 53`, and that to the integer `2 ^ 53`, which is
less than `2 ^ 53 + 1`. Sorting the three leaves the greater integer before the lesser. -/
theorem not_compare_trans :
    let u := integer 9007199254740993
    let v := real (.ofInt (2 ^ 53))
    let w := integer 9007199254740992
    u.compare v = .ok .eq ∧ v.compare w = .ok .eq ∧ u.compare w = .ok .gt ∧
      Sorting.sortPlaces [u, v, w] .asc [0, 1, 2] = .ok [0, 1, 2] := by
  decide

end Value

namespace Cell

/-- The comparison holds of two values. -/
def Holds (c : Comparison) (v w : Value) : Prop := test c v w = .ok true

instance (c : Comparison) (v w : Value) : Decidable (Holds c v w) :=
  inferInstanceAs (Decidable (_ = _))

/-- Of less, equal and greater exactly one holds, and the other comparisons are made of them. -/
@[mk_iff]
structure Coherent (v w : Value) : Prop where
  one : Holds .lt v w ∧ ¬ Holds .eq v w ∧ ¬ Holds .gt v w ∨
    ¬ Holds .lt v w ∧ Holds .eq v w ∧ ¬ Holds .gt v w ∨
    ¬ Holds .lt v w ∧ ¬ Holds .eq v w ∧ Holds .gt v w
  le : Holds .le v w ↔ Holds .lt v w ∨ Holds .eq v w
  ge : Holds .ge v w ↔ Holds .gt v w ∨ Holds .eq v w

/-- Values that are equal as numbers but not in the order, or the other way round: zeros with
different signs and NaN. An integer takes part as the number to which it is rounded. -/
def Discordant (v w : Value) : Prop := ∃ p ∈ Value.reals? v w, p.1.Discordant p.2

instance (v w : Value) : Decidable (Discordant v w) :=
  inferInstanceAs (Decidable (∃ p ∈ Value.reals? v w, p.1.Discordant p.2))

variable {v w : Value} {o : Ordering}

def answer (c : Comparison) (o : Ordering) (same : Bool) : Bool :=
  match c with
  | .eq => same
  | .ne => !same
  | .lt => o == .lt
  | .gt => o == .gt
  | .le => o != .gt
  | .ge => o != .lt

theorem test_eq (hv : v.isNull = false) (hw : w.isNull = false) (h : v.compare w = .ok o)
    (c : Comparison) : test c v w = .ok (answer c o (v.matches? w)) := by
  cases c <;> simp [test, hv, hw, h, answer, Except.map]

theorem exists_compare_of_test (hv : v.isNull = false) (hw : w.isNull = false) {b : Bool}
    (h : test .lt v w = .ok b) : ∃ o, v.compare w = .ok o := by
  simp only [test, hv, hw, Bool.or_false, Bool.false_eq_true, if_false] at h
  obtain ⟨o, ho, -⟩ := Except.map_eq_ok_iff.1 h
  exact ⟨o, ho⟩

theorem coherent_iff_matches? (hv : v.isNull = false) (hw : w.isNull = false)
    (h : v.compare w = .ok o) : Coherent v w ↔ (v.matches? w = true ↔ o = .eq) := by
  have hanswer : ∀ c, Holds c v w ↔ answer c o (v.matches? w) = true := by
    intro c
    rw [Holds, test_eq hv hw h, Except.ok.injEq]
  rw [coherent_iff]
  simp only [hanswer]
  generalize v.matches? w = same
  cases o <;> cases same <;> decide

theorem matches?_iff_not_discordant (h : v.order? w = some o) :
    (v.matches? w = true ↔ o = .eq) ↔ ¬ Discordant v w := by
  cases hreals : Value.reals? v w with
  | none => simp [Value.matches?_iff_of_reals?_eq_none hreals h, Discordant, hreals]
  | some pair =>
    obtain ⟨x, y⟩ := pair
    rw [Value.order?_of_reals? hreals] at h
    cases h
    rw [Value.matches?_of_reals? hreals, Binary64.sameNumber_iff_totalOrder]
    simp [Discordant, hreals]

/-- Values that can be ordered can be compared in every way, and the comparisons are coherent unless
the values are zeros with different signs or NaN twice. -/
theorem coherent_iff_not_discordant (hv : v.isNull = false) (hw : w.isNull = false) {b : Bool}
    (h : test .lt v w = .ok b) :
    (∀ c, ∃ b, test c v w = .ok b) ∧ (Coherent v w ↔ ¬ Discordant v w) := by
  obtain ⟨o, ho⟩ := exists_compare_of_test hv hw h
  refine ⟨fun c => ⟨_, test_eq hv hw ho c⟩, ?_⟩
  rw [coherent_iff_matches? hv hw ho]
  exact matches?_iff_not_discordant (Value.compare_eq_ok_iff.1 ho)

theorem coherent_rounded :
    test .lt (.integer 9007199254740993) (.real (.ofInt (2 ^ 53))) = .ok false ∧
      Coherent (.integer 9007199254740993) (.real (.ofInt (2 ^ 53))) :=
  ⟨by decide, (coherent_iff_not_discordant rfl rfl (b := false) (by decide)).2.2 (by decide)⟩

/-- The zero with a sign is equal to zero and less than it, and NaN is neither less than nor equal
to nor greater than itself, but it is less or equal. -/
theorem not_coherent_zero :
    let minus := Value.real (.ofMagnitude true 0)
    let zero := Value.real .zero
    let nan := Value.real (.nan false)
    (Holds .lt minus zero ∧ Holds .eq minus zero) ∧
      (Holds .gt (.integer 0) minus ∧ Holds .eq (.integer 0) minus) ∧
      (¬ Holds .lt nan nan ∧ ¬ Holds .eq nan nan ∧ ¬ Holds .gt nan nan ∧ Holds .le nan nan) := by
  decide

end Cell

end Tabular
