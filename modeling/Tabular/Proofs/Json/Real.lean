import Tabular.Proofs.Decimal.Shortest
import Tabular.Proofs.Json.Number

/-!
Real numbers in documents. A number is read again from its shortest decimal, but quickly: the digits
and the power of ten are rounded before they are multiplied, so it may come back as another number
close by. It is never out of range, though, and where the digits and the power of ten are small
enough to be numbers themselves, only the last step rounds and the number comes back as it was.
-/
namespace Tabular

namespace Binary64

theorem exists_size_eq {m : Nat} (positive : 0 < m) (hm : m < 2 ^ 53) {e : Int} (he : -1074 ≤ e)
    (he' : e ≤ 971) : ∃ x : Binary64, x.isFinite = true ∧ x.isNegative = false ∧
      0 < x.significand ∧ x.size = m * 2 ^ e := by
  obtain ⟨n, rfl⟩ : ∃ n : Nat, e = (n : Int) - 1074 := ⟨(e + 1074).toNat, by omega⟩
  have hdirect : ∀ m n : Nat, 0 < m → m < 2 ^ 53 → 2 ^ 52 ≤ m ∨ n = 0 → n ≤ 2045 →
      ∃ x : Binary64, x.isFinite = true ∧ x.isNegative = false ∧ 0 < x.significand ∧
        x.size = m * 2 ^ ((n : Int) - 1074) := by
    intro m n positive hm hleast hn
    obtain ⟨finite, sign, hsignificand, hexponent⟩ := parts_ofMagnitude hm hleast hn rfl
    exact ⟨_, finite, sign, by omega, by rw [size, hsignificand, hexponent]⟩
  induction n generalizing m with
  | zero => exact hdirect m 0 positive hm (.inr rfl) (by omega)
  | succ n ih =>
    by_cases hlarge : 2 ^ 52 ≤ m
    · exact hdirect m (n + 1) positive hm (.inl hlarge) (by omega)
    · obtain ⟨x, finite, sign, hsignificand, hsize⟩ :=
        ih (m := 2 * m) (by omega) (by omega) (by omega) (by omega)
      refine ⟨x, finite, sign, hsignificand, ?_⟩
      rw [hsize, show ((n + 1 : Nat) : Int) - 1074 = (n : Int) - 1074 + 1 by omega,
        zpow_add_one₀ (by norm_num)]
      push_cast
      ring

variable {x y : Binary64}

theorem contains_size (positive : 0 < x.significand) :
    (Decimal.Neighbourhood.of x).Contains x.size := by
  have hmid : ((Decimal.Neighbourhood.of x).mid : ℚ) * 2 ^ (Decimal.Neighbourhood.of x).exponent =
      x.size := by
    simp only [Decimal.Neighbourhood.of, size]
    rw [zpow_sub₀ (by norm_num)]
    push_cast
    ring
  have htwo : (0 : ℚ) < 2 ^ (Decimal.Neighbourhood.of x).exponent := zpow_pos (by norm_num) _
  rw [← hmid]
  refine Decimal.Neighbourhood.contains_of_lt ?_ ?_ <;> rw [mul_lt_mul_iff_left₀ htwo]
  · exact_mod_cast Decimal.Neighbourhood.low_of_lt positive
  · exact_mod_cast Decimal.Neighbourhood.mid_of_lt

theorem size_nonneg : 0 ≤ x.size :=
  mul_nonneg (Nat.cast_nonneg _) (zpow_nonneg (by norm_num) _)

theorem size_lt_greatest (h : x.magnitude < 0x7FEFFFFFFFFFFFFE) :
    ((x.significand : ℚ) + 1 / 2) * 2 ^ x.exponent ≤ (2 ^ 53 - 5 / 2) * 2 ^ (971 : Int) := by
  have hmagnitude := x.magnitude_eq
  have hsignificand := x.significand_lt
  have hexponent := x.le_exponent
  have htop : x.exponent ≤ 971 := exponent_le (decide_eq_true (lt_trans h (by decide)))
  rcases Int.lt_or_le x.exponent 971 with hlow | hhigh
  · have hs : (x.significand : ℚ) + 1 ≤ 2 ^ 53 := by exact_mod_cast hsignificand
    calc ((x.significand : ℚ) + 1 / 2) * 2 ^ x.exponent
        ≤ ((x.significand : ℚ) + 1 / 2) * 2 ^ (970 : Int) :=
          mul_le_mul_of_nonneg_left (zpow_le_zpow_right₀ (by norm_num) (by omega)) (by positivity)
      _ ≤ ((2 ^ 53 - 5 / 2) * 2) * 2 ^ (970 : Int) :=
          mul_le_mul_of_nonneg_right (by linarith) (zpow_nonneg (by norm_num) _)
      _ = (2 ^ 53 - 5 / 2) * 2 ^ (971 : Int) := by
          rw [mul_assoc, ← zpow_one_add₀ (by norm_num)]
          rfl
  · have heq : x.exponent = 971 := by omega
    have hnat : x.significand + 3 ≤ 2 ^ 53 := by omega
    have hs : (x.significand : ℚ) + 3 ≤ 2 ^ 53 := by exact_mod_cast hnat
    rw [heq]
    exact mul_le_mul_of_nonneg_right (by linarith) (zpow_nonneg (by norm_num) _)

theorem nearestRatio_of_contains (finite : x.isFinite = true) (positive : 0 < x.significand)
    (negative : Bool) {num den : Nat} (hden : 0 < den)
    (h : (Decimal.Neighbourhood.of x).Contains (num / den)) :
    nearestRatio negative num den = ofMagnitude negative x.magnitude := by
  have hnum : 0 < num := by
    refine Nat.pos_of_ne_zero fun hzero => ?_
    obtain ⟨⟨hlow, -⟩, -⟩ := h.scaled positive
    have hone : (1 : ℚ) ≤ x.significand := by exact_mod_cast positive
    rw [hzero, Nat.cast_zero, zero_div, zero_div] at hlow
    linarith
  rw [nearestRatio, Decimal.nearestMagnitude_of_contains finite positive hnum hden h]

theorem nearestRatio_of_size (finite : y.isFinite = true) (positive : 0 < y.significand)
    (sign : y.isNegative = false) {num den : Nat} (hden : 0 < den)
    (h : (num / den : ℚ) = y.size) : nearestRatio false num den = y := by
  rw [nearestRatio_of_contains finite positive false hden (h ▸ contains_size positive), ← sign,
    ofMagnitude_eta]

theorem ofInt_size {n : Nat} (positive : 0 < n) (h : n ≤ 2 ^ 53) :
    (ofInt n).isFinite = true ∧ (ofInt n).isNegative = false ∧ 0 < (ofInt n).significand ∧
      (ofInt n).size = n := by
  obtain ⟨y, finite, sign, hsignificand, hsize⟩ : ∃ y : Binary64, y.isFinite = true ∧
      y.isNegative = false ∧ 0 < y.significand ∧ y.size = n := by
    rcases Nat.lt_or_eq_of_le h with hlt | rfl
    · simpa using exists_size_eq positive hlt (e := 0) (by norm_num) (by norm_num)
    · obtain ⟨y, finite, sign, hsignificand, hsize⟩ :=
        exists_size_eq (m := 1) (by norm_num) (by norm_num) (e := 53) (by norm_num) (by norm_num)
      refine ⟨y, finite, sign, hsignificand, hsize.trans ?_⟩
      norm_num
  have hofInt : ofInt n = y := by
    rw [ofInt, decide_eq_false (by omega), Int.natAbs_natCast]
    exact nearestRatio_of_size finite hsignificand sign (by norm_num) (by simp [hsize])
  rw [hofInt]
  exact ⟨finite, sign, hsignificand, hsize⟩

theorem not_isNaN_of_isFinite (finite : x.isFinite = true) : x.isNaN = false := by
  have h := of_decide_eq_true finite
  exact decide_eq_false (by omega)

theorem not_isInfinite_of_isFinite (finite : x.isFinite = true) : x.isInfinite = false := by
  have h := of_decide_eq_true finite
  exact decide_eq_false (by omega)

theorem not_isZero_of_significand (positive : 0 < x.significand) : x.isZero = false := by
  refine decide_eq_false fun h => ?_
  have hmagnitude := x.magnitude_eq
  omega

theorem exists_mul_eq (hx : x.isFinite = true) (hy : y.isFinite = true) :
    ∃ num den : Nat, 0 < den ∧ (num / den : ℚ) = x.size * y.size ∧
      x.mul y = nearestRatio (x.isNegative != y.isNegative) num den := by
  refine ⟨x.significand * y.significand * raise 2 (x.exponent + y.exponent),
    raise 2 (-(x.exponent + y.exponent)), raise_pos (by norm_num) _, ?_, ?_⟩
  · have hne : (raise 2 (-(x.exponent + y.exponent)) : ℚ) ≠ 0 :=
      Nat.cast_ne_zero.2 (Nat.ne_of_gt (raise_pos (by norm_num) _))
    rw [Nat.cast_mul, raise_eq 2 (by norm_num), size, size, div_eq_iff hne,
      zpow_add₀ (by norm_num)]
    push_cast
    ring
  · rw [mul, onNumbers, not_isNaN_of_isFinite hx, not_isNaN_of_isFinite hy,
      not_isInfinite_of_isFinite hx, not_isInfinite_of_isFinite hy]
    rfl

theorem exists_div_eq (hx : x.isFinite = true) (hy : y.isFinite = true)
    (positive : 0 < y.significand) :
    ∃ num den : Nat, 0 < den ∧ (num / den : ℚ) = x.size / y.size ∧
      x.div y = nearestRatio (x.isNegative != y.isNegative) num den := by
  refine ⟨x.significand * raise 2 (x.exponent - y.exponent),
    y.significand * raise 2 (-(x.exponent - y.exponent)),
    Nat.mul_pos positive (raise_pos (by norm_num) _), ?_, ?_⟩
  · have hne : (raise 2 (-(x.exponent - y.exponent)) : ℚ) ≠ 0 :=
      Nat.cast_ne_zero.2 (Nat.ne_of_gt (raise_pos (by norm_num) _))
    have hne' : (y.significand : ℚ) ≠ 0 := Nat.cast_ne_zero.2 (Nat.ne_of_gt positive)
    have htwo : (2 : ℚ) ^ y.exponent ≠ 0 := zpow_ne_zero _ (by norm_num)
    rw [Nat.cast_mul, Nat.cast_mul, raise_eq 2 (by norm_num), size, size,
      zpow_sub₀ (by norm_num)]
    push_cast
    field_simp
  · rw [div, onNumbers, not_isNaN_of_isFinite hx, not_isNaN_of_isFinite hy,
      not_isInfinite_of_isFinite hx, not_isInfinite_of_isFinite hy,
      not_isZero_of_significand positive]
    rfl

section

variable {z : Binary64} (hx : x.isFinite = true) (hy : y.isFinite = true)
  (hsign : x.isNegative = y.isNegative) (hz : z.isFinite = true) (positive : 0 < z.significand)

include hx hy hsign hz positive

theorem mul_of_contains (h : (Decimal.Neighbourhood.of z).Contains (x.size * y.size)) :
    x.mul y = ofMagnitude false z.magnitude := by
  obtain ⟨num, den, hden, hratio, hmul⟩ := exists_mul_eq hx hy
  rw [hmul, hsign, bne_self_eq_false]
  exact nearestRatio_of_contains hz positive false hden (hratio ▸ h)

theorem div_of_contains (hy' : 0 < y.significand)
    (h : (Decimal.Neighbourhood.of z).Contains (x.size / y.size)) :
    x.div y = ofMagnitude false z.magnitude := by
  obtain ⟨num, den, hden, hratio, hdiv⟩ := exists_div_eq hx hy hy'
  rw [hdiv, hsign, bne_self_eq_false]
  exact nearestRatio_of_contains hz positive false hden (hratio ▸ h)

end

theorem not_isInfinite_mul (hx : x.isFinite = true) (hy : y.isFinite = true)
    (h : x.size * y.size < (2 ^ 53 - 1 / 2) * 2 ^ (971 : Int)) : (x.mul y).isInfinite = false := by
  obtain ⟨num, den, hden, hratio, hmul⟩ := exists_mul_eq hx hy
  have hlt : nearestMagnitude num den < infinityMagnitude := by
    rcases Nat.eq_zero_or_pos num with rfl | hnum
    · rw [nearestMagnitude, if_pos rfl]
      decide
    · exact nearestMagnitude_lt hnum hden (hratio ▸ h)
  rw [hmul, nearestRatio, isInfinite,
    magnitude_ofMagnitude _ (Nat.lt_trans hlt (by decide))]
  exact decide_eq_false (Nat.ne_of_lt hlt)

theorem ofInt_size_le {n : Nat} (positive : 0 < n) (h : n < 10 ^ 18) :
    (ofInt n).isFinite = true ∧ (ofInt n).isNegative = false ∧ 0 < (ofInt n).significand ∧
      (ofInt n).size ≤ n * (1 + 1 / 2 ^ 53) := by
  have hone : (1 : ℚ) ≤ n := by exact_mod_cast positive
  have hlt : (n : ℚ) < 10 ^ 18 := by exact_mod_cast h
  have hleast : (2 : ℚ) ^ (-1022 : Int) ≤ 1 := zpow_le_one_of_nonpos₀ (by norm_num) (by norm_num)
  have hgreatest : (n : ℚ) < (2 ^ 53 - 1 / 2) * 2 ^ (971 : Int) :=
    calc (n : ℚ) < 10 ^ 18 := hlt
      _ ≤ (2 ^ 53 - 1 / 2) * 2 ^ (10 : Int) := by norm_num
      _ ≤ (2 ^ 53 - 1 / 2) * 2 ^ (971 : Int) :=
        mul_le_mul_of_nonneg_left (zpow_le_zpow_right₀ (by norm_num) (by norm_num)) (by norm_num)
  have hround := @size_nearestRatio_le n 1 positive (by norm_num)
    (by rw [Nat.cast_one, div_one]; linarith) (by rwa [Nat.cast_one, div_one])
  rw [Nat.cast_one, div_one] at hround
  rwa [ofInt, decide_eq_false (by omega), Int.natAbs_natCast]

end Binary64

namespace Json

theorem powerOfTen_size {n : Nat} (h : n ≤ 22) :
    (powerOfTen n).isFinite = true ∧ (powerOfTen n).isNegative = false ∧
      0 < (powerOfTen n).significand ∧ (powerOfTen n).size = 10 ^ n := by
  have hfive : 5 ^ n < 2 ^ 53 :=
    lt_of_le_of_lt (Nat.pow_le_pow_right (by norm_num) h) (by norm_num)
  obtain ⟨y, finite, sign, hsignificand, hsize⟩ :=
    Binary64.exists_size_eq (Nat.pow_pos (by norm_num)) hfive (e := n) (by omega) (by omega)
  have hsize : y.size = 10 ^ n := by
    rw [hsize, zpow_natCast]
    push_cast
    rw [← mul_pow]
    norm_num
  have hpower : powerOfTen n = y := by
    rw [powerOfTen, Binary64.nearestDecimal, if_neg (by norm_num), if_neg (by omega),
      if_neg (by simp; omega)]
    refine Binary64.nearestRatio_of_size finite hsignificand sign (raise_pos (by norm_num) _) ?_
    rw [raise_of_nonpos 10 (e := -(n : Int)) (by omega), hsize, raise, Int.toNat_natCast]
    simp
  rw [hpower]
  exact ⟨finite, sign, hsignificand, hsize⟩

/-- Small digits and a small power of ten are numbers themselves, so what is rounded is the decimal
itself. -/
theorem scale?_eq {x : Binary64} (finite : x.isFinite = true) (positive : 0 < x.significand)
    {n : Nat} {e : Int} (hn : 0 < n) (hn' : n ≤ 2 ^ 53) (he : -22 ≤ e) (he' : e ≤ 22)
    (h : (Decimal.Neighbourhood.of x).Contains (n * 10 ^ e)) :
    scale? n e = some (Binary64.ofMagnitude false x.magnitude) := by
  obtain ⟨hnfinite, hnsign, hnpositive, hnsize⟩ := Binary64.ofInt_size hn hn'
  have hmagnitude := of_decide_eq_true finite
  have hinfinite : (Binary64.ofMagnitude false x.magnitude).isInfinite = false := by
    rw [Binary64.isInfinite, Binary64.magnitude_ofMagnitude false x.magnitude_lt]
    exact decide_eq_false (by omega)
  unfold scale?
  dsimp only
  split
  · rename_i hnonneg
    obtain ⟨hfinite, hsign, hpositive, hsize⟩ := powerOfTen_size (n := e.toNat) (by omega)
    have hproduct : (n * 10 ^ e : ℚ) =
        (Binary64.ofInt n).size * (powerOfTen e.toNat).size := by
      rw [hnsize, hsize, ← zpow_natCast, Int.toNat_of_nonneg hnonneg]
    rw [if_neg (by omega), if_pos (by omega), Binary64.mul_of_contains hnfinite hfinite
      (hnsign.trans hsign.symm) finite positive (hproduct ▸ h), hinfinite]
    rfl
  · obtain ⟨hfinite, hsign, hpositive, hsize⟩ := powerOfTen_size (n := (-e).toNat) (by omega)
    have hratio : (n * 10 ^ e : ℚ) =
        (Binary64.ofInt n).size / (powerOfTen (-e).toNat).size := by
      rw [hnsize, hsize, ← zpow_natCast, Int.toNat_of_nonneg (by omega), zpow_neg]
      simp
    rw [if_pos (by omega), Binary64.div_of_contains hnfinite hfinite (hnsign.trans hsign.symm)
      finite positive hpositive (hratio ▸ h)]

theorem greatest_bounds : (10 : ℚ) ^ 308 < (2 ^ 53 - 1 / 2) * 2 ^ (971 : Int) ∧
    (2 ^ 53 - 1 / 2) * 2 ^ (971 : Int) < (10 : ℚ) ^ 309 := by
  have hnat : 2 * 10 ^ 308 < 18014398509481983 * 2 ^ 971 ∧
      18014398509481983 * 2 ^ 971 < 2 * 10 ^ 309 := by decide +kernel
  have hlow : ((2 * 10 ^ 308 : Nat) : ℚ) < (18014398509481983 * 2 ^ 971 : Nat) :=
    Nat.cast_lt.2 hnat.1
  have hhigh : ((18014398509481983 * 2 ^ 971 : Nat) : ℚ) < (2 * 10 ^ 309 : Nat) :=
    Nat.cast_lt.2 hnat.2
  rw [Nat.cast_mul, Nat.cast_mul, Nat.cast_pow, Nat.cast_pow] at hlow hhigh
  rw [show (2 : ℚ) ^ (971 : Int) = (2 : Nat) ^ 971 from zpow_natCast 2 971,
    show (10 : ℚ) ^ 308 = (10 : Nat) ^ 308 from rfl,
    show (10 : ℚ) ^ 309 = (10 : Nat) ^ 309 from rfl]
  generalize ((10 : Nat) : ℚ) ^ 308 = p at hlow ⊢
  generalize ((10 : Nat) : ℚ) ^ 309 = p' at hhigh ⊢
  generalize ((2 : Nat) : ℚ) ^ 971 = q at hlow hhigh ⊢
  push_cast at hlow hhigh
  constructor <;> linarith

theorem powerOfTen_size_le {n : Nat} (h : n ≤ 308) :
    (powerOfTen n).isFinite = true ∧ 0 < (powerOfTen n).significand ∧
      (powerOfTen n).size ≤ 10 ^ n * (1 + 1 / 2 ^ 53) := by
  have hone : (1 : ℚ) ≤ 10 ^ n := one_le_pow₀ (by norm_num)
  have hleast : (2 : ℚ) ^ (-1022 : Int) ≤ 1 := zpow_le_one_of_nonpos₀ (by norm_num) (by norm_num)
  have hgreatest : (10 ^ n : ℚ) < (2 ^ 53 - 1 / 2) * 2 ^ (971 : Int) :=
    lt_of_le_of_lt (pow_le_pow_right₀ (by norm_num) h) greatest_bounds.1
  have hratio : ((1 * raise 10 n : Nat) : ℚ) / (raise 10 (-(n : Int)) : Nat) = 10 ^ n := by
    rw [raise_of_nonpos 10 (e := -(n : Int)) (by omega), raise, Int.toNat_natCast]
    simp
  have hround := @Binary64.size_nearestRatio_le (1 * raise 10 n) (raise 10 (-(n : Int)))
    (Nat.mul_pos (by norm_num) (raise_pos (by norm_num) _)) (raise_pos (by norm_num) _)
    (by rw [hratio]; linarith) (by rwa [hratio])
  rw [hratio] at hround
  rw [powerOfTen, Binary64.nearestDecimal, if_neg (by norm_num), if_neg (by omega),
    if_neg (by simp; omega)]
  exact ⟨hround.1, hround.2.2⟩

theorem power_le {n m : Nat} (hn : 0 < n)
    (h : (n * 10 ^ m : ℚ) ≤ (2 ^ 53 - 5 / 2) * 2 ^ (971 : Int)) : m ≤ 308 := by
  by_contra hlarge
  have hone : (1 : ℚ) ≤ n := by exact_mod_cast hn
  refine lt_irrefl ((10 : ℚ) ^ 309) ?_
  calc (10 : ℚ) ^ 309
      ≤ 10 ^ m := pow_le_pow_right₀ (by norm_num) (by omega)
    _ ≤ n * 10 ^ m := le_mul_of_one_le_left (pow_nonneg (by norm_num) _) hone
    _ ≤ (2 ^ 53 - 5 / 2) * 2 ^ (971 : Int) := h
    _ ≤ (2 ^ 53 - 1 / 2) * 2 ^ (971 : Int) :=
      mul_le_mul_of_nonneg_right (by norm_num) (zpow_nonneg (by norm_num) _)
    _ < 10 ^ 309 := greatest_bounds.2

/-- Scaling up rounds three times. The first two make the result larger by at most one part in
`2 ^ 53` each, so what stays in range with that much to spare is a number. -/
theorem scale?_isSome {n : Nat} {e : Int} (hn : 0 < n) (hn' : 0 ≤ e → n < 10 ^ 18)
    (h : (n * 10 ^ e : ℚ) ≤ (2 ^ 53 - 5 / 2) * 2 ^ (971 : Int)) :
    (scale? n e).isSome = true := by
  unfold scale?
  dsimp only
  split
  · rename_i hnonneg
    obtain ⟨m, rfl⟩ := Int.eq_ofNat_of_zero_le hnonneg
    rw [zpow_natCast] at h
    have htwo : (0 : ℚ) < 2 ^ (971 : Int) := zpow_pos (by norm_num) _
    have hm := power_le hn h
    obtain ⟨hfinite, -, -, hsize⟩ := Binary64.ofInt_size_le hn (hn' hnonneg)
    obtain ⟨hfinite', -, hsize'⟩ := powerOfTen_size_le hm
    have hproduct : (Binary64.ofInt n).size * (powerOfTen m).size <
        (2 ^ 53 - 1 / 2) * 2 ^ (971 : Int) :=
      calc (Binary64.ofInt n).size * (powerOfTen m).size
          ≤ (n * (1 + 1 / 2 ^ 53)) * (10 ^ m * (1 + 1 / 2 ^ 53)) :=
            mul_le_mul hsize hsize' Binary64.size_nonneg (by positivity)
        _ = n * 10 ^ m * (1 + 1 / 2 ^ 53) ^ 2 := by ring
        _ ≤ (2 ^ 53 - 5 / 2) * 2 ^ (971 : Int) * (1 + 1 / 2 ^ 53) ^ 2 :=
            mul_le_mul_of_nonneg_right h (by positivity)
        _ = (2 ^ 53 - 5 / 2) * (1 + 1 / 2 ^ 53) ^ 2 * 2 ^ (971 : Int) := by ring
        _ < (2 ^ 53 - 1 / 2) * 2 ^ (971 : Int) :=
            mul_lt_mul_of_pos_right (by norm_num) htwo
    rw [if_neg (by omega), if_pos (by omega), Int.toNat_natCast,
      Binary64.not_isInfinite_mul hfinite hfinite' hproduct]
    rfl
  · split
    · rfl
    · split <;> rfl

end Json

namespace Binary64

/-- The digits and the power of ten by which a document gives the absolute value of a number. An
integer that is written in place has a zero behind its point. -/
def written (x : Binary64) : Nat × Int :=
  if x.isZero then (0, -1)
  else
    let (c, k) := Decimal.shortest .even x
    if 0 ≤ k ∧ k + (Decimal.digits c).length ≤ 16 then (c * 10 ^ (k.toNat + 1), -1) else (c, k)

def reread? (x : Binary64) : Option Binary64 :=
  if x.isFinite then
    (Json.scale? x.written.1 x.written.2).map fun y => if x.isNegative then y.neg else y
  else none

variable {x : Binary64}

theorem written_eq (hzero : x.isZero = false) {c : Nat} {k : Int}
    (h : Decimal.shortest .even x = (c, k)) :
    x.written =
      if 0 ≤ k ∧ k + (Decimal.digits c).length ≤ 16 then (c * 10 ^ (k.toNat + 1), -1)
      else (c, k) := by
  rw [written, hzero, h]
  rfl

theorem significand_pos (h : x.isZero = false) : 0 < x.significand := by
  have hne : x.magnitude ≠ 0 := of_decide_eq_false h
  unfold significand
  split <;> omega

/-- What is written lies in the neighbourhood of the number, and its digits are few unless it has a
point. -/
theorem written_spec (finite : x.isFinite = true) (hzero : x.isZero = false) :
    0 < x.written.1 ∧ (Decimal.Neighbourhood.of x).Contains (x.written.1 * 10 ^ x.written.2) ∧
      (0 ≤ x.written.2 → x.written.1 < 10 ^ 18) := by
  have positive := significand_pos hzero
  obtain ⟨c, k, hshortest, hcontains, hstep, -, -⟩ := Decimal.shortest_spec .even finite positive
  obtain ⟨hc, hc'⟩ := Decimal.shortest_coefficient positive hcontains hstep
  rw [written_eq hzero hshortest]
  split
  · rename_i hinteger
    obtain ⟨n, rfl⟩ := Int.eq_ofNat_of_zero_le hinteger.1
    refine ⟨Nat.mul_pos hc (Nat.pow_pos (by norm_num)), ?_, fun h => absurd h (by norm_num)⟩
    have hvalue : (c * 10 ^ (n : Int) : ℚ) = ((c * 10 ^ (n + 1) : Nat) : ℚ) * 10 ^ (-1 : Int) := by
      push_cast
      rw [pow_succ, zpow_natCast, zpow_neg_one]
      field_simp
    exact hvalue ▸ hcontains
  · exact ⟨hc, hcontains, fun _ => hc'⟩

end Binary64

namespace Decimal

theorem interchange_positive {x : Binary64} (hzero : x.isZero = false) {c : Nat} {k : Int}
    (h : shortest .even x = (c, k)) :
    interchange.positive x =
      if -5 ≤ k + (digits c).length - 1 ∧ k + (digits c).length - 1 < 16 then
        placed true (digits c) (k + (digits c).length - 1)
      else withExponent true (digits c) (k + (digits c).length - 1) := by
  have htie : shortest interchange.tie x = (c, k) := h
  have hinPlace : interchange.inPlace (k + (digits c).length - 1) =
      decide (-5 ≤ k + (digits c).length - 1 ∧ k + (digits c).length - 1 < 16) := rfl
  simp only [Layout.positive, hzero, htie, hinPlace, decide_eq_true_eq, Bool.false_eq_true,
    if_false]
  rfl

end Decimal

namespace Json

open Decimal (ofDigits digits)

variable {x : Binary64}

theorem readNumber?_zero (negative : Bool) :
    readNumber? (if negative then '-' :: Decimal.placed true ['0'] 0
        else Decimal.placed true ['0'] 0) = some (ofMagnitude negative (scale? 0 (-1))) :=
  have hdigits : ∀ c ∈ ['0'], c.isDigit = true := fun _ h =>
    Decimal.isDigit_of_mem_zeros (n := 1) h
  readNumber?_integer negative hdigits (fun _ => rfl) (by simp) (by simp) (fun _ => rfl) (by decide)

theorem digits_fit {c k : Nat} (h : k + (digits c).length ≤ 16) :
    c * 10 ^ (k + 1) < 0x10000000000000000 := by
  have hlt : c < 10 ^ (digits c).length :=
    (Nat.length_toDigits_le_iff (by norm_num) Nat.length_toDigits_pos).1 (Nat.le_refl _)
  calc c * 10 ^ (k + 1)
      < 10 ^ (digits c).length * 10 ^ (k + 1) :=
        Nat.mul_lt_mul_of_pos_right hlt (Nat.pow_pos (by norm_num))
    _ = 10 ^ ((digits c).length + (k + 1)) := (Nat.pow_add ..).symm
    _ ≤ 10 ^ 17 := Nat.pow_le_pow_right (by norm_num) (by omega)
    _ < 0x10000000000000000 := by norm_num

/-- The cases are those of the layout: in place as an integer, below one and with a point inside,
and with an exponent. -/
theorem readNumber?_positive (finite : x.isFinite = true) :
    readNumber? (if x.isNegative then '-' :: Decimal.interchange.positive x
        else Decimal.interchange.positive x) =
      some (ofMagnitude x.isNegative (scale? x.written.1 x.written.2)) := by
  cases hzero : x.isZero with
  | true =>
    have hwritten : x.written = (0, -1) := by rw [Binary64.written, hzero]; rfl
    have hpositive : Decimal.interchange.positive x = Decimal.placed true ['0'] 0 := by
      rw [Decimal.Layout.positive, hzero]
      rfl
    rw [hwritten, hpositive, readNumber?_zero]
  | false =>
    have positive := Binary64.significand_pos hzero
    obtain ⟨c, k, hshortest, hcontains, hstep, hk, hk'⟩ :=
      Decimal.shortest_spec .even finite positive
    obtain ⟨hc, hc'⟩ := Decimal.shortest_coefficient positive hcontains hstep
    have hdigits : ∀ d ∈ digits c, d.isDigit = true := fun _ => Decimal.isDigit_of_mem_digits
    have hne : digits c ≠ [] := Nat.toDigits_ne_nil
    have hlead : (digits c).head? ≠ some '0' := Decimal.head_digits_ne_zero (by omega)
    have hvalue : ofDigits (digits c) = c := Decimal.ofDigits_toDigits c
    have hfits : ofDigits (digits c) < 0x10000000000000000 := by omega
    have hlength : (digits c).length ≤ 18 :=
      (Nat.length_toDigits_le_iff (by norm_num) (by norm_num)).2 hc'
    have hpos : 0 < (digits c).length := Nat.length_toDigits_pos
    have hwritten := Binary64.written_eq hzero hshortest
    have hpositive := Decimal.interchange_positive hzero hshortest
    obtain ⟨p, hp⟩ : ∃ p, p = k + (digits c).length - 1 := ⟨_, rfl⟩
    have hscale : p + 1 - (digits c).length = k := by omega
    rw [← hp] at hpositive
    by_cases hplace : -5 ≤ p ∧ p < 16
    · rw [if_pos hplace] at hpositive
      by_cases hinteger : 0 ≤ k
      · rw [if_pos ⟨hinteger, by omega⟩] at hwritten
        have hpower : (p + 2 - (digits c).length).toNat = k.toNat + 1 := by omega
        have hread := readNumber?_integer x.isNegative hdigits
          (fun h => absurd h hlead) hne (p := p) (by omega) (fun h => absurd h hlead)
          (by rw [hvalue, hpower]; exact digits_fit (by omega))
        rw [hwritten]
        rwa [hvalue, hpower, ← hpositive] at hread
      · rw [if_neg (by omega)] at hwritten
        by_cases hbelow : p < 0
        · have hread := readNumber?_below x.isNegative hdigits hne hbelow hfits
          rw [hwritten]
          rwa [hvalue, hscale, ← hpositive] at hread
        · have hread := readNumber?_inside x.isNegative hdigits
            (fun h => absurd h hlead) (p := p) (by omega) (by omega) hfits
          rw [hwritten]
          rwa [hvalue, hscale, ← hpositive] at hread
    · rw [if_neg hplace] at hpositive
      rw [if_neg (by omega)] at hwritten
      have hread := readNumber?_withExponent x.isNegative hdigits hne (p := p)
        (by omega) hfits
      rw [hwritten]
      rwa [hvalue, hscale, ← hpositive] at hread

theorem readNumber?_writeReal (finite : x.isFinite = true) :
    readNumber? (writeReal x) = some (x.reread?.elim .unreadable .real) := by
  have hread : readNumber? (writeReal x) =
      some (ofMagnitude x.isNegative (scale? x.written.1 x.written.2)) := by
    rw [writeReal, if_pos finite, Decimal.Layout.chars,
      Binary64.not_isNaN_of_isFinite finite, Binary64.not_isInfinite_of_isFinite finite]
    exact readNumber?_positive finite
  rw [hread, Binary64.reread?, if_pos finite]
  cases scale? x.written.1 x.written.2 <;> rfl

end Json

namespace Binary64

variable {x : Binary64}

/-- The two greatest numbers stay in range as well. -/
theorem reread?_greatest : ∀ negative, ∀ m ∈ [0x7FEFFFFFFFFFFFFE, 0x7FEFFFFFFFFFFFFF],
    (ofMagnitude negative m).reread?.isSome = true := by decide +kernel

theorem reread?_isSome (finite : x.isFinite = true) : x.reread?.isSome = true := by
  by_cases hgreatest : 0x7FEFFFFFFFFFFFFE ≤ x.magnitude
  · have hlt : x.magnitude < 0x7FF0000000000000 := of_decide_eq_true finite
    rw [← x.ofMagnitude_eta]
    exact reread?_greatest x.isNegative x.magnitude (by simp; omega)
  · have hscale : (Json.scale? x.written.1 x.written.2).isSome = true := by
      cases hzero : x.isZero with
      | true =>
        rw [written, hzero]
        rfl
      | false =>
        have htwo : (0 : ℚ) < 2 ^ x.exponent := zpow_pos (by norm_num) _
        obtain ⟨hpositive, hcontains, hfew⟩ := written_spec finite hzero
        obtain ⟨⟨-, hhigh, -⟩, -⟩ := hcontains.scaled (significand_pos hzero)
        exact Json.scale?_isSome hpositive hfew
          (((div_le_iff₀ htwo).1 hhigh).trans (size_lt_greatest (not_le.1 hgreatest)))
    rw [reread?, if_pos finite, Option.isSome_map, hscale]

theorem reread?_eq_some (finite : x.isFinite = true)
    (hdigits : x.written.1 ≤ 2 ^ 53) (hpower : x.written.2.natAbs ≤ 22) :
    x.reread? = some x := by
  have hmagnitude : Json.scale? x.written.1 x.written.2 = some (ofMagnitude false x.magnitude) := by
    cases hzero : x.isZero with
    | true =>
      have hwritten : x.written = (0, -1) := by rw [written, hzero]; rfl
      rw [hwritten, show x.magnitude = 0 from of_decide_eq_true hzero]
      decide
    | false =>
      obtain ⟨hpositive, hcontains, -⟩ := written_spec finite hzero
      exact Json.scale?_eq finite (significand_pos hzero) hpositive hdigits (by omega) (by omega)
        hcontains
  rw [reread?, if_pos finite, hmagnitude, Option.map_some]
  congr 1
  refine eq_of_parts ?_ ?_
  · cases hsign : x.isNegative <;> simp [neg, magnitude_lt]
  · cases hsign : x.isNegative <;> simp [neg, magnitude_lt]

end Binary64

end Tabular
