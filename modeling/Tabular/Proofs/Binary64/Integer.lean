import Tabular.Binary64.Rounding
import Tabular.Storage
import Mathlib

/-!
Integers as real numbers. Up to `2 ^ 53` they are exact; above, each is rounded to another integer.
Rounding keeps their order, but makes some of them equal. A word is rounded to a number that is no
word exactly where it is rounded up to `2 ^ 63`, and an integer that is no word is rounded to a word
exactly where it is rounded up to `-2 ^ 63`.
-/
namespace Tabular

theorem raise_of_toNat (base : Nat) {e : Int} {n : Nat} (h : e.toNat = n) :
    raise base e = base ^ n := h ▸ rfl

namespace Binary64

theorem floorLog2_one {n : Nat} (hn : n ≠ 0) : floorLog2 n 1 = n.log2 := by
  have hle : 1 * raise 2 (n.log2 : Int) ≤ n * raise 2 (-(n.log2 : Int)) := by
    rw [raise_of_toNat 2 (Int.toNat_natCast _), raise_of_nonpos 2 (by omega), Nat.one_mul,
      Nat.mul_one]
    exact Nat.log2_self_le hn
  have hone : (Nat.log2 1 : Int) = 0 := by decide
  rw [floorLog2, hone, Int.sub_zero, if_pos hle]

theorem roundHalfEven_one (n : Nat) : roundHalfEven n 1 = n := by
  simp [roundHalfEven, Nat.mod_one]

theorem le_roundHalfEven (num den : Nat) : num / den ≤ roundHalfEven num den := by
  unfold roundHalfEven
  dsimp only
  split_ifs <;> omega

theorem roundHalfEven_le (num den : Nat) : roundHalfEven num den ≤ num / den + 1 := by
  unfold roundHalfEven
  dsimp only
  split_ifs <;> omega

theorem roundHalfEven_mono {m n : Nat} (h : m ≤ n) (den : Nat) :
    roundHalfEven m den ≤ roundHalfEven n den := by
  rcases Nat.lt_or_eq_of_le (Nat.div_le_div_right (c := den) h) with hlt | heq
  · calc roundHalfEven m den ≤ m / den + 1 := roundHalfEven_le m den
      _ ≤ n / den := hlt
      _ ≤ roundHalfEven n den := le_roundHalfEven n den
  · have hm := Nat.div_add_mod m den
    have hn := Nat.div_add_mod n den
    rw [heq] at hm
    unfold roundHalfEven
    dsimp only
    rw [heq]
    split_ifs <;> omega

/-- The 53 leading bits of a number, rounded. Rounding up may give one bit more. -/
def leading (n : Nat) : Nat := roundHalfEven (n * 2 ^ (52 - n.log2)) (2 ^ (n.log2 - 52))

theorem leading_of_lt {n : Nat} (h : n.log2 ≤ 52) : leading n = n * 2 ^ (52 - n.log2) := by
  rw [leading, Nat.sub_eq_zero_of_le h, Nat.pow_zero, roundHalfEven_one]

theorem leading_of_le {n : Nat} (h : 52 ≤ n.log2) :
    leading n = roundHalfEven n (2 ^ (n.log2 - 52)) := by
  rw [leading, Nat.sub_eq_zero_of_le h, Nat.pow_zero, Nat.mul_one]

theorem leading_bounds {n : Nat} (hn : n ≠ 0) : 2 ^ 52 ≤ leading n ∧ leading n ≤ 2 ^ 53 := by
  have hle : 2 ^ n.log2 ≤ n := Nat.log2_self_le hn
  have hlt : n < 2 ^ (n.log2 + 1) := Nat.lt_log2_self
  rcases Nat.le_total n.log2 52 with h | h
  · obtain ⟨j, hj⟩ := Nat.exists_eq_add_of_le h
    rw [leading_of_lt h, show 52 - n.log2 = j by omega]
    constructor
    · calc 2 ^ 52 = 2 ^ n.log2 * 2 ^ j := by rw [← Nat.pow_add, ← hj]
        _ ≤ n * 2 ^ j := Nat.mul_le_mul_right _ hle
    · calc n * 2 ^ j ≤ 2 ^ (n.log2 + 1) * 2 ^ j := Nat.mul_le_mul_right _ (Nat.le_of_lt hlt)
        _ = 2 ^ 53 := by
          rw [← Nat.pow_add]
          congr 1
          omega
  · obtain ⟨j, hj⟩ := Nat.exists_eq_add_of_le h
    rw [leading_of_le h, show n.log2 - 52 = j by omega]
    have hdiv : 2 ^ 52 ≤ n / 2 ^ j := by
      rw [Nat.le_div_iff_mul_le (Nat.two_pow_pos j), ← Nat.pow_add, ← hj]
      exact hle
    have hdiv' : n / 2 ^ j < 2 ^ 53 := by
      rw [Nat.div_lt_iff_lt_mul (Nat.two_pow_pos j), ← Nat.pow_add]
      rwa [hj, Nat.add_right_comm] at hlt
    exact ⟨Nat.le_trans hdiv (le_roundHalfEven _ _), Nat.le_trans (roundHalfEven_le _ _) hdiv'⟩

theorem leading_mono {m n : Nat} (h : m ≤ n) (hlog : m.log2 = n.log2) : leading m ≤ leading n := by
  unfold leading
  rw [hlog]
  exact roundHalfEven_mono (Nat.mul_le_mul_right _ h) _

theorem nearestMagnitude_eq_min {n : Nat} (hn : n ≠ 0) :
    nearestMagnitude n 1 =
      min ((1022 + n.log2) * 0x10000000000000 + leading n) infinityMagnitude := by
  have he : max (floorLog2 n 1 - 52) (-1074) = (n.log2 : Int) - 52 := by
    rw [floorLog2_one hn]
    omega
  have hup : raise 2 (-((n.log2 : Int) - 52)) = 2 ^ (52 - n.log2) := raise_of_toNat 2 (by omega)
  have hdown : raise 2 ((n.log2 : Int) - 52) = 2 ^ (n.log2 - 52) := raise_of_toNat 2 (by omega)
  have hexponent : ((n.log2 : Int) - 52 + 1074).toNat = 1022 + n.log2 := by omega
  simp only [nearestMagnitude, hn, if_false, he, hup, hdown, Nat.one_mul, hexponent, leading]

theorem nearestMagnitude_one {n : Nat} (hn : n ≠ 0) (hlog : n.log2 < 1000) :
    nearestMagnitude n 1 = (1022 + n.log2) * 0x10000000000000 + leading n := by
  obtain ⟨-, hhigh⟩ := leading_bounds hn
  rw [nearestMagnitude_eq_min hn, Nat.min_eq_left]
  unfold infinityMagnitude
  omega

theorem nearestMagnitude_mono {m n : Nat} (h : m ≤ n) (hlog : n.log2 < 1000) :
    nearestMagnitude m 1 ≤ nearestMagnitude n 1 := by
  by_cases hm : m = 0
  · simp [hm, nearestMagnitude]
  have hn : n ≠ 0 := by omega
  have hle : m.log2 ≤ n.log2 := (Nat.le_log2 hn).2 (Nat.le_trans (Nat.log2_self_le hm) h)
  rw [nearestMagnitude_one hm (by omega), nearestMagnitude_one hn hlog]
  obtain ⟨-, hhigh⟩ := leading_bounds hm
  obtain ⟨hlow, -⟩ := leading_bounds hn
  rcases Nat.lt_or_eq_of_le hle with hlt | heq
  · omega
  · have hleading := leading_mono h heq
    omega

theorem toInt?_of_scaled {x : Binary64} (finite : x.isFinite = true) {v : Nat}
    (h : x.significand * raise 2 x.exponent = v * raise 2 (-x.exponent)) :
    x.toInt? = some (if x.isNegative then -(v : Int) else v) := by
  have hdown : 0 < raise 2 (-x.exponent) := raise_pos (by decide) _
  simp only [toInt?, finite, if_true, h, Nat.mul_mod_left, Nat.mul_div_cancel v hdown]

/-- An integer read back from a magnitude. If its bits have been rounded up to one bit more, the
magnitude is that of the next power. -/
theorem toInt?_ofMagnitude {l q : Nat} (negative : Bool) (hl : l < 1000) (hq : 2 ^ 52 ≤ q)
    (hq' : q ≤ 2 ^ 53) {v : Nat} (hv : q * 2 ^ (l - 52) = v * 2 ^ (52 - l)) :
    (ofMagnitude negative ((1022 + l) * 0x10000000000000 + q)).toInt? =
      some (if negative then -(v : Int) else v) := by
  have hlt : (1022 + l) * 0x10000000000000 + q < 0x7FF0000000000000 := by omega
  have hm := magnitude_ofMagnitude negative (m := (1022 + l) * 0x10000000000000 + q) (by omega)
  have hs := isNegative_ofMagnitude negative (m := (1022 + l) * 0x10000000000000 + q) (by omega)
  generalize ofMagnitude negative ((1022 + l) * 0x10000000000000 + q) = x at hm hs ⊢
  have hfinite : x.isFinite = true := by simpa [isFinite, hm, infinityMagnitude] using hlt
  rw [← hs]
  refine toInt?_of_scaled hfinite ?_
  -- with one bit more, the carry goes into the exponent and leaves the least significand
  rcases Nat.lt_or_eq_of_le hq' with hq' | rfl
  · have hexponent : x.exponent = (l : Int) - 52 := by
      rw [exponent, hm]
      omega
    have hsignificand : x.significand = q := by
      rw [significand, hm, if_neg (by omega)]
      omega
    rw [hsignificand, hexponent, raise_of_toNat 2 (n := l - 52) (by omega),
      raise_of_toNat 2 (n := 52 - l) (by omega), hv]
  · have hexponent : x.exponent = (l : Int) - 51 := by
      rw [exponent, hm]
      omega
    have hsignificand : x.significand = 2 ^ 52 := by
      rw [significand, hm, if_neg (by omega)]
      omega
    rw [hsignificand, hexponent, raise_of_toNat 2 (n := l - 51) (by omega),
      raise_of_toNat 2 (n := 51 - l) (by omega)]
    rcases Nat.lt_or_ge l 52 with h | h
    · have hdouble : v * 2 ^ (52 - l) = v * 2 ^ (51 - l) * 2 := by
        rw [Nat.mul_assoc, ← Nat.pow_succ, show (51 - l).succ = 52 - l by omega]
      rw [hdouble, show l - 52 = 0 by omega] at hv
      rw [show l - 51 = 0 by omega]
      omega
    · have hdouble : 2 ^ (l - 51) = 2 ^ (l - 52) * 2 := by
        rw [← Nat.pow_succ, show (l - 52).succ = l - 51 by omega]
      rw [show 52 - l = 0 by omega] at hv
      rw [hdouble, show 51 - l = 0 by omega]
      omega

theorem toInt?_of_isZero {x : Binary64} (h : x.magnitude = 0) : x.toInt? = some 0 := by
  have hfinite : x.isFinite = true := by simp [isFinite, h, infinityMagnitude]
  have hsignificand : x.significand = 0 := by simp [significand, h]
  rw [toInt?_of_scaled (v := 0) hfinite (by rw [hsignificand, Nat.zero_mul, Nat.zero_mul])]
  simp

theorem toInt?_ofInt {n : Int} (hn : n ≠ 0) (hlog : n.natAbs.log2 < 1000) {v : Nat}
    (hv : leading n.natAbs * 2 ^ (n.natAbs.log2 - 52) = v * 2 ^ (52 - n.natAbs.log2)) :
    (ofInt n).toInt? = some (if n < 0 then -(v : Int) else v) := by
  have hne : n.natAbs ≠ 0 := Int.natAbs_ne_zero.2 hn
  obtain ⟨hq, hq'⟩ := leading_bounds hne
  rw [ofInt, nearestRatio, nearestMagnitude_one hne hlog, toInt?_ofMagnitude _ hlog hq hq' hv]
  simp

theorem toInt?_ofInt_of_le {n : Int} (h : n.natAbs ≤ 2 ^ 53) : (ofInt n).toInt? = some n := by
  by_cases hn : n = 0
  · subst hn
    exact toInt?_of_isZero (by decide)
  rcases Nat.lt_or_eq_of_le h with hlt | heq
  · have hlog : n.natAbs.log2 ≤ 52 :=
      Nat.le_of_lt_succ ((Nat.log2_lt (Int.natAbs_ne_zero.2 hn)).2 hlt)
    have hexact : leading n.natAbs * 2 ^ (n.natAbs.log2 - 52) =
        n.natAbs * 2 ^ (52 - n.natAbs.log2) := by
      rw [leading_of_lt hlog, Nat.sub_eq_zero_of_le hlog, Nat.pow_zero, Nat.mul_one]
    rw [toInt?_ofInt hn (by omega) hexact]
    split_ifs <;> congr 1 <;> omega
  · rcases Int.natAbs_eq n with hpos | hneg
    · rw [hpos, heq]
      decide
    · rw [hneg, heq]
      decide

/-- Integers up to `2 ^ 63` are rounded to such integers, and to `2 ^ 63` itself only within a
distance of 512 below it. -/
theorem exists_toInt?_ofInt {n : Int} (h : n.natAbs ≤ 2 ^ 63) :
    ∃ v : Nat, (ofInt n).toInt? = some (if n < 0 then -(v : Int) else v) ∧ v ≤ 2 ^ 63 ∧
      (v = 2 ^ 63 → 2 ^ 63 - 512 ≤ n.natAbs) := by
  rcases Nat.le_total n.natAbs (2 ^ 53) with hsmall | hlarge
  · refine ⟨n.natAbs, ?_, by omega, by omega⟩
    rw [toInt?_ofInt_of_le hsmall]
    split_ifs <;> congr 1 <;> omega
  have hne : n.natAbs ≠ 0 := by omega
  have hle := Nat.log2_self_le hne
  have hlog : n.natAbs.log2 < 64 := (Nat.log2_lt hne).2 (by omega)
  have hlog' : 52 ≤ n.natAbs.log2 := (Nat.le_log2 hne).2 (by omega)
  refine ⟨leading n.natAbs * 2 ^ (n.natAbs.log2 - 52),
    toInt?_ofInt (Int.natAbs_ne_zero.1 hne) (by omega) ?_, ?_⟩
  · rw [Nat.sub_eq_zero_of_le hlog', Nat.pow_zero, Nat.mul_one]
  obtain ⟨-, hq⟩ := leading_bounds hne
  have hleading := leading_of_le hlog'
  rcases Nat.lt_trichotomy n.natAbs.log2 62 with hlt | heq | hgt
  · have hpow : 2 ^ (n.natAbs.log2 - 52) ≤ 2 ^ 9 := Nat.pow_le_pow_right (by decide) (by omega)
    have hmul : leading n.natAbs * 2 ^ (n.natAbs.log2 - 52) ≤ 2 ^ 53 * 2 ^ 9 :=
      Nat.mul_le_mul hq hpow
    omega
  · rw [heq] at hleading ⊢
    unfold roundHalfEven at hleading
    dsimp only at hleading
    split_ifs at hleading <;> omega
  · have hmax : n.natAbs = 2 ^ 63 := by
      rw [show n.natAbs.log2 = 63 by omega] at hle
      omega
    rw [hmax]
    decide

theorem ofInt_of_le {n : Int} (hn : 2 ^ 63 - 512 ≤ n) (hn' : n < 2 ^ 63) :
    ofInt n = ofInt (2 ^ 63) := by
  have hne : n.natAbs ≠ 0 := by omega
  have hlog : n.natAbs.log2 = 62 := (Nat.log2_eq_iff hne).2 (by omega)
  have hleading : leading n.natAbs = 2 ^ 53 := by
    rw [leading_of_le (by omega), hlog]
    unfold roundHalfEven
    dsimp only
    split_ifs <;> omega
  have hmagnitude : nearestMagnitude n.natAbs 1 = nearestMagnitude (2 ^ 63) 1 := by
    rw [nearestMagnitude_one hne (by omega), hlog, hleading]
    decide
  have hsign : decide (n < 0) = false := decide_eq_false (by omega)
  rw [ofInt, ofInt, nearestRatio, nearestRatio, hsign, hmagnitude]
  rfl

theorem eq_or_isZero_of_sameNumber {x y : Binary64} (h : x.sameNumber y = true) :
    x = y ∨ x.magnitude = 0 ∧ y.magnitude = 0 := by
  have hposition : x.position = y.position := by
    simp only [sameNumber, Bool.and_eq_true, decide_eq_true_eq] at h
    exact h.2
  unfold position at hposition
  by_cases hzero : x.magnitude = 0
  · right
    rw [hzero] at hposition
    split_ifs at hposition <;> omega
  · left
    apply eq_of_parts
    · cases hx : x.isNegative <;> cases hy : y.isNegative <;>
        simp only [hx, hy, Bool.false_eq_true, if_false, if_true] at hposition <;>
        first | rfl | omega
    · split_ifs at hposition <;> omega

theorem toInt?_congr {x y : Binary64} (h : x.sameNumber y = true) : x.toInt? = y.toInt? := by
  rcases eq_or_isZero_of_sameNumber h with rfl | ⟨hx, hy⟩
  · rfl
  · rw [toInt?_of_isZero hx, toInt?_of_isZero hy]

theorem rank_ofInt (n : Int) :
    (ofInt n).rank = if n < 0 then -(nearestMagnitude n.natAbs 1 : Int) - 1
      else nearestMagnitude n.natAbs 1 := by
  have hlt : nearestMagnitude n.natAbs 1 < 0x8000000000000000 :=
    Nat.lt_of_le_of_lt (nearestMagnitude_le n.natAbs 1) (by decide)
  simp only [ofInt, nearestRatio, rank, magnitude_ofMagnitude _ hlt, isNegative_ofMagnitude _ hlt,
    decide_eq_true_eq]

theorem log2_natAbs_toInt_lt (n : Int64) : n.toInt.natAbs.log2 < 1000 := by
  have hlow := n.le_toInt
  have hhigh := n.toInt_lt
  by_cases hn : n.toInt.natAbs = 0
  · rw [hn]
    decide
  · have : n.toInt.natAbs.log2 < 64 := (Nat.log2_lt hn).2 (by omega)
    omega

/-- Rounding keeps the order of words, though it may make some of them equal. -/
theorem rank_ofInt_mono {m n : Int64} (h : m.toInt ≤ n.toInt) :
    (ofInt m.toInt).rank ≤ (ofInt n.toInt).rank := by
  rw [rank_ofInt, rank_ofInt]
  split_ifs with hm hn
  · have := nearestMagnitude_mono (m := n.toInt.natAbs) (n := m.toInt.natAbs) (by omega)
      (log2_natAbs_toInt_lt m)
    omega
  · omega
  · omega
  · have := nearestMagnitude_mono (m := m.toInt.natAbs) (n := n.toInt.natAbs) (by omega)
      (log2_natAbs_toInt_lt n)
    omega

theorem integral?_of_magnitude_ge {x : Binary64} (h : 1087 * 0x10000000000000 ≤ x.magnitude) :
    integral? x = none := by
  cases hfinite : x.isFinite with
  | false => simp [integral?, toInt?, hfinite]
  | true =>
    have hsignificand : 2 ^ 52 ≤ x.significand := by
      rw [significand, if_neg (by omega)]
      omega
    have hexponent : 12 ≤ x.exponent := by
      unfold exponent
      omega
    obtain ⟨e, he⟩ := Int.eq_ofNat_of_zero_le (a := x.exponent) (by omega)
    have hvalue : x.significand * raise 2 x.exponent =
        x.significand * 2 ^ e * raise 2 (-x.exponent) := by
      rw [raise_of_toNat 2 (n := e) (by omega), raise_of_nonpos 2 (by omega), Nat.mul_one]
    have hlarge : 2 ^ 64 ≤ x.significand * 2 ^ e :=
      calc 2 ^ 64 = 2 ^ 52 * 2 ^ 12 := rfl
        _ ≤ x.significand * 2 ^ e :=
          Nat.mul_le_mul hsignificand (Nat.pow_le_pow_right (by decide) (by omega))
    rw [integral?, toInt?_of_scaled hfinite hvalue, Option.bind_eq_bind, Option.bind_some,
      toWord?_eq_none_iff]
    split_ifs <;> omega

/-- Between `2 ^ 63` and `2 ^ 64` integers are rounded to multiples of `2 ^ 11`, and to `2 ^ 63`
from a distance of up to 1024 above it. -/
theorem exists_toInt?_ofInt_of_log2_eq {n : Int} (h : n.natAbs.log2 = 63) :
    ∃ v : Nat, (ofInt n).toInt? = some (if n < 0 then -(v : Int) else v) ∧ 2 ^ 63 ≤ v ∧
      (v = 2 ^ 63 ↔ n.natAbs ≤ 2 ^ 63 + 1024) := by
  have hne : n.natAbs ≠ 0 := by
    intro hzero
    rw [hzero] at h
    cases h
  obtain ⟨hlow, hhigh⟩ := (Nat.log2_eq_iff hne).1 h
  have hleading := leading_of_le (n := n.natAbs) (by omega)
  rw [h] at hleading
  refine ⟨leading n.natAbs * 2 ^ 11, toInt?_ofInt (Int.natAbs_ne_zero.1 hne) (by omega) ?_, ?_⟩
  · rw [h, show 52 - 63 = 0 from rfl, Nat.pow_zero, Nat.mul_one]
  unfold roundHalfEven at hleading
  dsimp only at hleading
  split_ifs at hleading <;> omega

end Binary64

theorem integral?_ofInt_eq_none_iff (n : Int64) :
    integral? (Binary64.ofInt n.toInt) = none ↔ 2 ^ 63 - 512 ≤ n.toInt := by
  have hlow := n.le_toInt
  have hhigh := n.toInt_lt
  constructor
  · intro h
    obtain ⟨v, hv, hle, hmax⟩ := Binary64.exists_toInt?_ofInt (n := n.toInt) (by omega)
    rw [integral?, hv, Option.bind_eq_bind, Option.bind_some, toWord?_eq_none_iff] at h
    split_ifs at h <;> omega
  · intro h
    rw [Binary64.ofInt_of_le h hhigh]
    decide

/-- An integer that is no word becomes a word as a real number only where it is rounded up to the
least word. -/
theorem integral?_ofInt_of_not_word {n : Int} (h : toWord? n = none) :
    integral? (Binary64.ofInt n) =
      if -2 ^ 63 - 1024 ≤ n ∧ n < 0 then some Int64.minValue else none := by
  rw [toWord?_eq_none_iff] at h
  have hne : n.natAbs ≠ 0 := by omega
  have hlog : 63 ≤ n.natAbs.log2 := (Nat.le_log2 hne).2 (by omega)
  rcases Nat.lt_or_eq_of_le hlog with hlog | hlog
  · have hlarge : 2 ^ 64 ≤ n.natAbs := (Nat.le_log2 hne).1 hlog
    rw [if_neg (by omega)]
    apply Binary64.integral?_of_magnitude_ge
    have hmagnitude := Binary64.nearestMagnitude_le n.natAbs 1
    rw [Binary64.ofInt, Binary64.nearestRatio, Binary64.magnitude_ofMagnitude _
      (Nat.lt_of_le_of_lt hmagnitude (by decide)), Binary64.nearestMagnitude_eq_min hne]
    obtain ⟨hlow, -⟩ := Binary64.leading_bounds hne
    unfold Binary64.infinityMagnitude
    omega
  · obtain ⟨v, hv, hle, hmin⟩ := Binary64.exists_toInt?_ofInt_of_log2_eq hlog.symm
    rw [integral?, hv, Option.bind_eq_bind, Option.bind_some]
    split_ifs with hneg hstrip hstrip
    · have hleast : v = 2 ^ 63 := hmin.2 (by omega)
      rw [hleast]
      rfl
    · rw [toWord?_eq_none_iff]
      omega
    · omega
    · rw [toWord?_eq_none_iff]
      omega

end Tabular
