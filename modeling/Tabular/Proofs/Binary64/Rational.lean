import Tabular.Binary64.Arithmetic
import Mathlib.Algebra.Order.Field.Power
import Mathlib.Data.Rat.Cast.Order
import Mathlib.Data.Rat.Floor
import Mathlib.Tactic.FieldSimp
import Mathlib.Tactic.Linarith
import Mathlib.Tactic.NormNum
import Mathlib.Tactic.Positivity
import Mathlib.Tactic.Ring

/-!
Numbers as rationals. Rounding is specified by the interval of the rationals that go to one number,
and the arithmetic by the rationals that are rounded.
-/
namespace Tabular

theorem raise_eq (base : Nat) (h : base ≠ 0) (e : Int) :
    (raise base e : ℚ) = (base : ℚ) ^ e * raise base (-e) := by
  have hbase : (base : ℚ) ≠ 0 := Nat.cast_ne_zero.2 h
  have hpow : ∀ n : Nat, ((Nat.pow base n : Nat) : ℚ) = (base : ℚ) ^ (n : Int) := fun n => by
    rw [zpow_natCast]
    exact Nat.cast_pow base n
  rw [raise, raise, hpow, hpow, ← zpow_add₀ hbase]
  congr 1
  omega

namespace Binary64

/-- The absolute value of a finite number. -/
def size (x : Binary64) : ℚ := x.significand * 2 ^ x.exponent

theorem significand_lt (x : Binary64) : x.significand < 2 ^ 53 := by
  unfold significand
  split <;> omega

theorem le_exponent (x : Binary64) : -1074 ≤ x.exponent := by
  unfold exponent
  omega

theorem exponent_le {x : Binary64} (finite : x.isFinite = true) : x.exponent ≤ 971 := by
  have h : x.magnitude < 0x7FF0000000000000 := of_decide_eq_true finite
  unfold exponent
  omega

theorem le_significand_or (x : Binary64) : 2 ^ 52 ≤ x.significand ∨ x.exponent = -1074 := by
  unfold significand exponent
  split <;> omega

theorem magnitude_eq (x : Binary64) :
    x.magnitude = (x.exponent + 1074).toNat * 0x10000000000000 + x.significand := by
  unfold significand exponent
  split <;> omega

/-- The rational rounds to the integer, a tie to the even one. -/
def RoundsTo (r : ℚ) (q : Nat) : Prop :=
  (q : ℚ) - 1 / 2 ≤ r ∧ r ≤ q + 1 / 2 ∧ (q % 2 = 1 → (q : ℚ) - 1 / 2 < r ∧ r < q + 1 / 2)

theorem roundHalfEven_eq {num den q : Nat} (hden : 0 < den) (h : RoundsTo (num / den) q) :
    roundHalfEven num den = q := by
  have hpos : (0 : ℚ) < den := Nat.cast_pos.2 hden
  obtain ⟨hlow, hhigh, hodd⟩ := h
  have hlow : 2 * (den * q) ≤ 2 * num + den := by
    rw [le_div_iff₀ hpos] at hlow
    have h : (2 * (den * q) : ℚ) ≤ 2 * num + den := by linarith
    exact_mod_cast h
  have hhigh : 2 * num ≤ 2 * (den * q) + den := by
    rw [div_le_iff₀ hpos] at hhigh
    have h : (2 * num : ℚ) ≤ 2 * (den * q) + den := by linarith
    exact_mod_cast h
  have hodd : q % 2 = 1 → 2 * (den * q) < 2 * num + den ∧ 2 * num < 2 * (den * q) + den := by
    intro hq
    obtain ⟨hl, hh⟩ := hodd hq
    rw [lt_div_iff₀ hpos] at hl
    rw [div_lt_iff₀ hpos] at hh
    have hl : (2 * (den * q) : ℚ) < 2 * num + den := by linarith
    have hh : (2 * num : ℚ) < 2 * (den * q) + den := by linarith
    exact ⟨by exact_mod_cast hl, by exact_mod_cast hh⟩
  have hsum := Nat.div_add_mod num den
  have hmod := Nat.mod_lt num hden
  have hle : num / den ≤ q := by
    by_contra hlt
    have h := Nat.mul_le_mul_left den (Nat.succ_le_of_lt (Nat.lt_of_not_le hlt))
    rw [Nat.mul_succ] at h
    omega
  have hge : q ≤ num / den + 1 := by
    by_contra hlt
    have h := Nat.mul_le_mul_left den (Nat.succ_le_of_lt (Nat.lt_of_not_le hlt))
    rw [Nat.mul_succ, Nat.mul_add_one] at h
    omega
  unfold roundHalfEven
  dsimp only
  rcases Nat.lt_or_eq_of_le hle with hlt | rfl
  · obtain rfl : q = num / den + 1 := by omega
    rw [Nat.mul_add_one] at hlow hodd
    rw [if_neg (by omega)]
    split
    · rfl
    · rw [if_neg (by omega)]
  · split
    · rfl
    · rw [if_neg (by omega), if_pos (by omega)]

theorem log2_bounds {n : Nat} (h : 0 < n) :
    (2 : ℚ) ^ (n.log2 : Int) ≤ n ∧ (n : ℚ) < 2 ^ ((n.log2 : Int) + 1) := by
  rw [← Nat.cast_succ, zpow_natCast, zpow_natCast]
  exact ⟨by exact_mod_cast Nat.log2_self_le (Nat.ne_of_gt h), by exact_mod_cast Nat.lt_log2_self⟩

theorem floorLog2_spec {num den : Nat} (hnum : 0 < num) (hden : 0 < den) :
    (2 : ℚ) ^ floorLog2 num den ≤ num / den ∧ (num / den : ℚ) < 2 ^ (floorLog2 num den + 1) := by
  have hpos : (0 : ℚ) < den := Nat.cast_pos.2 hden
  obtain ⟨hlow, hhigh⟩ := log2_bounds hnum
  obtain ⟨hlow', hhigh'⟩ := log2_bounds hden
  have htwo : ∀ e : Int, (0 : ℚ) < 2 ^ e := fun e => zpow_pos (by norm_num) e
  -- the comparison decides between the difference of the logarithms and one less
  have hcompare : ∀ k : Int, den * raise 2 k ≤ num * raise 2 (-k) ↔ (2 : ℚ) ^ k ≤ num / den := by
    intro k
    have hk : (0 : ℚ) < raise 2 (-k) := Nat.cast_pos.2 (raise_pos (by norm_num) _)
    have hraise := raise_eq 2 (by norm_num) k
    rw [le_div_iff₀ hpos, ← Nat.cast_le (α := ℚ), Nat.cast_mul, Nat.cast_mul, hraise,
      ← mul_assoc, mul_le_mul_iff_left₀ hk, mul_comm, Nat.cast_ofNat]
  unfold floorLog2
  dsimp only
  split
  · rename_i h
    refine ⟨(hcompare _).1 h, ?_⟩
    rw [div_lt_iff₀ hpos]
    calc (num : ℚ) < 2 ^ ((num.log2 : Int) + 1) := hhigh
      _ = 2 ^ ((num.log2 : Int) - den.log2 + 1) * 2 ^ (den.log2 : Int) := by
        rw [← zpow_add₀ (by norm_num)]; congr 1; omega
      _ ≤ 2 ^ ((num.log2 : Int) - den.log2 + 1) * den := by
        exact mul_le_mul_of_nonneg_left hlow' (htwo _).le
  · rename_i h
    have h := lt_of_not_ge (mt (hcompare _).2 h)
    refine ⟨?_, by simpa using h⟩
    rw [le_div_iff₀ hpos]
    calc (2 : ℚ) ^ ((num.log2 : Int) - den.log2 - 1) * den
        ≤ 2 ^ ((num.log2 : Int) - den.log2 - 1) * 2 ^ ((den.log2 : Int) + 1) :=
          mul_le_mul_of_nonneg_left hhigh'.le (htwo _).le
      _ = 2 ^ (num.log2 : Int) := by
        rw [← zpow_add₀ (by norm_num)]; congr 1; omega
      _ ≤ num := hlow

theorem nearestMagnitude_eq {num den q : Nat} {e : Int} (hnum : 0 < num) (hden : 0 < den)
    (he : -1074 ≤ e) (hlow : (2 : ℚ) ^ (e + 52) ≤ num / den ∨ e = -1074)
    (hhigh : (num / den : ℚ) < 2 ^ (e + 53)) (hq : RoundsTo (num / den / 2 ^ e) q) :
    nearestMagnitude num den = min ((e + 1074).toNat * 0x10000000000000 + q) infinityMagnitude := by
  obtain ⟨hfloor, hceil⟩ := floorLog2_spec hnum hden
  have hexponent : max (floorLog2 num den - 52) (-1074) = e := by
    have hle : floorLog2 num den < e + 53 :=
      (zpow_lt_zpow_iff_right₀ (by norm_num : (1 : ℚ) < 2)).1 (lt_of_le_of_lt hfloor hhigh)
    rcases hlow with hlow | rfl
    · have hge : e + 52 < floorLog2 num den + 1 :=
        (zpow_lt_zpow_iff_right₀ (by norm_num : (1 : ℚ) < 2)).1 (lt_of_le_of_lt hlow hceil)
      omega
    · omega
  have hscaled : ((num * raise 2 (-e) : Nat) : ℚ) / ((den * raise 2 e : Nat) : ℚ) =
      num / den / 2 ^ e := by
    have hraise := raise_eq 2 (by norm_num) e
    have hne : (raise 2 (-e) : ℚ) ≠ 0 :=
      Nat.cast_ne_zero.2 (Nat.ne_of_gt (raise_pos (by norm_num) _))
    have hpow : (2 : ℚ) ^ e ≠ 0 := zpow_ne_zero _ (by norm_num)
    have hden' : (den : ℚ) ≠ 0 := Nat.cast_ne_zero.2 (Nat.ne_of_gt hden)
    rw [Nat.cast_mul, Nat.cast_mul, hraise, Nat.cast_ofNat]
    field_simp
  have hround : roundHalfEven (num * raise 2 (-e)) (den * raise 2 e) = q :=
    roundHalfEven_eq (Nat.mul_pos hden (raise_pos (by norm_num) _)) (by rwa [hscaled])
  rw [nearestMagnitude, if_neg (Nat.ne_of_gt hnum), hexponent]
  dsimp only
  rw [hround]

theorem exists_roundsTo {r : ℚ} (h : 0 ≤ r) : ∃ q, RoundsTo r q := by
  have hfloor := Nat.floor_le h
  have hceil := Nat.lt_floor_add_one r
  rcases lt_trichotomy r (⌊r⌋₊ + 1 / 2) with hlt | heq | hgt
  · exact ⟨⌊r⌋₊, by linarith, hlt.le, fun _ => ⟨by linarith, hlt⟩⟩
  · by_cases heven : ⌊r⌋₊ % 2 = 0
    · exact ⟨⌊r⌋₊, by linarith, heq.le, fun hodd => by omega⟩
    · refine ⟨⌊r⌋₊ + 1, ?_, ?_, fun hodd => by omega⟩ <;> push_cast <;> linarith
  · refine ⟨⌊r⌋₊ + 1, ?_, ?_, fun _ => ⟨?_, ?_⟩⟩ <;> push_cast <;> linarith

/-- Below a power of two a rational does not round beyond it. -/
theorem RoundsTo.le_of_lt {r : ℚ} {q : Nat} {e : Int} (h : RoundsTo (r / 2 ^ e) q)
    (hr : r < 2 ^ (e + 53)) : q ≤ 2 ^ 53 := by
  have htwo : (0 : ℚ) < 2 ^ e := zpow_pos (by norm_num) e
  have hpow : (2 : ℚ) ^ (53 : Int) = 2 ^ 53 := by norm_num
  rw [zpow_add₀ (by norm_num), ← div_lt_iff₀' htwo, hpow] at hr
  have hlt : (q : ℚ) < 2 ^ 53 + 1 := by linarith [h.1]
  exact Nat.le_of_lt_succ (by exact_mod_cast hlt)

theorem exists_nearestMagnitude_eq {num den : Nat} (hnum : 0 < num) (hden : 0 < den) :
    ∃ (e : Int) (q : Nat), -1074 ≤ e ∧ ((2 : ℚ) ^ (e + 52) ≤ num / den ∨ e = -1074) ∧
      RoundsTo (num / den / 2 ^ e) q ∧ q ≤ 2 ^ 53 ∧
      nearestMagnitude num den =
        min ((e + 1074).toNat * 0x10000000000000 + q) infinityMagnitude := by
  obtain ⟨hfloor, hceil⟩ := floorLog2_spec hnum hden
  have hratio : (0 : ℚ) ≤ num / den := div_nonneg (Nat.cast_nonneg _) (Nat.cast_nonneg _)
  obtain ⟨e, he⟩ : ∃ e, e = max (floorLog2 num den - 52) (-1074) := ⟨_, rfl⟩
  obtain ⟨q, hq⟩ := exists_roundsTo (div_nonneg hratio (zpow_nonneg (by norm_num : (0 : ℚ) ≤ 2) e))
  have hlow : (2 : ℚ) ^ (e + 52) ≤ num / den ∨ e = -1074 := by
    rcases le_total (-1074) (floorLog2 num den - 52) with h | h
    · left
      rwa [show e + 52 = floorLog2 num den by omega]
    · right
      omega
  have hhigh : (num / den : ℚ) < 2 ^ (e + 53) :=
    lt_of_lt_of_le hceil (zpow_le_zpow_right₀ (by norm_num) (by omega))
  exact ⟨e, q, by omega, hlow, hq, hq.le_of_lt hhigh,
    nearestMagnitude_eq hnum hden (by omega) hlow hhigh hq⟩

theorem parts_ofMagnitude {n s : Nat} (hs : s < 2 ^ 53) (hleast : 2 ^ 52 ≤ s ∨ n = 0)
    (hn : n ≤ 2045) {x : Binary64} (hx : x = ofMagnitude false (n * 0x10000000000000 + s)) :
    x.isFinite = true ∧ x.isNegative = false ∧ x.significand = s ∧ x.exponent = n - 1074 := by
  have hbound : n * 0x10000000000000 + s < 0x8000000000000000 := by omega
  have hmagnitude : x.magnitude = n * 0x10000000000000 + s := by
    rw [hx, magnitude_ofMagnitude false hbound]
  refine ⟨?_, by rw [hx, isNegative_ofMagnitude false hbound], ?_, ?_⟩
  · rw [isFinite, hmagnitude, infinityMagnitude]
    exact decide_eq_true (by omega)
  · rw [significand, hmagnitude]
    split <;> omega
  · rw [exponent, hmagnitude]
    omega

/-- What stays below the middle between the greatest number and the next power of two stays
finite. -/
theorem nearestMagnitude_lt {num den : Nat} (hnum : 0 < num) (hden : 0 < den)
    (h : (num / den : ℚ) < (2 ^ 53 - 1 / 2) * 2 ^ (971 : Int)) :
    nearestMagnitude num den < infinityMagnitude := by
  obtain ⟨e, q, he, hlow, ⟨hq, -, -⟩, hq', heq⟩ := exists_nearestMagnitude_eq hnum hden
  have htwo : (0 : ℚ) < 2 ^ e := zpow_pos (by norm_num) e
  have hexponent : e ≤ 971 := by
    rcases hlow with hlow | rfl
    · have hlt : (2 : ℚ) ^ (e + 52) < 2 ^ (1024 : Int) := by
        refine lt_of_le_of_lt hlow (lt_trans h ?_)
        rw [show (1024 : Int) = 53 + 971 by norm_num, zpow_add₀ (by norm_num)]
        exact mul_lt_mul_of_pos_right (by norm_num) (zpow_pos (by norm_num) _)
      have := (zpow_lt_zpow_iff_right₀ (by norm_num : (1 : ℚ) < 2)).1 hlt
      omega
    · omega
  have hlast : e = 971 → q < 2 ^ 53 := by
    rintro rfl
    rw [← div_lt_iff₀ htwo] at h
    have hlt : (q : ℚ) < 2 ^ 53 := by linarith
    exact_mod_cast hlt
  rw [heq, infinityMagnitude]
  omega

theorem size_ofMagnitude {n q : Nat} (hq : 2 ^ 52 ≤ q) (hq' : q ≤ 2 ^ 53)
    (hfinite : n * 0x10000000000000 + q < infinityMagnitude) {x : Binary64}
    (hx : x = ofMagnitude false (n * 0x10000000000000 + q)) :
    x.isFinite = true ∧ x.isNegative = false ∧ 0 < x.significand ∧
      x.size = q * 2 ^ ((n : Int) - 1074) := by
  rw [infinityMagnitude] at hfinite
  rcases Nat.lt_or_eq_of_le hq' with hlt | hcarry
  · obtain ⟨finite, sign, hsignificand, hexponent⟩ :=
      parts_ofMagnitude (n := n) hlt (.inl hq) (by omega) hx
    exact ⟨finite, sign, by omega, by rw [size, hsignificand, hexponent]⟩
  · obtain ⟨s, hs⟩ : ∃ s, q = 2 * s := ⟨2 ^ 52, by omega⟩
    have hmagnitude : n * 0x10000000000000 + q = (n + 1) * 0x10000000000000 + s := by omega
    obtain ⟨finite, sign, hsignificand, hexponent⟩ :=
      parts_ofMagnitude (n := n + 1) (s := s) (by omega) (.inl (by omega)) (by omega)
        (hmagnitude ▸ hx)
    refine ⟨finite, sign, by omega, ?_⟩
    rw [size, hsignificand, hexponent,
      show ((n + 1 : Nat) : Int) - 1074 = (n : Int) - 1074 + 1 by omega,
      zpow_add_one₀ (by norm_num), hs]
    push_cast
    ring

/-- Rounding adds at most half a unit of the last place. -/
theorem size_nearestRatio_le {num den : Nat} (hnum : 0 < num) (hden : 0 < den)
    (hleast : (2 : ℚ) ^ (-1022 : Int) ≤ num / den)
    (hgreatest : (num / den : ℚ) < (2 ^ 53 - 1 / 2) * 2 ^ (971 : Int)) :
    (nearestRatio false num den).isFinite = true ∧ (nearestRatio false num den).isNegative = false ∧
      0 < (nearestRatio false num den).significand ∧
      (nearestRatio false num den).size ≤ num / den * (1 + 1 / 2 ^ 53) := by
  have hfinite := nearestMagnitude_lt hnum hden hgreatest
  obtain ⟨e, q, he, hlow, ⟨hq, hq', -⟩, hfew, heq⟩ := exists_nearestMagnitude_eq hnum hden
  have htwo : (0 : ℚ) < 2 ^ e := zpow_pos (by norm_num) e
  have hlow : (2 : ℚ) ^ 52 * 2 ^ e ≤ num / den := by
    rw [mul_comm, ← zpow_natCast, ← zpow_add₀ (by norm_num)]
    rcases hlow with hlow | rfl
    · exact hlow
    · simpa using hleast
  have hmany : 2 ^ 52 ≤ q := by
    have hle : (2 : ℚ) ^ 52 ≤ num / den / 2 ^ e := (le_div_iff₀ htwo).2 hlow
    have hlt : (2 : ℚ) ^ 52 < q + 1 := by linarith
    exact Nat.le_of_lt_succ (by exact_mod_cast hlt)
  have hbound : (q : ℚ) * 2 ^ e ≤ num / den * (1 + 1 / 2 ^ 53) := by
    have hscaled := mul_le_mul_of_nonneg_right (sub_le_iff_le_add.1 hq) htwo.le
    rw [add_mul, div_mul_cancel₀ _ htwo.ne'] at hscaled
    linarith
  obtain ⟨n, rfl⟩ : ∃ n : Nat, e = (n : Int) - 1074 := ⟨(e + 1074).toNat, by omega⟩
  have hmagnitude : nearestMagnitude num den = n * 0x10000000000000 + q := by
    rw [infinityMagnitude] at hfinite heq
    omega
  rw [hmagnitude] at hfinite
  rw [nearestRatio, hmagnitude]
  obtain ⟨finite, sign, positive, hsize⟩ := size_ofMagnitude hmany hfew hfinite rfl
  exact ⟨finite, sign, positive, hsize ▸ hbound⟩

end Binary64

end Tabular
