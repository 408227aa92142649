import Tabular.Decimal.Shortest
import Tabular.Proofs.Binary64.Rational

/-!
The shortest decimal of a number rounds to it. It lies in the neighbourhood of the number, and
rounding takes everything there to the number itself. Seventeen digits are always enough, so a grid
with such a decimal is found, and its coefficient is small.
-/
namespace Tabular.Decimal

open Binary64

namespace Neighbourhood

/-- Whether a rational lies in the neighbourhood. -/
def Contains (n : Neighbourhood) (r : ℚ) : Prop :=
  if n.closed then n.low * 2 ^ n.exponent ≤ r ∧ r ≤ n.high * 2 ^ n.exponent
  else n.low * 2 ^ n.exponent < r ∧ r < n.high * 2 ^ n.exponent

variable {n : Neighbourhood}

theorem Contains.bounds {r : ℚ} (h : n.Contains r) :
    n.low * 2 ^ n.exponent ≤ r ∧ r ≤ n.high * 2 ^ n.exponent := by
  unfold Contains at h
  split at h
  · exact h
  · exact ⟨h.1.le, h.2.le⟩

theorem contains_of_lt {r : ℚ} (hlow : n.low * 2 ^ n.exponent < r)
    (hhigh : r < n.high * 2 ^ n.exponent) : n.Contains r := by
  unfold Contains
  split
  · exact ⟨hlow.le, hhigh.le⟩
  · exact ⟨hlow, hhigh⟩

theorem exists_factor (e k : Int) : ∃ f : ℚ, 0 < f ∧
    ((raise 2 e * raise 10 (-k) : Nat) : ℚ) = 2 ^ e * f ∧
      ((raise 2 (-e) * raise 10 k : Nat) : ℚ) = 10 ^ k * f := by
  refine ⟨raise 2 (-e) * raise 10 (-k), ?_, ?_, ?_⟩
  · exact mul_pos (Nat.cast_pos.2 (raise_pos (by norm_num) _))
      (Nat.cast_pos.2 (raise_pos (by norm_num) _))
  · rw [Nat.cast_mul, raise_eq 2 (by norm_num) e]
    push_cast
    ring
  · rw [Nat.cast_mul, raise_eq 10 (by norm_num) k]
    push_cast
    ring

theorem holds_iff {k : Int} {c : Nat} :
    n.holds (raise 2 n.exponent * raise 10 (-k)) (raise 2 (-n.exponent) * raise 10 k) c = true ↔
      n.Contains (c * 10 ^ k) := by
  obtain ⟨f, hf, hup, hdown⟩ := exists_factor n.exponent k
  have hle : ∀ {a b : Nat} {r s : ℚ}, (a : ℚ) = r * f → (b : ℚ) = s * f → (a ≤ b ↔ r ≤ s) := by
    intro a b r s ha hb
    rw [← Nat.cast_le (α := ℚ), ha, hb, mul_le_mul_iff_left₀ hf]
  have hlt : ∀ {a b : Nat} {r s : ℚ}, (a : ℚ) = r * f → (b : ℚ) = s * f → (a < b ↔ r < s) := by
    intro a b r s ha hb
    rw [← Nat.cast_lt (α := ℚ), ha, hb, mul_lt_mul_iff_left₀ hf]
  have hscaled : ∀ m : Nat, ((m * (raise 2 n.exponent * raise 10 (-k)) : Nat) : ℚ) =
      m * 2 ^ n.exponent * f := fun m => by rw [Nat.cast_mul, hup, mul_assoc]
  have hgrid : ((c * (raise 2 (-n.exponent) * raise 10 k) : Nat) : ℚ) = c * 10 ^ k * f := by
    rw [Nat.cast_mul, hdown, mul_assoc]
  unfold holds Contains
  split
  · simp only [Bool.and_eq_true, decide_eq_true_eq, hle (hscaled _) hgrid, hle hgrid (hscaled _)]
  · simp only [Bool.and_eq_true, decide_eq_true_eq, hlt (hscaled _) hgrid, hlt hgrid (hscaled _)]

theorem contains_of_onGrid? {tie : Tie} {k : Int} {c : Nat} (h : n.onGrid? tie k = some c) :
    n.Contains (c * 10 ^ k) := by
  unfold onGrid? at h
  dsimp only at h
  split at h
  · cases h
  · rename_i hc _
    cases h
    exact holds_iff.1 hc
  · rename_i _ hc
    cases h
    exact holds_iff.1 hc
  · rename_i hc hc'
    split at h
    · cases h
      exact holds_iff.1 hc
    split at h
    · cases h
      exact holds_iff.1 hc'
    cases tie with
    | up =>
      cases h
      exact holds_iff.1 hc'
    | even =>
      dsimp only at h
      split at h <;> cases h
      · exact holds_iff.1 hc
      · exact holds_iff.1 hc'

theorem le_of_onGrid?_eq_none {tie : Tie} {k : Int} (hlow : n.low < n.mid) (hhigh : n.mid < n.high)
    (h : n.onGrid? tie k = none) : ((n.high : ℚ) - n.low) * 2 ^ n.exponent ≤ 10 ^ k := by
  obtain ⟨f, hf, hup, hdown⟩ := exists_factor n.exponent k
  have hpos : 0 < raise 2 (-n.exponent) * raise 10 k :=
    Nat.mul_pos (raise_pos (by norm_num) _) (raise_pos (by norm_num) _)
  have htwo : (0 : ℚ) < 2 ^ n.exponent := zpow_pos (by norm_num) _
  unfold onGrid? at h
  dsimp only at h
  have hfloor := Nat.div_mul_le_self (n.mid * (raise 2 n.exponent * raise 10 (-k)))
    (raise 2 (-n.exponent) * raise 10 k)
  have hceil := Nat.lt_div_mul_add (a := n.mid * (raise 2 n.exponent * raise 10 (-k))) hpos
  generalize n.mid * (raise 2 n.exponent * raise 10 (-k)) /
    (raise 2 (-n.exponent) * raise 10 k) = c at h hfloor hceil
  have hfloor : (c : ℚ) * 10 ^ k ≤ n.mid * 2 ^ n.exponent := by
    rw [← Nat.cast_le (α := ℚ), Nat.cast_mul, Nat.cast_mul n.mid, hup, hdown, ← mul_assoc,
      ← mul_assoc, mul_le_mul_iff_left₀ hf] at hfloor
    exact hfloor
  have hceil : (n.mid : ℚ) * 2 ^ n.exponent < ((c + 1 : Nat) : ℚ) * 10 ^ k := by
    rw [← Nat.succ_mul, ← Nat.cast_lt (α := ℚ), Nat.cast_mul, Nat.cast_mul c.succ, hup, hdown,
      ← mul_assoc, ← mul_assoc, mul_lt_mul_iff_left₀ hf] at hceil
    exact hceil
  split at h
  case h_1 hc hc' =>
    have hlow' : (n.low : ℚ) * 2 ^ n.exponent < n.mid * 2 ^ n.exponent := by
      rw [mul_lt_mul_iff_left₀ htwo]
      exact_mod_cast hlow
    have hhigh' : (n.mid : ℚ) * 2 ^ n.exponent < n.high * 2 ^ n.exponent := by
      rw [mul_lt_mul_iff_left₀ htwo]
      exact_mod_cast hhigh
    have hbelow : (c : ℚ) * 10 ^ k ≤ n.low * 2 ^ n.exponent := by
      by_contra hlt
      have hin := contains_of_lt (lt_of_not_ge hlt) (lt_of_le_of_lt hfloor hhigh')
      rw [holds_iff.2 hin] at hc
      cases hc
    have habove : (n.high : ℚ) * 2 ^ n.exponent ≤ ((c + 1 : Nat) : ℚ) * 10 ^ k := by
      by_contra hlt
      have hin := contains_of_lt (lt_trans hlow' hceil) (lt_of_not_ge hlt)
      rw [holds_iff.2 hin] at hc'
      cases hc'
    push_cast at habove
    linarith
  case h_4 =>
    split at h
    · cases h
    split at h
    · cases h
    cases tie <;> cases h
  all_goals cases h

variable {x : Binary64}

theorem low_of_lt (positive : 0 < x.significand) : (of x).low < (of x).mid := by
  simp only [of]
  split <;> omega

theorem mid_of_lt : (of x).mid < (of x).high := by
  simp only [of]
  omega

theorem low_of_add_three_le (positive : 0 < x.significand) : (of x).low + 3 ≤ (of x).high := by
  simp only [of]
  split <;> omega

end Neighbourhood

section

variable {x : Binary64}

theorem estimate_bounds : ∀ i : Nat, i < 2098 →
    raise 2 (-((i : Int) - 1074)) * raise 10 (((i : Int) - 1074) * 78913 / 262144) ≤
        raise 2 ((i : Int) - 1074) * raise 10 (-(((i : Int) - 1074) * 78913 / 262144)) ∧
      raise 2 ((i : Int) - 1074) * raise 10 (-(((i : Int) - 1074) * 78913 / 262144 + 1)) <
        raise 2 (-((i : Int) - 1074)) * raise 10 (((i : Int) - 1074) * 78913 / 262144 + 1) := by
  decide +kernel

theorem log2_significand_lt (x : Binary64) : x.significand.log2 < 53 := by
  by_cases h : x.significand = 0
  · simp [h]
  · exact (Nat.log2_lt h).2 x.significand_lt

theorem gridAbove_bounds (finite : x.isFinite = true) :
    (10 : ℚ) ^ (gridAbove x - 1) ≤ 2 ^ (x.exponent + x.significand.log2) ∧
      (2 : ℚ) ^ (x.exponent + x.significand.log2) < 10 ^ gridAbove x := by
  have hlog := log2_significand_lt x
  have hlow := x.le_exponent
  have hhigh := exponent_le finite
  obtain ⟨i, hi⟩ : ∃ i : Nat, x.exponent + x.significand.log2 = (i : Int) - 1074 :=
    ⟨(x.exponent + x.significand.log2 + 1074).toNat, by omega⟩
  obtain ⟨hbelow, habove⟩ := estimate_bounds i (by omega)
  rw [gridAbove, hi]
  constructor
  · obtain ⟨f, hf, hup, hdown⟩ :=
      Neighbourhood.exists_factor ((i : Int) - 1074) (((i : Int) - 1074) * 78913 / 262144)
    rw [← Nat.cast_le (α := ℚ), hup, hdown, mul_le_mul_iff_left₀ hf] at hbelow
    simpa using hbelow
  · obtain ⟨f, hf, hup, hdown⟩ :=
      Neighbourhood.exists_factor ((i : Int) - 1074) (((i : Int) - 1074) * 78913 / 262144 + 1)
    rwa [← Nat.cast_lt (α := ℚ), hup, hdown, mul_lt_mul_iff_left₀ hf] at habove

theorem le_gridAbove (finite : x.isFinite = true) : -400 ≤ gridAbove x ∧ gridAbove x ≤ 400 := by
  have hlog := log2_significand_lt x
  have hlow := x.le_exponent
  have hhigh := exponent_le finite
  unfold gridAbove
  omega

/-- The step of a grid without a point is not below three quarters of the unit. -/
theorem le_step_of_none (positive : 0 < x.significand) {tie : Tie} {k : Int}
    (h : (Neighbourhood.of x).onGrid? tie k = none) : (3 : ℚ) * 2 ^ (x.exponent - 2) ≤ 10 ^ k := by
  have hwidth := Neighbourhood.le_of_onGrid?_eq_none (Neighbourhood.low_of_lt positive)
    Neighbourhood.mid_of_lt h
  have hthree : ((Neighbourhood.of x).low : ℚ) + 3 ≤ (Neighbourhood.of x).high := by
    exact_mod_cast Neighbourhood.low_of_add_three_le positive
  refine le_trans ?_ hwidth
  exact mul_le_mul_of_nonneg_right (by linarith) (zpow_nonneg (by norm_num) _)

theorem quarter (e : Int) : (2 : ℚ) ^ (e - 2) = 2 ^ e / 4 := by
  rw [zpow_sub₀ (by norm_num)]
  norm_num

/-- The finest of the grids is finer than the neighbourhood. -/
theorem onGrid?_finest_ne_none (tie : Tie) (finite : x.isFinite = true)
    (positive : 0 < x.significand) :
    (Neighbourhood.of x).onGrid? tie (gridAbove x - 19) ≠ none := by
  intro hnone
  have hlog := log2_significand_lt x
  have htwo : (0 : ℚ) < 2 ^ x.exponent := zpow_pos (by norm_num) _
  have hbelow := (gridAbove_bounds finite).1
  have hstep := le_step_of_none positive hnone
  have hten : (10 : ℚ) ^ (gridAbove x - 19) * 10 ^ 18 = 10 ^ (gridAbove x - 1) := by
    rw [← zpow_natCast, ← zpow_add₀ (by norm_num)]
    congr 1
    omega
  have hpower : (2 : ℚ) ^ (x.exponent + x.significand.log2) ≤ 2 ^ x.exponent * 2 ^ 52 := by
    rw [← zpow_natCast, ← zpow_add₀ (by norm_num)]
    exact zpow_le_zpow_right₀ (by norm_num) (by omega)
  rw [quarter] at hstep
  linarith

/-- The first grid with a point is the top one, or the grid above it has none. -/
theorem exists_grid (tie : Tie) (finite : x.isFinite = true) (positive : 0 < x.significand) :
    ∃ (c i : Nat), i < 20 ∧ shortest tie x = (c, gridAbove x - i) ∧
      (Neighbourhood.of x).onGrid? tie (gridAbove x - i) = some c ∧
      (i = 0 ∨ (Neighbourhood.of x).onGrid? tie (gridAbove x - i + 1) = none) := by
  generalize hfound : ((List.range 20).map fun (i : Nat) => gridAbove x - (i : Int)).findSome?
    (fun k => ((Neighbourhood.of x).onGrid? tie k).map (·, k)) = found
  have hshortest : shortest tie x = found.getD (0, 0) := by rw [← hfound]; rfl
  cases found with
  | none =>
    have h := List.findSome?_eq_none_iff.1 hfound (gridAbove x - 19)
      (List.mem_map.2 ⟨19, by simp, rfl⟩)
    exact absurd (Option.map_eq_none_iff.1 h) (onGrid?_finest_ne_none tie finite positive)
  | some p =>
    obtain ⟨before, k, behind, hsplit, hk, hbefore⟩ := List.findSome?_eq_some_iff.1 hfound
    obtain ⟨c, hc, rfl⟩ := Option.map_eq_some_iff.1 hk
    have hindex : before.length < 20 := by
      have h := congrArg List.length hsplit
      simp at h
      omega
    have hplace : ∀ i : Nat, i < 20 →
        (before ++ k :: behind)[i]? = some (gridAbove x - (i : Int)) := by
      intro i hi
      rw [← hsplit, List.getElem?_map, List.getElem?_range hi]
      rfl
    obtain rfl : k = gridAbove x - (before.length : Int) := by
      simpa using hplace before.length hindex
    refine ⟨c, before.length, hindex, hshortest, hc, ?_⟩
    rcases Nat.eq_zero_or_pos before.length with hzero | hpos
    · exact .inl hzero
    · right
      have h := hplace (before.length - 1) (by omega)
      rw [List.getElem?_append_left (by omega),
        show gridAbove x - ((before.length - 1 : Nat) : Int) = gridAbove x - before.length + 1 by
          omega] at h
      simpa using hbefore _ (List.mem_of_getElem? h)

/-- The shortest decimal lies in the neighbourhood of the number, and it is on a grid of which the
next coarser one is too coarse. -/
theorem shortest_spec (tie : Tie) (finite : x.isFinite = true) (positive : 0 < x.significand) :
    ∃ c k, shortest tie x = (c, k) ∧ (Neighbourhood.of x).Contains (c * 10 ^ k) ∧
      (3 : ℚ) * 2 ^ (x.exponent - 2) ≤ 10 ^ (k + 1) ∧ -420 ≤ k ∧ k ≤ 400 := by
  obtain ⟨c, i, hi, hshortest, hgrid, hcoarser⟩ := exists_grid tie finite positive
  obtain ⟨hlow, hhigh⟩ := le_gridAbove finite
  refine ⟨c, gridAbove x - i, hshortest, Neighbourhood.contains_of_onGrid? hgrid, ?_, by omega,
    by omega⟩
  rcases hcoarser with rfl | hnone
  · have habove := (gridAbove_bounds finite).2
    have hten : (0 : ℚ) < 10 ^ gridAbove x := zpow_pos (by norm_num) _
    have htwo : (0 : ℚ) < 2 ^ x.exponent := zpow_pos (by norm_num) _
    have hone : (2 : ℚ) ^ x.exponent ≤ 2 ^ (x.exponent + x.significand.log2) :=
      zpow_le_zpow_right₀ (by norm_num) (by omega)
    rw [quarter, Nat.cast_zero, sub_zero, zpow_add_one₀ (by norm_num)]
    linarith
  · exact le_step_of_none positive hnone

theorem shortest_coefficient (positive : 0 < x.significand) {c : Nat} {k : Int}
    (hc : (Neighbourhood.of x).Contains (c * 10 ^ k))
    (hstep : (3 : ℚ) * 2 ^ (x.exponent - 2) ≤ 10 ^ (k + 1)) : 0 < c ∧ c < 10 ^ 18 := by
  have hten : (0 : ℚ) < 10 ^ k := zpow_pos (by norm_num) _
  have hquarter : (0 : ℚ) < 2 ^ (x.exponent - 2) := zpow_pos (by norm_num) _
  obtain ⟨hlow, hhigh⟩ := hc.bounds
  rw [show (Neighbourhood.of x).exponent = x.exponent - 2 from rfl] at hlow hhigh
  constructor
  · refine Nat.pos_of_ne_zero fun hzero => ?_
    have hpos : 0 < (Neighbourhood.of x).low := by
      simp only [Neighbourhood.of]
      split <;> omega
    have hlt : (0 : ℚ) < (Neighbourhood.of x).low * 2 ^ (x.exponent - 2) :=
      mul_pos (Nat.cast_pos.2 hpos) hquarter
    rw [hzero, Nat.cast_zero, zero_mul] at hlow
    linarith
  · have hbound : ((Neighbourhood.of x).high : ℚ) ≤ 2 ^ 55 := by
      have hs := x.significand_lt
      have hnat : (Neighbourhood.of x).high ≤ 2 ^ 55 := by
        simp only [Neighbourhood.of]
        omega
      exact_mod_cast hnat
    rw [zpow_add_one₀ (by norm_num)] at hstep
    have hupper := mul_le_mul_of_nonneg_right hbound hquarter.le
    have hscaled : (3 * c : ℚ) * 10 ^ k ≤ (2 ^ 55 * 10) * 10 ^ k := by linarith
    have hcoefficient := le_of_mul_le_mul_right hscaled hten
    have hlt : (c : ℚ) < 10 ^ 18 := by linarith
    exact_mod_cast hlt

theorem Neighbourhood.Contains.scaled (positive : 0 < x.significand) {r : ℚ}
    (h : (Neighbourhood.of x).Contains r) :
    RoundsTo (r / 2 ^ x.exponent) x.significand ∧
      (x.significand = 2 ^ 52 → x.exponent ≠ -1074 →
        (x.significand : ℚ) - 1 / 4 ≤ r / 2 ^ x.exponent) := by
  have htwo : (0 : ℚ) < 2 ^ x.exponent := zpow_pos (by norm_num) _
  have hquarter := quarter x.exponent
  have hhigh : ((Neighbourhood.of x).high : ℚ) * 2 ^ (Neighbourhood.of x).exponent =
      ((x.significand : ℚ) + 1 / 2) * 2 ^ x.exponent := by
    simp only [Neighbourhood.of, hquarter]
    push_cast
    ring
  have hlow : ((x.significand : ℚ) - 1 / 2) * 2 ^ x.exponent ≤
      ((Neighbourhood.of x).low : ℚ) * 2 ^ (Neighbourhood.of x).exponent := by
    have hle : (4 * x.significand : ℚ) - 2 ≤ (Neighbourhood.of x).low := by
      have hnat : 4 * x.significand ≤ (Neighbourhood.of x).low + 2 := by
        simp only [Neighbourhood.of]
        split <;> omega
      have hcast : (4 * x.significand : ℚ) ≤ (Neighbourhood.of x).low + 2 := by exact_mod_cast hnat
      linarith
    have hexponent : (Neighbourhood.of x).exponent = x.exponent - 2 := rfl
    rw [hexponent, hquarter]
    have := mul_le_mul_of_nonneg_right hle htwo.le
    linarith
  have hbounds := h.bounds
  refine ⟨⟨?_, ?_, fun hodd => ?_⟩, fun hs he => ?_⟩
  · rw [le_div_iff₀ htwo]
    exact le_trans hlow hbounds.1
  · rw [div_le_iff₀ htwo, ← hhigh]
    exact hbounds.2
  · have hopen : (Neighbourhood.of x).closed = false := by
      simp [Neighbourhood.of, hodd]
    rw [Neighbourhood.Contains, hopen] at h
    rw [lt_div_iff₀ htwo, div_lt_iff₀ htwo, ← hhigh]
    exact ⟨lt_of_le_of_lt hlow h.1, h.2⟩
  · have hmagnitude := x.magnitude_eq
    have hexponent := x.le_exponent
    have hquarterLow : (Neighbourhood.of x).low = 4 * x.significand - 1 := by
      simp only [Neighbourhood.of]
      rw [if_pos (by omega)]
    have hcast : ((4 * x.significand - 1 : Nat) : ℚ) = 4 * x.significand - 1 := by
      rw [Nat.cast_sub (by omega)]
      push_cast
      ring
    have hbelow := hbounds.1
    rw [hquarterLow, hcast, show (Neighbourhood.of x).exponent = x.exponent - 2 from rfl,
      hquarter] at hbelow
    rw [le_div_iff₀ htwo]
    linarith

/-- Only the least significand of 53 bits is the nearest one to something below it. -/
theorem eq_of_roundsTo {r : ℚ} {q : Nat} (h : RoundsTo r q) (hr : r < 2 ^ 52) (hq : 2 ^ 52 ≤ q) :
    q = 2 ^ 52 := by
  have hlt : (q : ℚ) < 2 ^ 52 + 1 := by linarith [h.1]
  exact Nat.le_antisymm (Nat.le_of_lt_succ (by exact_mod_cast hlt)) hq

theorem roundsTo_half {r : ℚ} {e : Int} (hlow : (2 : ℚ) ^ 52 - 1 / 4 ≤ r / 2 ^ e)
    (hhigh : r / 2 ^ e < 2 ^ 52) : RoundsTo (r / 2 ^ (e - 1)) (2 ^ 53) := by
  have htwo : (2 : ℚ) ^ e ≠ 0 := zpow_ne_zero _ (by norm_num)
  have hdouble : r / 2 ^ (e - 1) = 2 * (r / 2 ^ e) := by
    rw [zpow_sub₀ (by norm_num), zpow_one]
    field_simp
  rw [hdouble]
  refine ⟨?_, ?_, fun hodd => absurd hodd (by norm_num)⟩ <;> push_cast <;> linarith

/-- Everything in the neighbourhood of a number rounds to it. -/
theorem nearestMagnitude_of_contains (finite : x.isFinite = true) (positive : 0 < x.significand)
    {num den : Nat} (hnum : 0 < num) (hden : 0 < den)
    (h : (Neighbourhood.of x).Contains (num / den)) : nearestMagnitude num den = x.magnitude := by
  have hfinite : x.magnitude ≤ infinityMagnitude := (of_decide_eq_true finite).le
  have htwo : (0 : ℚ) < 2 ^ x.exponent := zpow_pos (by norm_num) _
  have hexponent := x.le_exponent
  have hmagnitude := x.magnitude_eq
  have hunit : ∀ n : Nat, (2 : ℚ) ^ (x.exponent + n) = 2 ^ n * 2 ^ x.exponent := fun n => by
    rw [zpow_add₀ (by norm_num), zpow_natCast, mul_comm]
  obtain ⟨hrounds, hpower⟩ := h.scaled positive
  by_cases hlow : (2 : ℚ) ^ (x.exponent + (52 : Nat)) ≤ num / den ∨ x.exponent = -1074
  · have hbelow : (num / den : ℚ) < 2 ^ (x.exponent + (53 : Nat)) := by
      have hsignificand : (x.significand : ℚ) + 1 ≤ 2 ^ 53 := by
        exact_mod_cast Nat.succ_le_of_lt x.significand_lt
      rw [hunit]
      exact lt_of_le_of_lt ((div_le_iff₀ htwo).1 hrounds.2.1)
        (mul_lt_mul_of_pos_right (by linarith) htwo)
    rw [nearestMagnitude_eq hnum hden hexponent hlow hbelow hrounds]
    omega
  · -- a power of two, which is the end of the numbers of the next finer step
    rw [not_or, not_le] at hlow
    obtain ⟨hbelow, he⟩ := hlow
    have hlt : (num / den : ℚ) / 2 ^ x.exponent < 2 ^ 52 := by rwa [div_lt_iff₀ htwo, ← hunit]
    have hs := eq_of_roundsTo hrounds hlt (x.le_significand_or.resolve_right he)
    have hquarter : (2 : ℚ) ^ 52 - 1 / 4 ≤ num / den / 2 ^ x.exponent := by
      have h := hpower hs he
      rw [hs] at h
      exact_mod_cast h
    have habove : (2 : ℚ) ^ (x.exponent - 1 + 52) ≤ num / den := by
      rw [show x.exponent - 1 + 52 = x.exponent + (51 : Nat) by omega, hunit]
      exact le_trans (mul_le_mul_of_nonneg_right (by norm_num) htwo.le)
        ((le_div_iff₀ htwo).1 hquarter)
    have hbelow' : (num / den : ℚ) < 2 ^ (x.exponent - 1 + 53) := by
      rwa [show x.exponent - 1 + 53 = x.exponent + (52 : Nat) by omega]
    rw [nearestMagnitude_eq hnum hden (by omega) (.inl habove) hbelow'
      (roundsTo_half hquarter hlt)]
    omega

end

end Tabular.Decimal
