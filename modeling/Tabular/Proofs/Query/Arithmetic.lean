import Tabular.Proofs.Aggregate.Sum
import Tabular.Proofs.Query.Broadcast
import Tabular.Query.Evaluate

/-!
Arithmetic on integers and NULL. A sum, a difference or a product is exact wherever it is a word,
and goes over to real numbers only beyond. A remainder is always a word, since it is smaller than
the divisor, and a quotient always real. No two integers make an expression fail.
-/
namespace Tabular

namespace Cell

/-- The integer itself if it is a word, and else this real number. -/
def ExactOr (n : Int) (y : Binary64) (x : Value) : Prop :=
  (∃ u : Int64, u.toInt = n ∧ x = .integer u) ∨ ¬ Fits n ∧ x = .real y

/-- What a division that is cut off towards zero leaves over: less than the divisor, on the side of
the dividend. -/
structure Remainder (a b r : Int) : Prop where
  leaves : ∃ q, r + b * q = a
  lt : r.natAbs < b.natAbs
  nonneg : 0 ≤ a → 0 ≤ r
  nonpos : a ≤ 0 → r ≤ 0

def OfIntegers (op : ArithmeticOp) (a b : Int64) (x : Value) : Prop :=
  let y := Binary64.ofInt a.toInt
  let z := Binary64.ofInt b.toInt
  match op with
  | .add => ExactOr (a.toInt + b.toInt) (y.add z) x
  | .sub => ExactOr (a.toInt - b.toInt) (y.sub z) x
  | .mul => ExactOr (a.toInt * b.toInt) (y.mul z) x
  | .div => if b = 0 then x = .null else x = .real (y.div z)
  | .rem => if b = 0 then x = .null
    else ∃ r : Int64, Remainder a.toInt b.toInt r.toInt ∧ x = .integer r

def Gives (op : ArithmeticOp) (v w x : Value) : Prop :=
  (v = .null ∨ w = .null) ∧ x = .null ∨
    ∃ a b, v = .integer a ∧ w = .integer b ∧ OfIntegers op a b x

theorem exactOr_eq_iff {n : Int} {y : Binary64} {x : Value} :
    exactOr n y = x ↔ ExactOr n y x := by
  unfold exactOr ExactOr
  cases hn : toWord? n with
  | some w =>
    have hw := toWord?_eq_some_iff.1 hn
    have hfits : Fits n := ⟨w, hw⟩
    constructor
    · rintro rfl
      exact .inl ⟨w, hw, rfl⟩
    · rintro (⟨u, hu, rfl⟩ | ⟨hn, -⟩)
      · rw [Int64.toInt_inj.1 (hw.trans hu.symm)]
      · exact absurd hfits hn
  | none =>
    have hfits : ¬ Fits n := by
      rintro ⟨w, hw⟩
      rw [toWord?_eq_some_iff.2 hw] at hn
      cases hn
    constructor
    · rintro rfl
      exact .inr ⟨hfits, rfl⟩
    · rintro (⟨u, hu, -⟩ | ⟨-, rfl⟩)
      · exact absurd ⟨u, hu⟩ hfits
      · rfl

theorem remainder_iff {a b r : Int} (hb : b ≠ 0) : Remainder a b r ↔ a.tmod b = r := by
  constructor
  · rintro ⟨⟨q, hq⟩, hlt, hnonneg, hnonpos⟩
    rcases Int.le_total 0 a with ha | ha
    · have hr := hnonneg ha
      exact ((Int.tdiv_tmod_unique ha hb).2 ⟨hq, hr, by omega⟩).2
    · have hr := hnonpos ha
      exact ((Int.tdiv_tmod_unique' ha hb).2 ⟨hq, by omega, hr⟩).2
  · rintro rfl
    refine ⟨⟨a.tdiv b, Int.tmod_add_mul_tdiv a b⟩, ?_, Int.tmod_nonneg b, fun ha => ?_⟩
    · rw [Int.natAbs_tmod]
      exact Nat.mod_lt _ (Int.natAbs_pos.2 hb)
    · have hneg := Int.tmod_nonneg b (Int.neg_nonneg_of_nonpos ha)
      rw [Int.neg_tmod] at hneg
      omega

/-- A remainder is as small as the divisor, so it is always a word. -/
theorem fits_tmod (a : Int) {b : Int64} (hb : b.toInt ≠ 0) : Fits (a.tmod b.toInt) := by
  have hlt := ((remainder_iff hb).2 rfl : Remainder a b.toInt (a.tmod b.toInt)).lt
  have hlow := b.le_toInt
  have hhigh := b.toInt_lt
  rw [fits_iff]
  omega

theorem integerArithmetic_eq_iff {op : ArithmeticOp} {a b : Int64} {x : Value} :
    integerArithmetic op a b = x ↔ OfIntegers op a b x := by
  cases op with
  | add => exact exactOr_eq_iff
  | sub => exact exactOr_eq_iff
  | mul => exact exactOr_eq_iff
  | div =>
    simp only [integerArithmetic, OfIntegers]
    split <;> exact eq_comm
  | rem =>
    simp only [integerArithmetic, OfIntegers]
    by_cases hzero : b = 0
    · rw [if_pos hzero, if_pos hzero]
      exact eq_comm
    have hb : b.toInt ≠ 0 := fun h => hzero (Int64.toInt_inj.1 h)
    rw [if_neg hzero, if_neg hzero, exactOr_eq_iff, ExactOr,
      or_iff_left fun h => h.1 (fits_tmod a.toInt hb)]
    simp only [remainder_iff hb, eq_comm]

variable {op : ArithmeticOp} {v w x : Value}

theorem arithmetic_eq_ok_iff (hv : v = .null ∨ ∃ a, v = .integer a)
    (hw : w = .null ∨ ∃ b, w = .integer b) : arithmetic op v w = .ok x ↔ Gives op v w x := by
  rcases hv with rfl | ⟨a, rfl⟩
  · simp [arithmetic, Gives, Value.isNull, eq_comm]
  rcases hw with rfl | ⟨b, rfl⟩
  · simp [arithmetic, Gives, Value.isNull, eq_comm]
  · simp [arithmetic, Gives, Value.isNull, integerArithmetic_eq_iff]

example : arithmetic .rem (.integer Int64.minValue) (.integer (-1)) = .ok (.integer 0) := by decide

theorem exists_arithmetic (hv : v = .null ∨ ∃ a, v = .integer a)
    (hw : w = .null ∨ ∃ b, w = .integer b) : ∃ x, arithmetic op v w = .ok x := by
  rcases hv with rfl | ⟨a, rfl⟩
  · exact ⟨_, rfl⟩
  rcases hw with rfl | ⟨b, rfl⟩ <;> exact ⟨_, rfl⟩

end Cell

namespace Expression

open Broadcast (Common valueAt?)

theorem evaluate_eq_ok {e : Expression} {db : Database} {vs ws data : List Value}
    {ps : List (Value × Value)} (hleft : e.left.values db = .ok vs)
    (hright : e.right.values db = .ok ws) (hps : Broadcast.paired vs ws = .ok ps)
    (hdata : ps.mapM (fun p => Cell.arithmetic e.op p.1 p.2) = .ok data) :
    e.evaluate db = .ok ⟨data, some e.name⟩ := by
  obtain ⟨left, op, right, label⟩ := e
  simp only [evaluate, Expression.values, Except.bind_eq_ok_iff, Except.pure_eq_ok_iff]
  exact ⟨data, ⟨vs, hleft, ws, hright, ps, hps, hdata⟩, rfl⟩

/-- An expression on vectors of integers and NULL has a result for every row, which is exact or
real as the operator has it. -/
theorem evaluate_integers {e : Expression} {db : Database} {vs ws : List Value} {n : Nat}
    (hleft : e.left.values db = .ok vs) (hright : e.right.values db = .ok ws)
    (hvs : Aggregate.Integers vs) (hws : Aggregate.Integers ws) (hcommon : Common [vs, ws] n) :
    ∃ data, e.evaluate db = .ok ⟨data, some e.name⟩ ∧ data.length = n ∧
      ∀ i < n, ∃ v w x, valueAt? i vs = some v ∧ valueAt? i ws = some w ∧ data[i]? = some x ∧
        Cell.Gives e.op v w x := by
  obtain ⟨ps, hps, rfl⟩ := Broadcast.paired_of_common hcommon
  have hcells : ∀ p ∈ ps, (p.1 = .null ∨ ∃ a, p.1 = .integer a) ∧
      (p.2 = .null ∨ ∃ b, p.2 = .integer b) := fun p hp =>
    (Broadcast.mem_of_mem_paired hps hp).imp (hvs p.1) (hws p.2)
  obtain ⟨data, hdata⟩ : ∃ data,
      ps.mapM (fun p => Cell.arithmetic e.op p.1 p.2) = .ok data :=
    Except.exists_mapM_eq_ok_iff.2 fun p hp =>
      Cell.exists_arithmetic (hcells p hp).1 (hcells p hp).2
  have hrows := List.forall₂_iff_get.1 (Except.mapM_eq_ok_iff.1 hdata)
  refine ⟨data, evaluate_eq_ok hleft hright hps hdata, hrows.1.symm, fun i hi => ?_⟩
  have hi' : i < data.length := hrows.1 ▸ hi
  obtain ⟨hv, hw⟩ := Broadcast.valueAt?_of_paired hps (List.getElem?_eq_getElem hi)
  obtain ⟨hleftCell, hrightCell⟩ := hcells ps[i] (List.getElem_mem hi)
  exact ⟨_, _, data[i], hv, hw, List.getElem?_eq_getElem hi',
    (Cell.arithmetic_eq_ok_iff hleftCell hrightCell).1 (hrows.2 i hi hi')⟩

/-- The largest word and one more is real, in a row beside one that stays exact. -/
theorem evaluate_integers_points :
    let points : List Value := [.integer Int64.maxValue, .null, .integer (-7)]
    let e : Expression := ⟨.expression ⟨.series ⟨points, some "points"⟩, .sub, .literal (.int 0),
      none⟩, .add, .literal (.int 1), none⟩
    let db : Database := { name := "main" }
    e.left.values db = .ok points ∧ e.right.values db = .ok [.integer 1] ∧
      Aggregate.Integers points ∧ Aggregate.Integers [.integer 1] ∧
      Common [points, [.integer 1]] 3 ∧
      ∃ data, e.evaluate db = .ok ⟨data, some "((points - 0) + 1)"⟩ ∧ data.length = 3 ∧
        ∀ i < 3, ∃ v w x, valueAt? i points = some v ∧ valueAt? i [.integer 1] = some w ∧
          data[i]? = some x ∧ Cell.Gives .add v w x := by
  intro points e db
  have hleft : e.left.values db = .ok points := by rfl
  have hright : e.right.values db = .ok [.integer 1] := by rfl
  have hpoints : Aggregate.Integers points := by simp [points, Aggregate.Integers]
  have hone : Aggregate.Integers [.integer 1] := by simp [Aggregate.Integers]
  have hcommon : Common [points, [.integer 1]] 3 := by simp [points, Common]
  exact ⟨hleft, hright, hpoints, hone, hcommon,
    evaluate_integers hleft hright hpoints hone hcommon⟩

end Expression
end Tabular
