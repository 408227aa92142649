import Tabular.Binary64.Basic

/-!
Rounding to the nearest number, with a tie to the one whose last bit is even. Positive ratios of
natural numbers are rounded exactly; every other way into the type goes through them. Powers with
integer exponents stay in the natural numbers: a power is `raise base e / raise base (-e)`, and one
of the two is 1.
-/
namespace Tabular

def raise (base : Nat) (e : Int) : Nat := Nat.pow base e.toNat

@[simp] theorem raise_zero (base : Nat) : raise base 0 = 1 := rfl

theorem raise_of_nonpos (base : Nat) {e : Int} (h : e ≤ 0) : raise base e = 1 := by
  simp [raise, Int.toNat_of_nonpos h]

theorem raise_pos {base : Nat} (h : 0 < base) (e : Int) : 0 < raise base e :=
  Nat.pow_pos h

namespace Binary64

/-- The integer nearest to `num / den`, and the even one of two. -/
def roundHalfEven (num den : Nat) : Nat :=
  let q := num / den
  let r := num % den
  if 2 * r < den then q
  else if den < 2 * r then q + 1
  else if q % 2 = 0 then q else q + 1

def floorLog2 (num den : Nat) : Int :=
  let k : Int := (num.log2 : Int) - den.log2
  if den * raise 2 k ≤ num * raise 2 (-k) then k else k - 1

/-- The magnitude nearest to `num / den`. The step between neighbours there is `2 ^ e`; rounding up
to the next power of two carries into the exponent by itself. -/
def nearestMagnitude (num den : Nat) : Nat :=
  if num = 0 then 0
  else
    let e : Int := max (floorLog2 num den - 52) (-1074)
    let q := roundHalfEven (num * raise 2 (-e)) (den * raise 2 e)
    min ((e + 1074).toNat * 0x10000000000000 + q) infinityMagnitude

theorem nearestMagnitude_le (num den : Nat) : nearestMagnitude num den ≤ infinityMagnitude := by
  unfold nearestMagnitude
  split
  · exact Nat.zero_le _
  · exact Nat.min_le_right _ _

def nearestRatio (negative : Bool) (num den : Nat) : Binary64 :=
  ofMagnitude negative (nearestMagnitude num den)

def nearestScaled (negative : Bool) (n : Nat) (e : Int) : Binary64 :=
  nearestRatio negative (n * raise 2 e) (raise 2 (-e))

/-- Rounds `n · 10 ^ e`. Powers that surely leave the range are not computed. -/
def nearestDecimal (negative : Bool) (n : Nat) (e : Int) : Binary64 :=
  if n = 0 then ofMagnitude negative 0
  else if 400 < e then infinity negative
  else if e + n.log2 < -400 then ofMagnitude negative 0
  else nearestRatio negative (n * raise 10 e) (raise 10 (-e))

def ofInt (n : Int) : Binary64 := nearestRatio (decide (n < 0)) n.natAbs 1

def toInt? (x : Binary64) : Option Int :=
  if x.isFinite then
    let up := raise 2 x.exponent
    let down := raise 2 (-x.exponent)
    if x.significand * up % down = 0 then
      let n : Int := (x.significand * up / down : Nat)
      some (if x.isNegative then -n else n)
    else none
  else none

end Binary64

end Tabular
