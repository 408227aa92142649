import Tabular.Binary64.Rounding

/-!
Arithmetic: exact on the numbers, then rounded to nearest. An operation without a numeric result
gives the NaN with the sign set; a NaN operand is passed on as a quiet NaN, the first of two.
-/
namespace Tabular.Binary64

def invalid : Binary64 := nan true

def quiet (x : Binary64) : Binary64 := ⟨x.bits ||| 0x0008000000000000⟩

/-- A finite number in units of `2 ^ e`, where `e` is at most its exponent. -/
def scaled (x : Binary64) (e : Int) : Int :=
  let n : Int := (x.significand * raise 2 (x.exponent - e) : Nat)
  if x.isNegative then -n else n

def onNumbers (f : Binary64 → Binary64 → Binary64) (x y : Binary64) : Binary64 :=
  if x.isNaN then x.quiet else if y.isNaN then y.quiet else f x y

/-- A sum that is exactly zero is -0 only where both terms are. -/
def add : Binary64 → Binary64 → Binary64 := onNumbers fun x y =>
  if x.isInfinite then
    if y.isInfinite && x.isNegative != y.isNegative then invalid else x
  else if y.isInfinite then y
  else
    let e := min x.exponent y.exponent
    let s := x.scaled e + y.scaled e
    if s = 0 then ofMagnitude (x.isNegative && y.isNegative) 0
    else nearestScaled (decide (s < 0)) s.natAbs e

def sub (x y : Binary64) : Binary64 :=
  onNumbers (fun x y => x.add y.neg) x y

def mul : Binary64 → Binary64 → Binary64 := onNumbers fun x y =>
  let negative := x.isNegative != y.isNegative
  if x.isInfinite || y.isInfinite then
    if x.isZero || y.isZero then invalid else infinity negative
  else nearestScaled negative (x.significand * y.significand) (x.exponent + y.exponent)

def div : Binary64 → Binary64 → Binary64 := onNumbers fun x y =>
  let negative := x.isNegative != y.isNegative
  if x.isInfinite then
    if y.isInfinite then invalid else infinity negative
  else if y.isInfinite then ofMagnitude negative 0
  else if y.isZero then
    if x.isZero then invalid else infinity negative
  else
    let e := x.exponent - y.exponent
    nearestRatio negative (x.significand * raise 2 e) (y.significand * raise 2 (-e))

/-- The remainder of division toward zero. It has the sign of the dividend and is exact. -/
def rem : Binary64 → Binary64 → Binary64 := onNumbers fun x y =>
  if x.isInfinite || y.isZero then invalid
  else if y.isInfinite then x
  else
    let e := min x.exponent y.exponent
    nearestScaled x.isNegative ((x.scaled e).natAbs % (y.scaled e).natAbs) e

end Tabular.Binary64
