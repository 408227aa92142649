import Tabular.Binary64.Rounding

/-!
The fewest decimal digits that read back as a given number: the coarsest grid of decimal numbers
with a point among the reals that round to it, and on that grid the point nearest to it.
-/
namespace Tabular.Decimal

inductive Tie where
  | up | even
  deriving DecidableEq

/-- The reals that round to a positive number, in units of `unit / 4` around its significand.
Both ends belong to them exactly if the significand is even. -/
structure Neighbourhood where
  low : Nat
  mid : Nat
  high : Nat
  closed : Bool
  exponent : Int

/-- Below a power of two the numbers are twice as dense. -/
def Neighbourhood.of (x : Binary64) : Neighbourhood where
  low := 4 * x.significand -
    (if x.significand = 0x10000000000000 ∧ 0x20000000000000 ≤ x.magnitude then 1 else 2)
  mid := 4 * x.significand
  high := 4 * x.significand + 2
  closed := decide (x.significand % 2 = 0)
  exponent := x.exponent - 2

/-- Whether `c · 10 ^ k` lies in the neighbourhood; `up` and `down` bring both to integers. -/
def Neighbourhood.holds (n : Neighbourhood) (up down c : Nat) : Bool :=
  if n.closed then decide (n.low * up ≤ c * down) && decide (c * down ≤ n.high * up)
  else decide (n.low * up < c * down) && decide (c * down < n.high * up)

def Neighbourhood.onGrid? (n : Neighbourhood) (tie : Tie) (k : Int) : Option Nat :=
  let up := raise 2 n.exponent * raise 10 (-k)
  let down := raise 2 (-n.exponent) * raise 10 k
  let c := n.mid * up / down
  match n.holds up down c, n.holds up down (c + 1) with
  | false, false => none
  | true, false => some c
  | false, true => some (c + 1)
  | true, true =>
    let below := n.mid * up - c * down
    let above := (c + 1) * down - n.mid * up
    if below < above then some c
    else if above < below then some (c + 1)
    else match tie with
      | .up => some (c + 1)
      | .even => some (if c % 2 = 0 then c else c + 1)

/-- A power of ten above the number: `78913 / 262144` is just below the decimal logarithm of 2. -/
def gridAbove (x : Binary64) : Int := (x.exponent + x.significand.log2) * 78913 / 262144 + 1

/-- The shortest decimal `c · 10 ^ k` of a finite number that is not zero. Grids go down from one
above the number; seventeen digits always suffice, so one of them has a point. -/
def shortest (tie : Tie) (x : Binary64) : Nat × Int :=
  let n := Neighbourhood.of x
  let grids := (List.range 20).map fun (i : Nat) => gridAbove x - (i : Int)
  (grids.findSome? fun k => (n.onGrid? tie k).map (·, k)).getD (0, 0)

end Tabular.Decimal
