import Tabular.Decimal.Shortest

/-!
Writing numbers as decimal text. What differs from one format to the next is gathered in one
record: which powers of ten are written in full, whether an integer keeps a point, and the sign of
a positive exponent.
-/
namespace Tabular.Decimal

structure Layout where
  tie : Tie
  /-- Whether a first digit worth `10 ^ p` is written in place, without an exponent. -/
  inPlace : Int → Bool
  /-- Integers end in `.0`. -/
  keepsPoint : Bool
  /-- Positive exponents have a plus sign. -/
  signsExponent : Bool

def digits (n : Nat) : List Char := Nat.toDigits 10 n

def natText (n : Nat) : String := String.ofList (digits n)

def intText (n : Int) : String :=
  if n < 0 then String.ofList ('-' :: digits n.natAbs) else natText n.natAbs

def zeros (n : Nat) : List Char := List.replicate n '0'

/-- Digits `ds` of which the first is worth `10 ^ p`. -/
def placed (keepsPoint : Bool) (ds : List Char) (p : Int) : List Char :=
  if p < 0 then '0' :: '.' :: zeros (-p - 1).toNat ++ ds
  else
    let n := p.toNat + 1
    if ds.length ≤ n then
      ds ++ zeros (n - ds.length) ++ (if keepsPoint then ['.', '0'] else [])
    else ds.take n ++ '.' :: ds.drop n

def exponentText (signsExponent : Bool) (p : Int) : List Char :=
  (if p < 0 then ['-'] else if signsExponent then ['+'] else []) ++ digits p.natAbs

def withExponent (signsExponent : Bool) (ds : List Char) (p : Int) : List Char :=
  let mantissa := match ds with
    | [] => []
    | [d] => [d]
    | d :: rest => d :: '.' :: rest
  mantissa ++ 'e' :: exponentText signsExponent p

def Layout.positive (l : Layout) (x : Binary64) : List Char :=
  if x.isZero then placed l.keepsPoint ['0'] 0
  else
    let (c, k) := shortest l.tie x
    let ds := digits c
    let p := k + ds.length - 1
    if l.inPlace p then placed l.keepsPoint ds p else withExponent l.signsExponent ds p

def Layout.chars (l : Layout) (x : Binary64) : List Char :=
  if x.isNaN then "NaN".toList
  else
    let body := if x.isInfinite then "inf".toList else l.positive x
    if x.isNegative then '-' :: body else body

def Layout.text (l : Layout) (x : Binary64) : String := String.ofList (l.chars x)

/-- Every digit in its place, and integers without a point. -/
def plain : Layout := ⟨.up, fun _ => true, false, false⟩

/-- For messages: numbers from `10 ^ -4` below `10 ^ 16` in place, integers with a point. -/
def diagnostic : Layout := ⟨.up, fun p => decide (-4 ≤ p ∧ p < 16), true, false⟩

/-- For documents: numbers from `10 ^ -5` below `10 ^ 16` in place, integers with a point, and a
sign before every exponent. -/
def interchange : Layout := ⟨.even, fun p => decide (-5 ≤ p ∧ p < 16), true, true⟩

end Tabular.Decimal
