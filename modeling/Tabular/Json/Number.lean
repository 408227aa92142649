import Tabular.Json.Basic
import Tabular.Binary64.Arithmetic
import Tabular.Decimal.Numeral

/-!
JSON numbers. An integer of 64 bits stays an integer. Any other number is read quickly rather than
exactly: the leading digits are rounded to a binary number, which is then multiplied or divided by
a rounded power of ten, so the last bit may differ from the nearest number's.
-/
namespace Tabular.Json

/-- Reads digits as long as the number stays below `2 ^ 64`, and returns those that are left. -/
def takeFitting (n : Nat) : List Char → Nat × List Char
  | [] => (n, [])
  | d :: ds =>
    let m := Nat.ofDigitChars 10 [d] n
    if m < 0x10000000000000000 then takeFitting m ds else (n, d :: ds)

def powerOfTen (n : Nat) : Binary64 := Binary64.nearestDecimal false 1 n

/-- `n · 10 ^ e` for `n` below `2 ^ 64`. Dividing twice by `10 ^ 308` leaves nothing of it. -/
def scale? (n : Nat) (e : Int) : Option Binary64 :=
  let x := Binary64.ofInt n
  if 0 ≤ e then
    if n = 0 then some x
    else if e ≤ 308 then
      let y := x.mul (powerOfTen e.toNat)
      if y.isInfinite then none else some y
    else none
  else
    let down := (-e).toNat
    if down ≤ 308 then some (x.div (powerOfTen down))
    else if down ≤ 616 then some ((x.div (powerOfTen 308)).div (powerOfTen (down - 308)))
    else some Binary64.zero

structure Numeral where
  negative : Bool
  whole : List Char
  fraction : List Char
  exponent : Option Int

/-- An integer, unless it is a negative zero or does not fit 64 bits with its sign. -/
def ofWhole (negative : Bool) (n : Nat) : Json :=
  if !negative then .integer n
  else if n = 0 ∨ 0x8000000000000000 < n then .real (Binary64.ofInt n).neg
  else .integer (-(n : Int))

def ofMagnitude (negative : Bool) (x : Option Binary64) : Json :=
  match x with
  | none => .unreadable
  | some x => .real (if negative then x.neg else x)

/-- Exponents of more than 31 bits are not added to the scale of the digits. -/
def Numeral.value (t : Numeral) : Json :=
  let (n, dropped) := takeFitting 0 t.whole
  if t.fraction.isEmpty && t.exponent.isNone && dropped.isEmpty then ofWhole t.negative n
  else
    let (n, unused) := takeFitting n t.fraction
    let e : Int := dropped.length + unused.length - t.fraction.length
    let written := t.exponent.getD 0
    if 0x80000000 ≤ written.natAbs then
      if n ≠ 0 ∧ 0 < written then .unreadable else ofMagnitude t.negative (some Binary64.zero)
    else ofMagnitude t.negative (scale? n (e + written))

def readFraction? : List Char → Option (List Char × List Char)
  | '.' :: cs =>
    let ds := cs.takeWhile Char.isDigit
    if ds.isEmpty then none else some (ds, cs.dropWhile Char.isDigit)
  | cs => some ([], cs)

def readExponent? : List Char → Option (Option Int)
  | [] => some none
  | c :: cs => if c = 'e' ∨ c = 'E' then (Decimal.readInt? cs).map some else none

/-- Reads a whole number text. Only a lone zero starts with a zero. -/
def readNumeral? (cs : List Char) : Option Numeral :=
  let (negative, body) := match cs with
    | '-' :: rest => (true, rest)
    | cs => (false, cs)
  let whole := body.takeWhile Char.isDigit
  if whole.isEmpty || (whole.head? == some '0' && 1 < whole.length) then none
  else do
    let (fraction, rest) ← readFraction? (body.dropWhile Char.isDigit)
    let exponent ← readExponent? rest
    return { negative, whole, fraction, exponent }

def readNumber? (cs : List Char) : Option Json := (readNumeral? cs).map Numeral.value

end Tabular.Json
