import Tabular.Binary64.Rounding

/-!
Numerals: decimal integers with an optional sign, and decimal fractions with an optional sign and
exponent, or the names of infinity and NaN in any letter case.
-/
namespace Tabular.Decimal

/-- The number that a sequence of decimal digits denotes. -/
def ofDigits (ds : List Char) : Nat := Nat.ofDigitChars 10 ds 0

@[simp] theorem ofDigits_toDigits (n : Nat) : ofDigits (Nat.toDigits 10 n) = n :=
  Nat.ofDigitChars_ten_toDigits

/-- Splits off a leading sign; `true` stands for minus. -/
def takeSign : List Char → Bool × List Char
  | '-' :: cs => (true, cs)
  | '+' :: cs => (false, cs)
  | cs => (false, cs)

def readNat? (cs : List Char) : Option Nat :=
  if cs.isEmpty || !cs.all Char.isDigit then none else some (ofDigits cs)

def readInt? (cs : List Char) : Option Int :=
  let (negative, ds) := takeSign cs
  (readNat? ds).map fun n => if negative then -(n : Int) else n

/-- What follows the digits of a real numeral: nothing, or `e` and an integer. -/
def readExponent? : List Char → Option Int
  | [] => some 0
  | c :: cs => if c = 'e' ∨ c = 'E' then readInt? cs else none

def takeFraction : List Char → List Char × List Char
  | '.' :: cs => (cs.takeWhile Char.isDigit, cs.dropWhile Char.isDigit)
  | cs => ([], cs)

/-- Digits on at least one side of the point, then an exponent. The value is `n · 10 ^ e`. -/
def readScaled? (cs : List Char) : Option (Nat × Int) :=
  let whole := cs.takeWhile Char.isDigit
  let (fraction, rest) := takeFraction (cs.dropWhile Char.isDigit)
  if whole.isEmpty && fraction.isEmpty then none
  else (readExponent? rest).map fun e => (ofDigits (whole ++ fraction), e - fraction.length)

def readReal? (cs : List Char) : Option Binary64 :=
  let (negative, body) := takeSign cs
  match readScaled? body with
  | some (n, e) => some (Binary64.nearestDecimal negative n e)
  | none =>
    let name := String.ofList (body.map Char.toLower)
    if name = "inf" ∨ name = "infinity" then some (Binary64.infinity negative)
    else if name = "nan" then some (Binary64.nan negative)
    else none

end Tabular.Decimal
