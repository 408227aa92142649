import Tabular.Raw.Basic
import Tabular.Binary64.Rounding
import Tabular.Decimal.Layout

/-!
Stored values. Two values are equal as values if they are the same, real numbers bit by bit. For
conditions there is a looser equality, and an order between values of related kinds.
-/
namespace Tabular

inductive Value where
  | null
  | integer (n : Int64)
  | real (x : Binary64)
  | text (s : String)
  | blob (b : List UInt8)
  /-- A document stored as a blob. It has no order. -/
  | object (document : List UInt8)
  deriving DecidableEq

namespace Value

def isNull : Value → Bool
  | .null => true
  | _ => false

@[simp] theorem isNull_iff (v : Value) : v.isNull = true ↔ v = .null := by cases v <;> simp [isNull]

def storageClass : Value → StorageClass
  | .null => .null
  | .integer _ => .integer
  | .real _ => .real
  | .text _ => .text
  | .blob _ => .blob
  | .object _ => .blob

def typeName (v : Value) : String :=
  match v with
  | .object _ => "SERIALIZED BLOB"
  | v => v.storageClass.name

def toRaw : Value → Raw
  | .null => .null
  | .integer n => .int n
  | .real x => .real x
  | .text s => .text s
  | .blob b => .bytes b
  | .object d => .object d

theorem toRaw_inj {v w : Value} : v.toRaw = w.toRaw ↔ v = w := by
  cases v <;> cases w <;> simp [toRaw]

@[simp] theorem untagged_toRaw (v : Value) : v.toRaw.untagged = v.toRaw := by cases v <;> rfl

@[simp] theorem isNull_toRaw (v : Value) : v.toRaw.isNull = v.isNull := by cases v <;> rfl

def number? : Value → Option Binary64
  | .integer n => some (Binary64.ofInt n.toInt)
  | .real x => some x
  | _ => none

/-- The order of two values, if they are of related kinds: integers and real numbers with each
other, by total order once a real number takes part, and every other kind with itself. -/
def order? : Value → Value → Option Ordering
  | .null, .null => some .eq
  | .integer a, .integer b => some (compare a.toInt b.toInt)
  | .integer a, .real y => some ((Binary64.ofInt a.toInt).totalOrder y)
  | .real x, .integer b => some (x.totalOrder (Binary64.ofInt b.toInt))
  | .real x, .real y => some (x.totalOrder y)
  | .text s, .text t => some (compare s t)
  | .blob a, .blob b => some (compare a b)
  | _, _ => none

/-- Equality as conditions see it: numbers are compared as numbers, other kinds as they are. -/
def matches? : Value → Value → Bool
  | .integer a, .real y => (Binary64.ofInt a.toInt).sameNumber y
  | .real x, .integer b => (Binary64.ofInt b.toInt).sameNumber x
  | .real x, .real y => x.sameNumber y
  | v, w => v == w

/-- A value as it is shown. Blobs show their size only. -/
def shown : Value → String
  | .null => "NULL"
  | .integer n => Decimal.intText n.toInt
  | .real x => Decimal.plain.text x
  | .text s => s
  | .blob b => "<blob " ++ Decimal.natText b.length ++ " bytes>"
  | .object d => "<serialized " ++ Decimal.natText d.length ++ " bytes>"

end Value
end Tabular
