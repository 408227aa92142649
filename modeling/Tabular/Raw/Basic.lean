import Tabular.Affinity
import Tabular.Decimal.Layout
import Tabular.Text.Printable

/-!
Raw values: what rows, keys, defaults and literals are given as, before they are stored. A raw value
may carry affinities that say how it wants to be stored. Its integers are words of 64 bits. As text
it stands in full in messages, and briefly in the names of expressions.
-/
namespace Tabular

def toWord? (n : Int) : Option Int64 :=
  if -0x8000000000000000 ≤ n ∧ n < 0x8000000000000000 then some (Int64.ofInt n) else none

theorem toWord?_eq_some_iff {n : Int} {w : Int64} : toWord? n = some w ↔ w.toInt = n := by
  unfold toWord?
  constructor
  · intro h
    split at h
    · rename_i fits
      cases h
      exact Int64.toInt_ofInt_of_le fits.1 fits.2
    · cases h
  · rintro rfl
    rw [if_pos ⟨w.le_toInt, w.toInt_lt⟩, Int64.ofInt_toInt]

theorem toWord?_eq_none_iff {n : Int} :
    toWord? n = none ↔ n < -0x8000000000000000 ∨ 0x8000000000000000 ≤ n := by
  unfold toWord?
  split <;> simp <;> omega

@[simp] theorem toWord?_toInt (w : Int64) : toWord? w.toInt = some w :=
  toWord?_eq_some_iff.2 rfl

inductive Raw where
  | null
  | bool (b : Bool)
  | int (n : Int64)
  | real (x : Binary64)
  | text (s : String)
  | bytes (b : List UInt8)
  | tagged (affinity : Affinity) (inner : Raw)
  /-- A document that stands for a value without a scalar form. -/
  | object (document : List UInt8)
  deriving DecidableEq

namespace Raw

def untagged : Raw → Raw
  | .tagged _ inner => inner.untagged
  | v => v

@[simp] theorem untagged_tagged (a : Affinity) (v : Raw) : (tagged a v).untagged = v.untagged := rfl

theorem untagged_untagged (v : Raw) : v.untagged.untagged = v.untagged := by
  induction v with
  | tagged a v ih => simpa using ih
  | _ => rfl

theorem untagged_ne_tagged (v : Raw) (a : Affinity) (w : Raw) : v.untagged ≠ .tagged a w := by
  induction v with
  | tagged b v ih => simpa using ih
  | _ => simp [untagged]

def isNull (v : Raw) : Bool :=
  match v.untagged with
  | .null => true
  | _ => false

@[simp] theorem isNull_tagged (a : Affinity) (v : Raw) : (tagged a v).isNull = v.isNull := rfl

def typeName : Raw → String
  | .null => "null"
  | .bool _ => "bool"
  | .int _ => "int"
  | .real _ => "float"
  | .text _ => "string"
  | .bytes _ => "bytes"
  | .tagged _ inner => inner.typeName
  | .object _ => "object"

/-- Equality with real numbers compared as numbers, so NaN differs from itself and -0 equals 0. -/
def equals : Raw → Raw → Bool
  | .null, .null => true
  | .bool a, .bool b => a == b
  | .int a, .int b => a == b
  | .real x, .real y => x.sameNumber y
  | .text s, .text t => s == t
  | .bytes a, .bytes b => a == b
  | .tagged a v, .tagged b w => a == b && v.equals w
  | .object a, .object b => a == b
  | _, _ => false

def rank : Raw → Nat
  | .null => 0
  | .bool _ => 1
  | .int _ => 2
  | .real _ => 3
  | .text _ => 4
  | .bytes _ => 5
  | .tagged .. => 6
  | .object _ => 7

/-- The order of raw values: by kind, then by content. It is undefined where NaN decides. -/
def compare? : Raw → Raw → Option Ordering
  | .bool a, .bool b => some (compare a.toNat b.toNat)
  | .int a, .int b => some (compare a.toInt b.toInt)
  | .real x, .real y => x.compare? y
  | .text s, .text t => some (compare s t)
  | .bytes a, .bytes b => some (compare a b)
  | .tagged a v, .tagged b w =>
    match compare a.rank b.rank with
    | .eq => v.compare? w
    | o => some o
  | .object a, .object b => some (compare a b)
  | v, w => some (compare v.rank w.rank)

def bytesText (bytes : List UInt8) : String :=
  "[" ++ String.intercalate ", " (bytes.map fun b => Decimal.natText b.toNat) ++ "]"

def describe : Raw → String
  | .null => "Null"
  | .bool b => "Bool(" ++ (if b then "true" else "false") ++ ")"
  | .int n => "Int(" ++ Decimal.intText n.toInt ++ ")"
  | .real x => "Float(" ++ Decimal.diagnostic.text x ++ ")"
  | .text s => "Str(" ++ Text.quoted s ++ ")"
  | .bytes b => "Bytes(" ++ bytesText b ++ ")"
  | .tagged a inner => "Typed(" ++ a.tag ++ ", " ++ inner.describe ++ ")"
  | .object d => "Opaque(" ++ bytesText d ++ ")"

/-- A value as it stands in an expression. Text is put between quotes as it is. -/
def literal (v : Raw) : String :=
  match v.untagged with
  | .null => "NULL"
  | .bool b => if b then "true" else "false"
  | .int n => Decimal.intText n.toInt
  | .real x => Decimal.plain.text x
  | .text s => "'" ++ s ++ "'"
  | other => "<" ++ other.typeName ++ ">"

end Raw
end Tabular
