import Tabular.Error
import Tabular.Raw.Json
import Tabular.Decimal.Numeral
import Tabular.Binary64.Rounding

/-!
Storing raw values: the form that a value takes in each storage class, the conversion that an
affinity asks for, and the one way in which a value is stored by its own kind and tags. Stored
values are compared, which fails for unrelated kinds, and read again: scalars as themselves, blobs
as arrays of numbers, and a stored document as the object that it spells, if it spells one.
-/
namespace Tabular

def isNullText (s : String) : Bool :=
  let word := String.ofList (Text.lowerAscii (Text.trimChars s.toList))
  word == "" || word == "null" || word == "none"

/-- The word that a real number is, if it is an integer and fits. -/
def integral? (x : Binary64) : Option Int64 := x.toInt? >>= toWord?

def readWord? (cs : List Char) : Option Int64 := Decimal.readInt? cs >>= toWord?

/-- The integer that a text spells, as an integer or else as a real number. -/
def integerOfText? (s : String) : Option Int64 :=
  let cs := Text.trimChars s.toList
  (readWord? cs).or (Decimal.readReal? cs >>= integral?)

def realOfText? (s : String) : Option Binary64 := Decimal.readReal? (Text.trimChars s.toList)

/-- The number, truth value or NULL that a text spells, or the text itself. -/
def numericOfText (s : String) : Value :=
  let cs := Text.lowerAscii (Text.trimChars s.toList)
  let word := String.ofList cs
  if isNullText word then .null
  else if word = "true" then .integer 1
  else if word = "false" then .integer 0
  else
    let whole := if cs.contains '.' || cs.contains 'e' then none else readWord? cs
    match whole, Decimal.readReal? cs with
    | some n, _ => .integer n
    | none, some x => .real x
    | none, none => .text s

namespace StorageClass

def isNative : StorageClass → Raw → Bool
  | .null, .null => true
  | .integer, .int _ | .integer, .bool _ => true
  | .real, .real _ | .real, .int _ | .real, .bool _ => true
  | .text, .text _ | .text, .bytes _ => true
  | .blob, .bytes _ => true
  | _, _ => false

/-- Checks that a value is of the class without conversion. -/
def validate (c : StorageClass) (raw : Raw) : Except Error Unit :=
  if c.isNative raw.untagged then .ok () else .error (.notStorable raw.untagged c)

/-- The form of an untagged value in a class. Every value has a form as a blob. -/
def form? : StorageClass → Raw → Option Value
  | .null, .null => some .null
  | .null, .text s => if isNullText s then some .null else none
  | .integer, .bool b => some (.integer (if b then 1 else 0))
  | .integer, .int n => some (.integer n)
  | .integer, .real x => (integral? x).map .integer
  | .integer, .text s => (integerOfText? s).map .integer
  | .real, .bool b => some (.real (if b then Binary64.one else Binary64.zero))
  | .real, .int n => some (.real (Binary64.ofInt n.toInt))
  | .real, .real x => some (.real x)
  | .real, .text s => (realOfText? s).map .real
  | .text, .text s => some (.text s)
  | .text, .bytes b => some (.text (Text.Utf8.decodeLossy b))
  | .blob, .bytes b => some (.blob b)
  | .blob, .object d => some (.object d)
  | .blob, v => some (.object v.serialize)
  | _, _ => none

def coerce (c : StorageClass) (raw : Raw) : Except Error Value :=
  match c.form? raw.untagged with
  | some v => .ok v
  | none => .error (.notStorable raw.untagged c)

/-- The coercion depends on a value only below its tags. -/
@[simp] theorem coerce_tagged (c : StorageClass) (a : Affinity) (v : Raw) :
    c.coerce (.tagged a v) = c.coerce v := rfl

theorem form?_blob_isSome (v : Raw) : (form? .blob v).isSome = true := by
  cases v <;> simp [form?]

end StorageClass

namespace Affinity

def accepts (a : Affinity) (raw : Raw) : Bool :=
  match a, raw.untagged with
  | .integer, .int _ | .integer, .bool _ => true
  | .real, .real _ | .real, .int _ | .real, .bool _ => true
  | .text, .text _ => true
  | .blob, .bytes _ => true
  | .numeric, .int _ | .numeric, .real _ | .numeric, .text _ | .numeric, .bool _
  | .numeric, .null => true
  | .any, _ => true
  | _, _ => false

end Affinity

def coerceNumeric (raw : Raw) : Except Error Value :=
  match raw.untagged with
  | .text s => .ok (numericOfText s)
  | .real x => .ok (.real x)
  | .null => .ok .null
  | .int n => .ok (.integer n)
  | .bool b => .ok (.integer (if b then 1 else 0))
  | v => .error (.notNumeric v)

/-- Stores a value by its kind, or by its outermost affinity if it has one. -/
def Raw.store : Raw → Except Error Value
  | .null => .ok .null
  | .bool b => StorageClass.integer.coerce (.bool b)
  | .int n => StorageClass.integer.coerce (.int n)
  | .real x => StorageClass.real.coerce (.real x)
  | .text s => StorageClass.text.coerce (.text s)
  | .bytes b => StorageClass.blob.coerce (.bytes b)
  | .object d => StorageClass.blob.coerce (.object d)
  | .tagged affinity inner =>
    match affinity with
    | .integer => StorageClass.integer.coerce inner
    | .real => StorageClass.real.coerce inner
    | .text => StorageClass.text.coerce inner
    | .blob => StorageClass.blob.coerce inner
    | .numeric => coerceNumeric inner
    | .any => inner.store

def Affinity.coerce (a : Affinity) (raw : Raw) : Except Error Value := (Raw.tagged a raw).store

@[simp] theorem Raw.store_tagged (a : Affinity) (v : Raw) :
    (Raw.tagged a v).store = a.coerce v := rfl

@[simp] theorem Affinity.coerce_any (v : Raw) : Affinity.any.coerce v = v.store := rfl

@[simp] theorem Affinity.coerce_integer (v : Raw) :
    Affinity.integer.coerce v = StorageClass.integer.coerce v := rfl

@[simp] theorem Affinity.coerce_real (v : Raw) :
    Affinity.real.coerce v = StorageClass.real.coerce v := rfl

@[simp] theorem Affinity.coerce_text (v : Raw) :
    Affinity.text.coerce v = StorageClass.text.coerce v := rfl

@[simp] theorem Affinity.coerce_blob (v : Raw) :
    Affinity.blob.coerce v = StorageClass.blob.coerce v := rfl

@[simp] theorem Affinity.coerce_numeric (v : Raw) :
    Affinity.numeric.coerce v = coerceNumeric v := rfl

/-- A stored value is stored again as it is. -/
@[simp] theorem Value.store_toRaw (v : Value) : v.toRaw.store = .ok v := by
  cases v <;> rfl

namespace Value

def compare (v w : Value) : Except Error Ordering :=
  match v.order? w with
  | some o => .ok o
  | none => .error (.incomparable v w)

@[simp] theorem compare_eq_ok_iff {v w : Value} {o : Ordering} :
    v.compare w = .ok o ↔ v.order? w = some o := by
  unfold compare
  split <;> simp_all

def toJson : Value → Json
  | .null => .null
  | .integer n => .integer n.toInt
  | .real x => .ofReal x
  | .text s => .text s
  | .blob b => .ofBytes b
  | .object d => ((Json.readBytes? d).bind Json.normal?).getD (.ofBytes d)

def readObject {α : Type} (read? : List UInt8 → Option α) : Value → Except Error α
  | .object d =>
    match read? d with
    | some a => .ok a
    | none => .error .unreadableObject
  | v => .error (.notAnObject v)

def document : Value → Except Error Json :=
  readObject fun d => (Json.readBytes? d).bind Json.normal?

def revive : Value → Except Error Raw := readObject Raw.deserialize?

end Value

end Tabular
