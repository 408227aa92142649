import Tabular.Raw.Basic
import Tabular.Json.Reader
import Tabular.Json.Writer

/-!
Raw values as documents. A value is an object with one field that names its kind; NULL is its name
alone. A real number that is not finite has no form of its own and is written as null.
-/
namespace Tabular.Raw

def toJson : Raw → Json
  | .null => .text "Null"
  | .bool b => .record [("Bool", .bool b)]
  | .int n => .record [("Int", .integer n.toInt)]
  | .real x => .record [("Float", .ofReal x)]
  | .text s => .record [("Str", .text s)]
  | .bytes b => .record [("Bytes", .ofBytes b)]
  | .tagged a inner => .record [("Typed", .array [.text a.tag, inner.toJson])]
  | .object d => .record [("Opaque", .ofBytes d)]

def serialize (v : Raw) : List UInt8 := Text.Utf8.encodeChars v.toJson.write

/-- A name, alone or as the one field of an object that holds null. -/
def unitName? : Json → Option String
  | .text s => some s
  | .object [(key, .null)] => key
  | _ => none

def toBytes? : Json → Option (List UInt8)
  | .array items => items.mapM fun
    | .integer n => if 0 ≤ n ∧ n < 256 then some (UInt8.ofNat n.toNat) else none
    | _ => none
  | _ => none

def toReal? : Json → Option Binary64
  | .real x => some x
  | .integer n => some (Binary64.ofInt n)
  | _ => none

/-- The value of the kind `name` that a field holds, tagged values aside. -/
def ofField? (name : String) (payload : Json) : Option Raw :=
  match name, payload with
  | "Null", .null => some .null
  | "Bool", .bool b => some (.bool b)
  | "Int", .integer n => (toWord? n).map .int
  | "Float", payload => (toReal? payload).map .real
  | "Str", .text s => some (.text s)
  | "Bytes", payload => (toBytes? payload).map .bytes
  | "Opaque", payload => (toBytes? payload).map .object
  | _, _ => none

def ofJson? : Json → Option Raw
  | .text s => if s = "Null" then some .null else none
  | .object [(some "Typed", .array [tag, inner])] => do
    let name ← unitName? tag
    let affinity ← Affinity.ofTag? name
    let inner ← ofJson? inner
    return .tagged affinity inner
  | .object [(some name, payload)] => ofField? name payload
  | _ => none

def deserialize? (bytes : List UInt8) : Option Raw := do
  let j ← Json.readBytes? bytes
  ofJson? j

end Tabular.Raw
