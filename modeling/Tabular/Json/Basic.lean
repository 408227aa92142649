import Tabular.Binary64.Basic

/-!
JSON trees. A tree keeps the fields of an object as they were written, repeated keys included; its
normal form has every key once, with the last value given for it, and the keys in order.
-/
namespace Tabular

inductive Json where
  | null
  | bool (b : Bool)
  | integer (n : Int)
  | real (x : Binary64)
  | text (s : String)
  | array (items : List Json)
  | object (fields : List (Option String × Json))
  /-- A number out of range, or a text in which half of a surrogate pair stands alone. A key of the
  latter kind is `none`. -/
  | unreadable

namespace Json

def record (fields : List (String × Json)) : Json :=
  .object (fields.map fun (key, value) => (some key, value))

/-- A number, or null where it is not finite: JSON has no word for infinity. -/
def ofReal (x : Binary64) : Json := if x.isFinite then .real x else .null

def ofBytes (bytes : List UInt8) : Json := .array (bytes.map fun b => .integer b.toNat)

mutual

def depth : Json → Nat
  | .array items => depthItems items + 1
  | .object fields => depthFields fields + 1
  | _ => 0

def depthItems : List Json → Nat
  | [] => 0
  | v :: vs => max v.depth (depthItems vs)

def depthFields : List (Option String × Json) → Nat
  | [] => 0
  | (_, v) :: rest => max v.depth (depthFields rest)

end

/-- Sets the value of a key in a list of fields in ascending order of keys. -/
def setField (key : String) (value : Json) :
    List (Option String × Json) → List (Option String × Json)
  | [] => [(some key, value)]
  | (k, v) :: rest =>
    match k with
    | none => (k, v) :: setField key value rest
    | some k' =>
      if key = k' then (some key, value) :: rest
      else if key < k' then (some key, value) :: (k, v) :: rest
      else (k, v) :: setField key value rest

mutual

/-- The normal form, if every part of the tree stands for a value. -/
def normal? : Json → Option Json
  | .array items => (normalItems? items).map .array
  | .object fields => (normalFields? [] fields).map .object
  | .unreadable => none
  | v => some v

def normalItems? : List Json → Option (List Json)
  | [] => some []
  | v :: vs => do
    let v ← v.normal?
    let vs ← normalItems? vs
    return v :: vs

def normalFields? (done : List (Option String × Json)) :
    List (Option String × Json) → Option (List (Option String × Json))
  | [] => some done
  | (key, v) :: rest => do
    let key ← key
    let v ← v.normal?
    normalFields? (setField key v done) rest

end

end Json
end Tabular
