import Tabular.Column

/-! Settings shared by a database and its tables, and the documents that hold them. -/
namespace Tabular

structure Settings where
  /-- The key column of tables that declare none. -/
  keyName : String := "rowid"
  /-- The first key that a new table generates. -/
  firstKey : Int64 := 1
  /-- Whether columns declared through the settings are strict. -/
  strict : Bool := false
  deriving DecidableEq

namespace Settings

def validate (s : Settings) : Except Error Unit :=
  if Text.isBlankText s.keyName then .error .blankKeyName else .ok ()

def column (s : Settings) (name : String) (a : Affinity) : Column :=
  { name, affinity := a, strict := s.strict }

def readText? : Json → Option String
  | .text s => some s
  | _ => none

def readWord? : Json → Option Int64
  | .integer n => toWord? n
  | _ => none

def readBool? : Json → Option Bool
  | .bool b => some b
  | _ => none

/-- A field of an object, which may be missing but not given twice. -/
def fieldOr {α : Type} (read? : Json → Option α) (standard : α) (key : String)
    (fields : List (Option String × Json)) : Option α :=
  match fields.filter (·.1 == some key) with
  | [] => some standard
  | [(_, v)] => read? v
  | _ => none

/-- An item of an array, which may end before it. -/
def itemOr {α : Type} (read? : Json → Option α) (standard : α) (i : Nat) (items : List Json) :
    Option α :=
  match items[i]? with
  | none => some standard
  | some v => read? v

/-- Settings are an object, of which other fields are passed over, or an array of the fields in
order. -/
def ofJson? : Json → Option Settings
  | .object fields => do
    guard (fields.all (·.1.isSome))
    let keyName ← fieldOr readText? "rowid" "rowid_column" fields
    let firstKey ← fieldOr readWord? 1 "autoincrement_start" fields
    let strict ← fieldOr readBool? false "strict_by_default" fields
    return { keyName, firstKey, strict }
  | .array items => do
    guard (items.length ≤ 3)
    let keyName ← itemOr readText? "rowid" 0 items
    let firstKey ← itemOr readWord? 1 1 items
    let strict ← itemOr readBool? false 2 items
    return { keyName, firstKey, strict }
  | _ => none

def parse (s : String) : Except Error Settings :=
  match Json.read? s.toList >>= ofJson? with
  | none => .error .unreadableSettings
  | some settings => settings.validate.map fun _ => settings

end Settings
end Tabular
