import Tabular.Row
import Tabular.Settings

/-!
Tables: rows under distinct keys, in the order in which they were inserted. Every inserted row takes
the next slot; an index leads from a key to the slot of its row. Keys once taken are remembered, so
generated keys are never given out twice.
-/
namespace Tabular

structure Entry where
  slot : Nat
  key : Value
  row : Row
  deriving DecidableEq

namespace Entry

def withRow (slot : Nat) (row : Row) (e : Entry) : Entry :=
  if e.slot = slot then { e with row } else e

@[simp] theorem slot_withRow (slot : Nat) (row : Row) (e : Entry) :
    (e.withRow slot row).slot = e.slot := by
  unfold withRow
  split <;> rfl

@[simp] theorem key_withRow (slot : Nat) (row : Row) (e : Entry) :
    (e.withRow slot row).key = e.key := by
  unfold withRow
  split <;> rfl

theorem withRow_of_slot_eq {slot : Nat} {e : Entry} (h : e.slot = slot) (row : Row) :
    e.withRow slot row = { e with row } := if_pos h

theorem withRow_of_slot_ne {slot : Nat} {e : Entry} (h : e.slot ≠ slot) (row : Row) :
    e.withRow slot row = e := if_neg h

end Entry

structure Table where
  name : String
  columns : List Column
  keyName : String
  /-- Whether the key column was added to the declared ones. -/
  implicitKey : Bool
  settings : Settings
  /-- The rows by ascending slot. -/
  entries : List Entry := []
  index : List (Value × Nat) := []
  nextSlot : Nat := 0
  /-- The keys of all rows ever inserted. -/
  taken : List Value := []
  /-- Where the search for the next generated key starts. -/
  cursor : Int64
  deriving DecidableEq

/-- What an operation answers, and the state that it leaves also if it fails. -/
abbrev Outcome (σ α : Type) := Except Error α × σ

namespace Table

def repeated? : List String → List Column → Option Column
  | _, [] => none
  | seen, c :: cs => if seen.contains c.name then some c else repeated? (c.name :: seen) cs

/-- An empty table. Without a declared key it gets a generated one as its first column. -/
def create (name : String) (columns : List Column) (key : Option String)
    (settings : Settings) : Except Error Table :=
  if Text.isBlankText name then .error .blankTableName
  else if columns.isEmpty then .error (.noColumns name)
  else match repeated? [] columns with
    | some c => .error (.repeatedColumn c.name name)
    | none =>
      match key with
      | some key =>
        if columns.any (·.name == key) then
          .ok { name, columns, keyName := key, implicitKey := false, settings,
                cursor := settings.firstKey }
        else .error (.unknownKeyColumn key name)
      | none =>
        let key := settings.keyName
        if columns.any (·.name == key) then .error (.implicitKeyTaken key name)
        else
          .ok { name, columns := .generatedKey key :: columns, keyName := key,
                implicitKey := true, settings, cursor := settings.firstKey }

def rename (t : Table) (name : String) : Outcome Table Unit :=
  if Text.isBlankText name then (.error .blankTableName, t) else (.ok (), { t with name })

def column? (t : Table) (name : String) : Option Column := t.columns.find? (·.name == name)

/-- The key always names a column; only a table that was not created lacks it. -/
def keyColumn (t : Table) : Column := (t.column? t.keyName).getD (.generatedKey t.keyName)

def size (t : Table) : Nat := t.entries.length

def toList (t : Table) : List (Value × Row) := t.entries.map fun e => (e.key, e.row)

@[simp] theorem length_toList (t : Table) : t.toList.length = t.size := by simp [toList, size]

def generatesKeys (t : Table) : Bool := t.keyColumn.affinity = .integer

def slot? (t : Table) (key : Value) : Option Nat := t.index.lookup key

def entryAt? (t : Table) (slot : Nat) : Option Entry := t.entries.find? (·.slot == slot)

/-- Builds a row of the table. Cells that are not given are NULL; the key may be left open. -/
def row (t : Table) (data : List (String × Raw)) : Except Error Row :=
  let missing := t.columns.filter fun c => data.all (·.1 != c.name)
  Row.build t.columns (data ++ missing.map fun c => (c.name, .null)) (some t.keyName)

def columnCells (t : Table) (column : String) : Except Error (List Value) :=
  match t.columns.findIdx? (·.name == column) with
  | some i => .ok (t.entries.map fun e => e.row.cells[i]?.getD .null)
  | none => .error (.unknownColumn t.name column)

end Table
end Tabular
