import Tabular.Storage

/-! What queries answer: rows of named columns, or one value for each aggregate. -/
namespace Tabular

inductive Answer where
  | rows (names : List String) (lines : List (List Value))
  | aggregates (values : List (String × Value))
  deriving DecidableEq

namespace Answer

def columns : Answer → List String
  | .rows names _ => names
  | .aggregates values => values.map (·.1)

def rows? : Answer → Option (List (List Value))
  | .rows _ lines => some lines
  | .aggregates _ => none

def aggregate? (a : Answer) (text : String) : Option Value :=
  match a with
  | .rows .. => none
  | .aggregates values => values.lookup text

def size : Answer → Nat
  | .rows _ lines => lines.length
  | .aggregates _ => 1

/-- The values that a nested query stands for: the first of each row, or all aggregates. -/
def firstColumn : Answer → List Value
  | .rows _ lines => lines.filterMap List.head?
  | .aggregates values => values.map (·.2)

def setName {α : Type} (name : String) (v : α) : List (String × α) → List (String × α)
  | [] => [(name, v)]
  | (other, w) :: rest =>
    if name = other then (name, v) :: rest
    else if name < other then (name, v) :: (other, w) :: rest
    else (other, w) :: setName name v rest

/-- Values by name, in ascending order of names. The last counts where a name is repeated. -/
def byName {α : Type} (pairs : List (String × α)) : List (String × α) :=
  pairs.foldl (fun done (name, v) => setName name v done) []

def records : Answer → List (List (String × Value))
  | .rows names lines => lines.map fun line => byName (names.zip line)
  | .aggregates values => [byName values]

def recordJson (record : List (String × Value)) : Json :=
  .record (record.map fun (name, v) => (name, v.toJson))

def toJson (a : Answer) : Json :=
  match a with
  | .rows .. => .array (a.records.map recordJson)
  | .aggregates values => recordJson (byName values)

end Answer
end Tabular
