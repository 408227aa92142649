import Tabular.Storage

/-!
Columns: how a raw cell becomes a stored one. A lax column converts through its affinity; a strict
one takes only what the affinity stores as it is. NULL is replaced by the default first.
-/
namespace Tabular

structure Column where
  name : String
  affinity : Affinity
  strict : Bool := false
  nullable : Bool := false
  default : Option Raw := none
  autoincrement : Bool := false
  deriving DecidableEq

namespace Column

def declare (name typeName : String) : Except Error Column :=
  match Affinity.ofTypeName? typeName with
  | some a => .ok { name, affinity := a }
  | none => .error (.unknownType typeName)

def generatedKey (name : String) : Column := { name, affinity := .integer, autoincrement := true }

def generated (c : Column) : Except Error Column :=
  if c.affinity = .integer then .ok { c with autoincrement := true }
  else .error (.notAutoincrement c.name c.affinity)

def rename (c : Column) (name : String) : Except Error Column :=
  if Text.isBlankText name then .error .blankColumnName else .ok { c with name }

def store (c : Column) (raw : Raw) : Except Error Value :=
  if raw.isNull then .ok .null
  else if c.strict then
    if c.affinity.accepts raw then raw.store
    else .error (.strictColumn c.name c.affinity raw)
  else c.affinity.coerce raw

/-- The raw cell with the default in the place of NULL. -/
def fill (c : Column) (raw : Raw) : Raw := if raw.isNull then c.default.getD raw else raw

/-- Stores a cell of a row. NULL may stand only in nullable columns, and for the time being where
the value is generated later. -/
def resolve (c : Column) (raw : Raw) (deferred : Bool) : Except Error Value :=
  let raw := c.fill raw
  if raw.isNull && !c.nullable && !deferred then .error (.nullCell c.name) else c.store raw

def equalDefaults : Option Raw → Option Raw → Bool
  | none, none => true
  | some v, some w => v.equals w
  | _, _ => false

/-- Columns are interchangeable if they agree in all but the generation of values. -/
def equals (c d : Column) : Bool :=
  c.name == d.name && c.affinity == d.affinity && c.strict == d.strict &&
    equalDefaults c.default d.default && c.nullable == d.nullable

def compareDefaults? : Option Raw → Option Raw → Option Ordering
  | none, none => some .eq
  | none, some _ => some .lt
  | some _, none => some .gt
  | some v, some w => v.compare? w

def andThen : Option Ordering → Option Ordering → Option Ordering
  | some .eq, o => o
  | o, _ => o

def compare? (c d : Column) : Option Ordering :=
  andThen (some (compare c.name d.name)) <|
  andThen (some (compare c.affinity.rank d.affinity.rank)) <|
  andThen (some (compare c.strict.toNat d.strict.toNat)) <|
  andThen (compareDefaults? c.default d.default) <|
  some (compare c.nullable.toNat d.nullable.toNat)

def equalLists : List Column → List Column → Bool
  | [], [] => true
  | c :: cs, d :: ds => c.equals d && equalLists cs ds
  | _, _ => false

theorem names_of_equalLists {cs ds : List Column} (h : equalLists cs ds = true) :
    cs.map (·.name) = ds.map (·.name) := by
  induction cs, ds using equalLists.induct with
  | case1 => rfl
  | case2 c cs d ds ih =>
    simp only [equalLists, equals, Bool.and_eq_true, beq_iff_eq] at h
    simp [h.1.1.1.1.1, ih h.2]
  | case3 cs ds _ _ => simp_all [equalLists]

def toJson (c : Column) : Json := .record
  [("name", .text c.name), ("affinity", .text c.affinity.tag), ("strict", .bool c.strict),
   ("nullable", .bool c.nullable), ("default", (c.default.map Raw.toJson).getD .null),
   ("autoincrement", .bool c.autoincrement)]

end Column
end Tabular
