import Tabular.Query.Plan
import Tabular.Query.Cell
import Tabular.Query.Broadcast
import Tabular.Query.Wildcard
import Tabular.Query.Sorting
import Tabular.Query.Answer
import Tabular.Aggregate.Apply
import Tabular.Database

/-!
Evaluation over whole columns. Every operand gives a vector with one value for each row of the table
that it reads, and a condition a mask. A query filters, sorts and cuts the places of rows, and only
then gathers what it selects.
-/
namespace Tabular

def Table.fieldCells (t : Table) (field : String) : Except Error (List Value) :=
  if (t.column? field).isSome then t.columnCells field else .error (.fieldNotFound field)

def Field.values (f : Field) (db : Database) : Except Error (List Value) := do
  let t ← db.table f.table
  t.columnCells f.column

/-- A literal as the column would store it, or as it is where the column cannot. -/
def Column.literal (c : Column) (raw : Raw) : Raw :=
  if raw.isNull then .null
  else match c.affinity.coerce raw with
    | .ok v => v.toRaw
    | .error _ => raw

def Operand.pattern (o : Operand) : Except Error String :=
  match o with
  | .literal raw => do
    match ← raw.store with
    | .text s => return s
    | v => throw (.patternNotText v)
  | o => .error (.patternNotLiteral o.name)

def Table.sortPlaces (t : Table) (order : Option (String × Direction)) (places : List Nat) :
    Except Error (List Nat) :=
  match order with
  | none => .ok places
  | some (field, direction) => do
    let keys ← t.fieldCells field
    Sorting.sortPlaces keys direction places

def Table.limitPlaces (limit : Option Nat) (places : List Nat) : List Nat :=
  match limit with
  | none => places
  | some n => places.take n

/-- The values of a computed column at the given places. A scalar stands at every place. -/
def Table.spread (t : Table) (vs : List Value) (places : List Nat) : Except Error (List Value) :=
  match vs with
  | [v] => .ok (List.replicate places.length v)
  | vs =>
    if vs.length = t.size then .ok (Broadcast.gather vs places)
    else .error (.arityMismatch vs.length t.size)

/-- The declared columns; an implicit key is not among them. -/
def Table.declared (t : Table) : List Column :=
  if t.implicitKey then t.columns.filter (·.name != t.keyName) else t.columns

def Table.project (t : Table) (places : List Nat) (name : String) :
    Except Error (String × List Value) := do
  let vs ← t.fieldCells name
  return (name, Broadcast.gather vs places)

/-- What an aggregate reads. A star reads the key column. -/
def Table.aggregate (t : Table) (places : List Nat) (a : Aggregate) :
    Except Error (String × Value) := do
  let vs ← t.fieldCells (match a.argument with
    | .column name => name
    | .star => t.keyName)
  let v ← a.apply (Broadcast.gather vs places)
  return (a.text, v)

def Answer.ofColumns (n : Nat) (columns : List (String × List Value)) : Answer :=
  .rows (columns.map (·.1))
    ((List.range n).map fun i => columns.map fun (_, vs) => vs[i]?.getD .null)

mutual

def Operand.values (db : Database) : Operand → Except Error (List Value)
  | .field f => f.values db
  | .expression e => e.values db
  | .condition c => do
    let mask ← c.mask db
    return mask.map Broadcast.ofBool
  | .series s => .ok s.data
  | .literal raw => do
    let v ← raw.store
    return [v]
  | .list raws => raws.mapM Raw.store
  | .subquery p => do
    let answer ← p.run db
    return answer.firstColumn

def Expression.values (db : Database) : Expression → Except Error (List Value)
  | ⟨left, op, right, _⟩ => do
    let vs ← left.values db
    let ws ← right.values db
    let pairs ← Broadcast.paired vs ws
    pairs.mapM fun (v, w) => Cell.arithmetic op v w

def Operand.mask (db : Database) : Operand → Except Error (List Bool)
  | .condition c => c.mask db
  | o => .error (.notCondition o.name)

def Condition.mask (db : Database) : Condition → Except Error (List Bool)
  | ⟨left, op, right, _⟩ =>
    match op with
    | .compare c => do
      let vs ← left.values db
      let ws ← right.values db
      let pairs ← Broadcast.paired vs ws
      Broadcast.testAll (fun (v, w) => Cell.test c v w) pairs
    | .is negated => do
      let vs ← left.values db
      let ws ← right.values db
      let pairs ← Broadcast.paired vs ws
      return pairs.map fun (v, w) => Cell.isSame negated v w
    | .join c => do
      let as ← left.mask db
      let bs ← right.mask db
      Broadcast.combine c as bs
    | .between negated =>
      match right with
      | .condition ⟨low, _, high, _⟩ => do
        let vs ← left.values db
        let lows ← low.values db
        let highs ← high.values db
        let triples ← Broadcast.tripled vs lows highs
        Broadcast.testAll (fun (v, lo, hi) => Cell.between negated v lo hi) triples
      | _ => .error .noRange
    | .like negated => do
      let pattern ← right.pattern
      let vs ← left.values db
      return vs.map (Wildcard.test negated pattern.toList)
    | .oneOf negated => do
      let vs ← left.values db
      let set ← right.values db
      return vs.map (Cell.oneOf negated set)

/-- The mask of a test on the cells of a column. Literals are taken as the column would store
them. -/
def FieldTest.mask (db : Database) (column : Column) (cells : List Value) :
    FieldTest → Except Error (List Bool)
  | .compare c raw => do
    let w ← (column.literal raw).store
    Broadcast.testAll (Cell.test c · w) cells
  | .like negated pattern => .ok (cells.map (Wildcard.test negated pattern.toList))
  | .oneOf negated raws => do
    let set ← raws.mapM fun raw => (column.literal raw).store
    return cells.map (Cell.oneOf negated set)
  | .inQuery negated p => do
    let answer ← p.run db
    return cells.map (Cell.oneOf negated answer.firstColumn)
  | .between low high => do
    let low ← (column.literal low).store
    let high ← (column.literal high).store
    Broadcast.testAll (Cell.between false · low high) cells
  | .isNull negated => .ok (cells.map fun v => Cell.isSame negated v .null)

def Predicate.mask (db : Database) (t : Table) : Predicate → Except Error (List Bool)
  | .bare field => do
    let cells ← t.fieldCells field
    return cells.map fun _ => false
  | .test field test =>
    match t.column? field with
    | none => .error (.fieldNotFound field)
    | some column => do
      let cells ← t.columnCells field
      test.mask db column cells
  | .condition c => do
    let mask ← c.mask db
    Broadcast.fit t.size mask

/-- A group starts with what decides nothing under its connective. -/
def PredicateTree.mask (db : Database) (t : Table) : PredicateTree → Except Error (List Bool)
  | .leaf p => p.mask db t
  | .group connective members =>
    PredicateTree.join db t connective (List.replicate t.size connective.unit) members

def PredicateTree.join (db : Database) (t : Table) (connective : Connective) (mask : List Bool) :
    List PredicateTree → Except Error (List Bool)
  | [] => .ok mask
  | member :: members => do
    let bits ← member.mask db t
    PredicateTree.join db t connective (List.zipWith connective.apply mask bits) members

def Filter.mask (db : Database) (t : Table) : Filter → Except Error (List Bool)
  | .all => .ok (List.replicate t.size true)
  | .tree root => root.mask db t

def Projection.read (db : Database) (t : Table) (places : List Nat) :
    Projection → Except Error (String × List Value)
  | .column name => t.project places name
  | .computed e => do
    let vs ← e.values db
    let vs ← t.spread vs places
    return (e.name, vs)

def Projection.readAll (db : Database) (t : Table) (places : List Nat) :
    List Projection → Except Error (List (String × List Value))
  | [] => .ok []
  | p :: ps => do
    let c ← p.read db t places
    let cs ← Projection.readAll db t places ps
    return c :: cs

def Selection.project (db : Database) (t : Table) (places : List Nat) :
    Selection → Except Error Answer
  | .star => do
    let columns ← t.declared.mapM fun c => t.project places c.name
    return .ofColumns places.length columns
  | .columns ps => do
    let columns ← Projection.readAll db t places ps
    return .ofColumns places.length columns
  | .aggregates as => do
    let values ← as.mapM (t.aggregate places)
    return .aggregates values

/-- The answer of a query. -/
def Plan.run (db : Database) : Plan → Except Error Answer
  | ⟨selection, table, filter, order, limit⟩ => do
    let t ← db.table table
    let mask ← filter.mask db t
    let places ← t.sortPlaces order (Broadcast.places mask)
    selection.project db t (Table.limitPlaces limit places)

end

def Expression.evaluate (e : Expression) (db : Database) : Except Error Series := do
  let data ← e.values db
  return ⟨data, some e.name⟩

def Condition.evaluate (c : Condition) (db : Database) : Except Error Series := do
  let mask ← c.mask db
  return ⟨mask.map Broadcast.ofBool, some c.name⟩

end Tabular
