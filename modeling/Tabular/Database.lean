import Tabular.Table.Change

/-! Databases: tables under the names by which they were added. -/
namespace Tabular

structure Database where
  name : String
  settings : Settings := {}
  tables : List (String × Table) := []
  deriving DecidableEq

namespace Database

def contains (db : Database) (name : String) : Bool := (db.tables.lookup name).isSome

def table (db : Database) (name : String) : Except Error Table :=
  match db.tables.lookup name with
  | some t => .ok t
  | none => .error (.tableNotFound name)

def addTable (db : Database) (t : Table) : Outcome Database Unit :=
  if db.contains t.name then (.error (.duplicateTable t.name), db)
  else (.ok (), { db with tables := db.tables ++ [(t.name, t)] })

def createTable (db : Database) (name : String) (columns : List Column) (key : Option String) :
    Outcome Database Table :=
  if db.contains name then (.error (.duplicateTable name), db)
  else match Table.create name columns key db.settings with
    | .error e => (.error e, db)
    | .ok t =>
      match db.addTable t with
      | (.error e, db) => (.error e, db)
      | (.ok _, db) => (db.table name, db)

def ofTables (name : String) (tables : List Table) : Except Error Database :=
  tables.foldlM (fun db t => match db.addTable t with
    | (.error e, _) => .error e
    | (.ok _, db) => .ok db) { name }

def setTable (db : Database) (name : String) (t : Table) : Database :=
  { db with tables := db.tables.map fun (key, old) => if key = name then (key, t) else (key, old) }

/-- Applies an operation to a table where it stands, under the same name. -/
def onTable {α : Type} (db : Database) (name : String) (f : Table → Outcome Table α) :
    Outcome Database α :=
  match db.table name with
  | .error e => (.error e, db)
  | .ok t =>
    let (answer, t) := f t
    (answer, db.setTable name t)

def deleteTable (db : Database) (name : String) : Outcome Database Table :=
  match db.table name with
  | .error e => (.error e, db)
  | .ok t => (.ok t, { db with tables := db.tables.filter (·.1 != name) })

/-- Puts a table in the place of another of the same name, which is returned. -/
def replaceTable (db : Database) (name : String) (t : Table) : Outcome Database Table :=
  if t.name ≠ name then (.error (.misnamedTable t.name name), db)
  else match db.table name with
    | .error e => (.error e, db)
    | .ok old => (.ok old, db.setTable name t)

def insertName (name : String) : List String → List String
  | [] => [name]
  | other :: rest =>
    if name < other then name :: other :: rest else other :: insertName name rest

def tableNames (db : Database) : List String :=
  db.tables.foldr (fun t names => insertName t.1 names) []

def tableCount (db : Database) : Nat := db.tables.length

end Database
end Tabular
