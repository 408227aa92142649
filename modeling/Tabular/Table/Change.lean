import Tabular.Table.Key

/-! Inserting, updating and deleting rows. -/
namespace Tabular.Table

def append (t : Table) (key : Value) (row : Row) : Table :=
  { t with
    entries := t.entries ++ [⟨t.nextSlot, key, row⟩]
    index := (key, t.nextSlot) :: t.index
    nextSlot := t.nextSlot + 1
    taken := key :: t.taken }

/-- The key of a row to be inserted: the one given, else the one in the row. -/
def chosenKey? (t : Table) (row : Row) (key : Option Raw) : Option Raw :=
  key.or ((row.get? t.keyName).bind fun v => if v.isNull then none else some v.toRaw)

/-- Settles the key of a row to be inserted. Integer keys are generated where none is chosen. -/
def settleKey (t : Table) (row : Row) (key : Option Raw) : Outcome Table Value :=
  match t.chosenKey? row key with
  | some raw => t.acceptKey raw
  | none =>
    if t.generatesKeys then t.issueKey else (.error (.keyRequired t.keyName), t)

def insertRow (t : Table) (row : Row) (key : Option Raw) : Outcome Table Value :=
  if !Column.equalLists row.columns t.columns then (.error (.foreignRow t.name), t)
  else if key.any Raw.isNull then (.error (.nullCell t.keyName), t)
  else
    match t.settleKey row key with
    | (.error e, t) => (.error e, t)
    | (.ok key, t) =>
      match row.set t.keyName key with
      | .error e => (.error e, t)
      | .ok row => (.ok key, t.append key row)

def insert (t : Table) (data : List (String × Raw)) : Outcome Table Value :=
  match t.row data with
  | .error e => (.error e, t)
  | .ok row => t.insertRow row none

/-- Inserts rows one by one up to the first failure; those before it stay. -/
def insertRows (t : Table) : List Row → Outcome Table (List Value)
  | [] => (.ok [], t)
  | row :: rows =>
    match t.insertRow row none with
    | (.error e, t) => (.error e, t)
    | (.ok key, t) =>
      match t.insertRows rows with
      | (.error e, t) => (.error e, t)
      | (.ok keys, t) => (.ok (key :: keys), t)

def ofRows (name : String) (columns : List Column) (key : Option String) (rows : List Row) :
    Except Error Table := do
  let t ← create name columns key {}
  match t.insertRows rows with
  | (.error e, _) => .error e
  | (.ok _, t) => .ok t

/-- Stores the new value of one cell. The key cannot change. -/
def change (t : Table) (field : String) (raw : Raw) : Except Error (String × Value) :=
  match t.column? field with
  | none => .error (.fieldNotFound field)
  | some c =>
    if field = t.keyName then .error (.fixedKey field t.name)
    else (c.store raw).map (field, ·)

def changes (t : Table) (updates : List (String × Raw)) : Except Error (List (String × Value)) :=
  updates.mapM fun (field, raw) => t.change field raw

def replaceRow (t : Table) (slot : Nat) (row : Row) : Table :=
  { t with entries := t.entries.map (Entry.withRow slot row) }

/-- Sets cells of one row in place, once all of the new values are stored. -/
def updateRow (t : Table) (key : Raw) (updates : List (String × Raw)) : Outcome Table Unit :=
  match t.find? key with
  | none => (.error (.rowNotFound t.name key), t)
  | some slot =>
    match t.changes updates with
    | .error e => (.error e, t)
    | .ok changes =>
      match t.entryAt? slot with
      | none => (.error (.rowNotFound t.name key), t)
      | some e =>
        if !Column.equalLists e.row.columns t.columns then (.error (.staleRow t.name), t)
        else
          let (answer, row) := e.row.setEach changes
          (answer, t.replaceRow slot row)

def removeEntry (t : Table) (e : Entry) : Table :=
  { t with
    entries := t.entries.filter (·.slot != e.slot)
    index := t.index.filter (·.1 != e.key) }

/-- Removes a row and returns it. Its key stays taken. -/
def deleteRow (t : Table) (key : Raw) : Outcome Table Row :=
  match (t.find? key).bind t.entryAt? with
  | none => (.error (.rowNotFound t.name key), t)
  | some e => (.ok e.row, t.removeEntry e)

end Tabular.Table
