import Tabular.Table.Basic

/-! The keys of a table: which are free, which are generated, and which row a raw key names. -/
namespace Tabular.Table

/-- The word after another; the last word has none and stays. -/
def nextWord (n : Int64) : Int64 := (toWord? (n.toInt + 1)).getD n

def isFree (t : Table) (key : Value) : Bool := !t.taken.contains key && (t.slot? key).isNone

/-- The first free integer from the cursor on. Of more candidates than there are keys, one is
free. -/
def freeKey? (t : Table) : Option Int64 :=
  let candidates := (List.range (t.taken.length + t.index.length + 1)).map
    fun (i : Nat) => t.cursor.toInt + i
  candidates.findSome? fun n => match toWord? n with
    | some w => if t.isFree (.integer w) then some w else none
    | none => none

/-- Gives out a generated key, which is not used again. -/
def issueKey (t : Table) : Outcome Table Value :=
  match t.freeKey? with
  | some n => (.ok (.integer n), { t with cursor := nextWord n })
  | none => (.error (.keysExhausted t.name), t)

def cursorAfter (cursor : Int64) : Value → Int64
  | .integer n => if cursor.toInt < (nextWord n).toInt then nextWord n else cursor
  | _ => cursor

/-- Whether a key cannot be chosen: it is in use, or it is an integer key that was. -/
def isTaken (t : Table) (key : Value) : Bool :=
  (t.slot? key).isSome || (t.generatesKeys && t.taken.contains key)

def acceptKey (t : Table) (raw : Raw) : Outcome Table Value :=
  match t.keyColumn.resolve raw true with
  | .error e => (.error e, t)
  | .ok key =>
    if t.isTaken key then (.error (.duplicateKey t.name key), t)
    else (.ok key, { t with cursor := cursorAfter t.cursor key })

/-- The slot of the row that a raw key names, in the form that the key's affinity prefers or else
as it is; strict key columns keep keys as they are. -/
def find? (t : Table) (key : Raw) : Option Nat :=
  let preferred := (t.keyColumn.affinity.coerce key).toOption.bind t.slot?
  preferred.or (key.store.toOption.bind t.slot?)

def contains (t : Table) (key : Raw) : Bool := (t.find? key).isSome

def get? (t : Table) (key : Raw) : Option Row := do
  let slot ← t.find? key
  let e ← t.entryAt? slot
  return e.row

end Tabular.Table
