import Tabular.Proofs.Failure

/-!
The steps of a table. Whatever is done to a table takes it through steps of five kinds, of which the
journal keeps a record. What a table remembers of its past can be read off the journal: which keys
are taken, and how far the cursor has moved.
-/
namespace Tabular.Table

/-- What has happened to a table. An insertion is recorded with the row as it was given. -/
inductive Event where
  | inserted (key : Value) (row : Row)
  | issued (key : Value)
  | updated
  | deleted
  | renamed

namespace Event

def insertedKey? : Event → Option Value
  | .inserted key _ => some key
  | _ => none

def givenKey? : Event → Option Value
  | .inserted key _ => some key
  | .issued key => some key
  | _ => none

end Event

def rowEvents (t : Table) (row : Row) (key : Option Raw) : List Event :=
  match (t.insertRow row key).1 with
  | .ok k => [.inserted k row]
  | .error _ => []

def rowsEvents (t : Table) : List Row → List Event
  | [] => []
  | row :: rows =>
    match t.insertRow row none with
    | (.error _, _) => []
    | (.ok k, t) => .inserted k row :: t.rowsEvents rows

def events (t : Table) : Operation → List Event
  | .insert data =>
    match t.row data with
    | .ok row => t.rowEvents row none
    | .error _ => []
  | .insertRow row key => t.rowEvents row key
  | .insertRows rows => t.rowsEvents rows
  | .updateRow key updates => if (t.updateRow key updates).1.isOk then [.updated] else []
  | .deleteRow key => if (t.deleteRow key).1.isOk then [.deleted] else []
  | .rename name => if (t.rename name).1.isOk then [.renamed] else []
  | .issueKey =>
    match t.issueKey.1 with
    | .ok k => [.issued k]
    | .error _ => []

def journal (t : Table) : List Operation → List Event
  | [] => []
  | op :: ops => t.events op ++ (t.after op).journal ops

/-- The keys under which rows are inserted in a run, also of rows that are deleted again. -/
def insertedKeys (t : Table) (ops : List Operation) : List Value :=
  (t.journal ops).filterMap Event.insertedKey?

/-- The keys that are given out in a run, to rows or on their own. -/
def givenKeys (t : Table) (ops : List Operation) : List Value :=
  (t.journal ops).filterMap Event.givenKey?

inductive Step (t : Table) : Event → Table → Prop
  | insert {row r : Row} {key : Option Raw} {k : Value} {c : Int64}
      (present : key.any Raw.isNull = false) (settles : t.Settles row key k c)
      (columns : Column.equalLists row.columns t.columns = true)
      (set : row.set t.keyName k = .ok r) :
      Step t (.inserted k row) (({ t with cursor := c } : Table).append k r)
  | issue {n : Int64} (free : t.freeKey? = some n) :
      Step t (.issued (.integer n)) { t with cursor := nextWord n }
  | update {updates : List (String × Raw)} {changes : List (String × Value)} {e : Entry} {r : Row}
      (stored : t.changes updates = .ok changes) (mem : e ∈ t.entries)
      (set : e.row.setAll changes = .ok r) : Step t .updated (t.replaceRow e.slot r)
  | delete {e : Entry} (mem : e ∈ t.entries) : Step t .deleted (t.removeEntry e)
  | rename (name : String) : Step t .renamed { t with name }

inductive Steps : Table → List Event → Table → Prop
  | refl (t : Table) : Steps t [] t
  | head {t s u : Table} {e : Event} {es : List Event} (step : Step t e s) (rest : Steps s es u) :
      Steps t (e :: es) u

namespace Steps

variable {t s u : Table} {es es' : List Event}

theorem single {e : Event} (h : t.Step e s) : t.Steps [e] s := .head h (.refl s)

theorem trans (h : t.Steps es s) (h' : s.Steps es' u) : t.Steps (es ++ es') u := by
  induction h with
  | refl => exact h'
  | head step _ ih => exact .head step (ih h')

end Steps

theorem insertRows_cons_of_ok {t s : Table} {row : Row} {k : Value}
    (h : t.insertRow row none = (.ok k, s)) (rows : List Row) :
    t.insertRows (row :: rows) = ((s.insertRows rows).1.map (k :: ·), (s.insertRows rows).2) := by
  simp only [insertRows, h]
  rcases s.insertRows rows with ⟨_ | keys, u⟩ <;> rfl

namespace WellFormed

variable {t : Table}

theorem steps_insertRow (h : t.WellFormed) (row : Row) (key : Option Raw) :
    t.Steps (t.rowEvents row key) (t.insertRow row key).2 := by
  unfold rowEvents
  rcases h.insertRow_cases row key with ⟨e, he⟩ | ⟨k, c, r, hp, hs, hcols, hset, ho⟩
  · rw [he]
    exact .refl t
  · rw [ho]
    exact .single (.insert hp hs hcols hset)

theorem steps_insertRows (h : t.WellFormed) (rows : List Row) :
    t.Steps (t.rowsEvents rows) (t.insertRows rows).2 := by
  induction rows generalizing t with
  | nil => exact .refl t
  | cons row rows ih =>
    have hsteps := h.steps_insertRow row none
    have hnext := wellFormed_invariant.insertRow row none h
    rcases hins : t.insertRow row none with ⟨_ | k, s⟩
    · simpa [rowsEvents, insertRows, rowEvents, hins] using hsteps
    · simp only [rowEvents, hins] at hsteps hnext
      have hrest := hsteps.trans (ih hnext)
      rw [insertRows_cons_of_ok hins]
      simpa [rowsEvents, hins] using hrest

/-- Every operation goes by the steps that its events record. -/
theorem steps_after (h : t.WellFormed) (op : Operation) : t.Steps (t.events op) (t.after op) := by
  cases op with
  | insert data =>
    cases hrow : t.row data with
    | error e => simpa [events, after, Table.insert, hrow] using Steps.refl t
    | ok row => simpa [events, after, Table.insert, hrow] using h.steps_insertRow row none
  | insertRow row key => exact h.steps_insertRow row key
  | insertRows rows => exact h.steps_insertRows rows
  | updateRow key updates =>
    rcases t.updateRow_cases key updates with ⟨e, he⟩ | ⟨slot, e, _, r, -, he, hm, -, hset, ho⟩
    · simpa [events, after, he, Except.isOk, Except.toBool] using Steps.refl t
    · obtain ⟨hmem, rfl⟩ := h.entryAt?_iff.1 he
      simpa [events, after, ho, Except.isOk, Except.toBool] using
        Steps.single (.update hm hmem hset)
  | deleteRow key =>
    rcases t.deleteRow_cases key with ⟨ho, -⟩ | ⟨slot, e, -, he, ho⟩
    · simpa [events, after, ho, Except.isOk, Except.toBool] using Steps.refl t
    · have hmem := (h.entryAt?_iff.1 he).1
      simpa [events, after, ho, Except.isOk, Except.toBool] using Steps.single (.delete hmem)
  | rename name =>
    by_cases hblank : Text.isBlankText name = true
    · simpa [events, after, Table.rename, hblank, Except.isOk, Except.toBool] using Steps.refl t
    · simpa [events, after, Table.rename, hblank, Except.isOk, Except.toBool] using
        Steps.single (.rename name)
  | issueKey =>
    cases hfree : t.freeKey? with
    | none => simpa [events, after, Table.issueKey, hfree] using Steps.refl t
    | some n => simpa [events, after, Table.issueKey, hfree] using Steps.single (.issue hfree)

theorem steps_run (h : t.WellFormed) (ops : List Operation) :
    t.Steps (t.journal ops) (t.run ops) := by
  induction ops generalizing t with
  | nil => exact .refl t
  | cons op ops ih => exact (h.steps_after op).trans (ih (wellFormed_invariant.after h op))

end WellFormed

namespace Steps

variable {t s : Table} {es : List Event}

theorem columns_eq (h : t.Steps es s) : s.columns = t.columns := by
  induction h with
  | refl => rfl
  | head step _ ih =>
    rw [ih]
    cases step <;> rfl

theorem keyName_eq (h : t.Steps es s) : s.keyName = t.keyName := by
  induction h with
  | refl => rfl
  | head step _ ih =>
    rw [ih]
    cases step <;> rfl

theorem keyColumn_eq (h : t.Steps es s) : s.keyColumn = t.keyColumn := by
  simp [keyColumn, column?, h.columns_eq, h.keyName_eq]

theorem generatesKeys_eq (h : t.Steps es s) : s.generatesKeys = t.generatesKeys := by
  rw [generatesKeys, generatesKeys, h.keyColumn_eq]

theorem taken_eq (h : t.Steps es s) :
    s.taken = (es.filterMap Event.insertedKey?).reverse ++ t.taken := by
  induction h with
  | refl => rfl
  | head step _ ih =>
    rw [ih]
    cases step <;>
      simp [List.filterMap_cons, Event.insertedKey?, append, replaceRow, removeEntry]

end Steps

/-- A table that is made with rows goes on from an empty one. -/
theorem Built.exists_run {t : Table} (h : t.Built) :
    ∃ name columns key settings t₀ ops,
      Table.create name columns key settings = .ok t₀ ∧ t = t₀.run ops := by
  cases h with
  | create h => exact ⟨_, _, _, _, t, [], h, rfl⟩
  | @ofRows name columns key rows _ h =>
    obtain ⟨t₀, h₀, rfl⟩ := ofRows_cases h
    exact ⟨name, columns, key, {}, t₀, [.insertRows rows], h₀, rfl⟩

/-- What runs of tables that were created empty have in common, all tables have. -/
theorem Reachable.exists_run {t : Table} (h : t.Reachable) :
    ∃ name columns key settings t₀ ops,
      Table.create name columns key settings = .ok t₀ ∧ t = t₀.run ops := by
  induction h with
  | built h => exact h.exists_run
  | after _ op ih =>
    obtain ⟨name, columns, key, settings, t₀, ops, h₀, rfl⟩ := ih
    exact ⟨name, columns, key, settings, t₀, ops ++ [op], h₀, by simp [Table.run]⟩

end Tabular.Table
