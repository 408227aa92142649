import Tabular.Proofs.Table.Cases

/-!
Runs of a table: what can be done to it, which tables can be reached, and how a property is shown of
all of them, once for each operation.
-/
namespace Tabular.Table

/-- What can be done to a table that changes it. -/
inductive Operation where
  | insert (data : List (String × Raw))
  | insertRow (row : Row) (key : Option Raw)
  | insertRows (rows : List Row)
  | updateRow (key : Raw) (updates : List (String × Raw))
  | deleteRow (key : Raw)
  | rename (name : String)
  | issueKey

def after (t : Table) : Operation → Table
  | .insert data => (t.insert data).2
  | .insertRow row key => (t.insertRow row key).2
  | .insertRows rows => (t.insertRows rows).2
  | .updateRow key updates => (t.updateRow key updates).2
  | .deleteRow key => (t.deleteRow key).2
  | .rename name => (t.rename name).2
  | .issueKey => t.issueKey.2

def run (t : Table) (ops : List Operation) : Table := ops.foldl after t

@[simp] theorem run_nil (t : Table) : t.run [] = t := rfl

@[simp] theorem run_cons (t : Table) (op : Operation) (ops : List Operation) :
    t.run (op :: ops) = (t.after op).run ops := rfl

/-- Tables as they are made, empty or with rows. -/
inductive Built : Table → Prop
  | create {name : String} {columns : List Column} {key : Option String} {settings : Settings}
      {t : Table} (h : create name columns key settings = .ok t) : Built t
  | ofRows {name : String} {columns : List Column} {key : Option String} {rows : List Row}
      {t : Table} (h : ofRows name columns key rows = .ok t) : Built t

inductive Reachable : Table → Prop
  | built {t : Table} (h : t.Built) : Reachable t
  | after {t : Table} (h : Reachable t) (op : Operation) : Reachable (t.after op)

theorem Reachable.run {t : Table} (h : t.Reachable) (ops : List Operation) :
    (t.run ops).Reachable := by
  induction ops generalizing t with
  | nil => exact h
  | cons op ops ih => exact ih (h.after op)

/-- A property that every operation keeps. The insertion of rows is taken row by row. -/
structure Invariant (P : Table → Prop) : Prop where
  insertRow : ∀ {t : Table} (row : Row) (key : Option Raw), P t → P (t.insertRow row key).2
  updateRow : ∀ {t : Table} (key : Raw) (updates : List (String × Raw)),
    P t → P (t.updateRow key updates).2
  deleteRow : ∀ {t : Table} (key : Raw), P t → P (t.deleteRow key).2
  rename : ∀ {t : Table} (name : String), P t → P (t.rename name).2
  issueKey : ∀ {t : Table}, P t → P t.issueKey.2

namespace Invariant

variable {P : Table → Prop}

theorem insert (inv : Invariant P) {t : Table} (h : P t) (data : List (String × Raw)) :
    P (t.insert data).2 := by
  unfold Table.insert
  split
  · exact h
  · exact inv.insertRow _ _ h

theorem insertRows (inv : Invariant P) {t : Table} (h : P t) (rows : List Row) :
    P (t.insertRows rows).2 := by
  induction rows generalizing t with
  | nil => exact h
  | cons row rows ih =>
    have hr := inv.insertRow row none h
    unfold Table.insertRows
    split
    · rename_i e t' he
      simpa [he] using hr
    · rename_i k t' hk
      have hs := ih (t := t') (by simpa [hk] using hr)
      split <;> rename_i he <;> simpa [he] using hs

theorem after (inv : Invariant P) {t : Table} (h : P t) (op : Operation) : P (t.after op) := by
  cases op with
  | insert data => exact inv.insert h data
  | insertRow row key => exact inv.insertRow row key h
  | insertRows rows => exact inv.insertRows h rows
  | updateRow key updates => exact inv.updateRow key updates h
  | deleteRow key => exact inv.deleteRow key h
  | rename name => exact inv.rename name h
  | issueKey => exact inv.issueKey h

theorem built (inv : Invariant P)
    (empty : ∀ {name : String} {columns : List Column} {key : Option String}
      {settings : Settings} {t : Table}, create name columns key settings = .ok t → P t)
    {t : Table} (h : t.Built) : P t := by
  cases h with
  | create h => exact empty h
  | @ofRows _ _ _ rows _ h =>
    obtain ⟨t₀, h₀, rfl⟩ := ofRows_cases h
    exact inv.insertRows (empty h₀) rows

theorem reachable (inv : Invariant P)
    (empty : ∀ {name : String} {columns : List Column} {key : Option String}
      {settings : Settings} {t : Table}, create name columns key settings = .ok t → P t)
    {t : Table} (h : t.Reachable) : P t := by
  induction h with
  | built h => exact inv.built empty h
  | after _ op ih => exact inv.after ih op

end Invariant

end Tabular.Table
