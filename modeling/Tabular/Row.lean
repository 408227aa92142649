import Tabular.Column

/-!
Rows: one stored value for each column, in the order of the columns. Data for a row is a list of
cells with their names, of which the last counts where a name is repeated.
-/
namespace Tabular

theorem lookup_filter_key {α β : Type} [DecidableEq α] (p : α → Bool) (a : α) (l : List (α × β)) :
    (l.filter fun x => p x.1).lookup a = if p a then l.lookup a else none := by
  induction l with
  | nil => simp
  | cons x l ih =>
    obtain ⟨b, v⟩ := x
    by_cases hab : a = b
    · subst hab
      cases hp : p a <;> simp [hp, ih]
    · have hb : (a == b) = false := by simpa using hab
      cases hp : p b <;> simp [hp, List.lookup_cons, hb, ih]

structure Row where
  columns : List Column
  cells : List Value
  length_cells : cells.length = columns.length
  deriving DecidableEq

namespace Row

/-- The last cell with the given name. -/
def cell? (name : String) (data : List (String × Raw)) : Option Raw := data.reverse.lookup name

theorem cell?_filter (p : String → Bool) (name : String) (data : List (String × Raw)) :
    cell? name (data.filter fun x => p x.1) = if p name then cell? name data else none := by
  rw [cell?, ← List.filter_reverse, lookup_filter_key p, cell?]

theorem cell?_append (name : String) (data more : List (String × Raw)) :
    cell? name (data ++ more) = (cell? name more).or (cell? name data) := by
  simp [cell?, List.lookup_append]

/-- Resolves the cells of the columns in order. Each cell is used once. -/
def resolveCells (key : Option String) :
    List Column → List (String × Raw) → Except Error (List Value)
  | [], _ => .ok []
  | c :: cs, data =>
    match cell? c.name data with
    | none => .error (.missingCell c.name)
    | some raw => do
      let v ← c.resolve raw (c.autoincrement || key == some c.name)
      let vs ← resolveCells key cs (data.filter (·.1 != c.name))
      return v :: vs

theorem length_of_resolveCells {key : Option String} {columns : List Column}
    {data : List (String × Raw)} {cells : List Value}
    (h : resolveCells key columns data = .ok cells) : cells.length = columns.length := by
  induction columns generalizing data cells with
  | nil => cases h; rfl
  | cons c cs ih =>
    simp only [resolveCells] at h
    split at h
    · cases h
    · obtain ⟨v, -, h⟩ := Except.bind_eq_ok_iff.1 h
      obtain ⟨vs, hs, h⟩ := Except.bind_eq_ok_iff.1 h
      cases h
      simp [ih hs]

/-- Builds a row from data that names every column and nothing else. The cell of the column `key`
may be NULL, as it is set when the row is inserted. -/
def build (columns : List Column) (data : List (String × Raw)) (key : Option String) :
    Except Error Row :=
  match data.find? fun (name, _) => columns.all (·.name != name) with
  | some (name, _) => .error (.unknownCell name)
  | none =>
    match h : resolveCells key columns data with
    | .ok cells => .ok ⟨columns, cells, length_of_resolveCells h⟩
    | .error e => .error e

def of (columns : List Column) (data : List (String × Raw)) : Except Error Row :=
  build columns data none

def position? (r : Row) (column : String) : Option Nat := r.columns.findIdx? (·.name == column)

def get? (r : Row) (column : String) : Option Value := do
  let i ← r.position? column
  r.cells[i]?

def set (r : Row) (column : String) (v : Value) : Except Error Row :=
  match r.position? column with
  | some i => .ok ⟨r.columns, r.cells.set i v, by simp [r.length_cells]⟩
  | none => .error (.fieldNotFound column)

theorem position?_lt {r : Row} {column : String} {i : Nat} (h : r.position? column = some i) :
    i < r.cells.length := by
  have hi := (List.findIdx?_eq_some_iff_getElem.1 h).1
  rwa [r.length_cells]

theorem set_eq_ok_iff {r s : Row} {column : String} {v : Value} :
    r.set column v = .ok s ↔
      ∃ i, r.position? column = some i ∧ s.columns = r.columns ∧ s.cells = r.cells.set i v := by
  cases s
  unfold set
  split
  · rename_i i hi
    simp [hi, eq_comm]
  · rename_i hi
    simp [hi]

theorem columns_of_set {r s : Row} {column : String} {v : Value} (h : r.set column v = .ok s) :
    s.columns = r.columns := by
  obtain ⟨-, -, hc, -⟩ := set_eq_ok_iff.1 h
  exact hc

theorem get?_of_set {r s : Row} {column : String} {v : Value} (h : r.set column v = .ok s) :
    s.get? column = some v := by
  obtain ⟨i, hi, hc, hs⟩ := set_eq_ok_iff.1 h
  have hp : s.position? column = some i := by rw [position?, hc]; exact hi
  simp [get?, hp, hs, position?_lt hi]

theorem get?_of_set_of_ne {r s : Row} {column other : String} {v : Value}
    (h : r.set column v = .ok s) (hne : other ≠ column) : s.get? other = r.get? other := by
  obtain ⟨i, hi, hc, hs⟩ := set_eq_ok_iff.1 h
  have hp : s.position? other = r.position? other := by rw [position?, hc, position?]
  simp only [get?, hp, hs]
  cases hj : r.position? other with
  | none => rfl
  | some j =>
    have hij : i ≠ j := by
      rintro rfl
      have hi := (List.findIdx?_eq_some_iff_getElem.1 hi).2.1
      have hj := (List.findIdx?_eq_some_iff_getElem.1 hj).2.1
      exact hne ((beq_iff_eq.1 hj).symm.trans (beq_iff_eq.1 hi))
    simp [List.getElem?_set_ne hij]

/-- Sets several cells in place, one after another up to the first that the row does not have. The
cells before it stay set. -/
def setEach (r : Row) : List (String × Value) → Except Error Unit × Row
  | [] => (.ok (), r)
  | (column, v) :: changes =>
    match r.set column v with
    | .error e => (.error e, r)
    | .ok r => r.setEach changes

def setAll (r : Row) (changes : List (String × Value)) : Except Error Row :=
  changes.foldlM (fun r (column, v) => r.set column v) r

@[simp] theorem setAll_nil (r : Row) : r.setAll [] = .ok r := rfl

theorem setAll_cons_eq_ok_iff {r s : Row} {change : String × Value}
    {changes : List (String × Value)} :
    r.setAll (change :: changes) = .ok s ↔
      ∃ r', r.set change.1 change.2 = .ok r' ∧ r'.setAll changes = .ok s :=
  Except.bind_eq_ok_iff

theorem setEach_of_setAll {r s : Row} {changes : List (String × Value)}
    (h : r.setAll changes = .ok s) : r.setEach changes = (.ok (), s) := by
  induction changes generalizing r with
  | nil => cases h; rfl
  | cons change changes ih =>
    obtain ⟨r', hr, hs⟩ := setAll_cons_eq_ok_iff.1 h
    simp [setEach, hr, ih hs]

theorem columns_of_setAll {r s : Row} {changes : List (String × Value)}
    (h : r.setAll changes = .ok s) : s.columns = r.columns := by
  induction changes generalizing r with
  | nil => cases h; rfl
  | cons change changes ih =>
    obtain ⟨r', hr, hs⟩ := setAll_cons_eq_ok_iff.1 h
    rw [ih hs, columns_of_set hr]

theorem get?_of_setAll {r s : Row} {changes : List (String × Value)} {column : String}
    (h : r.setAll changes = .ok s) (hc : ∀ change ∈ changes, change.1 ≠ column) :
    s.get? column = r.get? column := by
  induction changes generalizing r with
  | nil => cases h; rfl
  | cons change changes ih =>
    obtain ⟨r', hr, hs⟩ := setAll_cons_eq_ok_iff.1 h
    rw [ih hs fun c hm => hc c (by simp [hm])]
    exact get?_of_set_of_ne hr (hc change (by simp)).symm

theorem exists_set_eq_ok {r : Row} {column : String} (h : column ∈ r.columns.map (·.name))
    (v : Value) : ∃ s, r.set column v = .ok s := by
  have hp : (r.position? column).isSome := by simpa [position?] using h
  obtain ⟨i, hi⟩ := Option.isSome_iff_exists.1 hp
  exact ⟨⟨r.columns, r.cells.set i v, by simp [r.length_cells]⟩, by simp [set, hi]⟩

theorem exists_setAll_eq_ok {r : Row} {changes : List (String × Value)}
    (h : ∀ change ∈ changes, change.1 ∈ r.columns.map (·.name)) :
    ∃ s, r.setAll changes = .ok s := by
  induction changes generalizing r with
  | nil => exact ⟨r, rfl⟩
  | cons change changes ih =>
    obtain ⟨r', hr⟩ := exists_set_eq_ok (h change (by simp)) change.2
    obtain ⟨s, hs⟩ := @ih r' fun c hc => by
      rw [columns_of_set hr]
      exact h c (by simp [hc])
    exact ⟨s, setAll_cons_eq_ok_iff.2 ⟨r', hr, hs⟩⟩

def pairs (r : Row) : List (String × Value) := (r.columns.map (·.name)).zip r.cells

end Row
end Tabular
