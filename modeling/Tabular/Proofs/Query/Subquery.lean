import Tabular.Proofs.Query.Negation
import Tabular.Proofs.Query.Select

/-!
Membership in a nested query. A query of rows stands for its first column, but a query of aggregates
stands for all of its values, so a value may be found among them that is not the first.
-/
namespace Tabular

namespace Answer

/-- The values in a column of the answer, by its number. Aggregates are one row. -/
def Shows (a : Answer) (column : Nat) (v : Value) : Prop :=
  match a with
  | .rows _ lines => ∃ cells ∈ lines, cells[column]? = some v
  | .aggregates values => ∃ name, values[column]? = some (name, v)

/-- What IN or NOT IN asks of a value by the first column of the answer. -/
def Judges (a : Answer) (negated : Bool) (v : Value) : Prop :=
  v ≠ .null ∧
    if negated then ∀ w, a.Shows 0 w → v.matches? w = false
    else ∃ w, a.Shows 0 w ∧ v.matches? w = true

/-- Nothing in the first column is equal to the value, but an aggregate further on is. -/
def Strays (a : Answer) (v : Value) : Prop :=
  v ≠ .null ∧ (∀ w, a.Shows 0 w → v.matches? w = false) ∧ a.rows? = none ∧
    ∃ column w, a.Shows (column + 1) w ∧ v.matches? w = true

theorem mem_firstColumn_rows {names : List String} {lines : List (List Value)} {v : Value} :
    v ∈ (rows names lines).firstColumn ↔ (rows names lines).Shows 0 v := by
  simp only [firstColumn, Shows, List.mem_filterMap, List.head?_eq_getElem?]

theorem mem_firstColumn_aggregates {values : List (String × Value)} {v : Value} :
    v ∈ (aggregates values).firstColumn ↔ ∃ column, (aggregates values).Shows column v := by
  simp only [firstColumn, Shows, List.mem_map, Prod.exists, exists_eq_right]
  rw [exists_comm]
  exact exists_congr fun name => List.mem_iff_getElem?

theorem mem_firstColumn_iff {a : Answer} {v : Value} :
    v ∈ a.firstColumn ↔
      a.Shows 0 v ∨ a.rows? = none ∧ ∃ column, a.Shows (column + 1) v := by
  cases a with
  | rows names lines => simp [mem_firstColumn_rows, rows?]
  | aggregates values =>
    rw [mem_firstColumn_aggregates, ← Nat.or_exists_add_one]
    simp [rows?]

/-- Membership among those values is decided by the first column, except where the value strays. -/
theorem any_matches_firstColumn_iff {a : Answer} {v : Value} (present : v ≠ .null) :
    a.firstColumn.any v.matches? = true ↔
      (∃ w, a.Shows 0 w ∧ v.matches? w = true) ∨ a.Strays v := by
  simp only [List.any_eq_true, mem_firstColumn_iff]
  constructor
  · rintro ⟨w, hw | ⟨hrows, column, hw⟩, hmatches⟩
    · exact .inl ⟨w, hw, hmatches⟩
    · by_cases hfirst : ∃ w, a.Shows 0 w ∧ v.matches? w = true
      · exact .inl hfirst
      · refine .inr ⟨present, fun w' hw' => ?_, hrows, column, w, hw, hmatches⟩
        exact Bool.eq_false_iff.2 fun h => hfirst ⟨w', hw', h⟩
  · rintro (⟨w, hw, hmatches⟩ | ⟨-, -, hrows, column, w, hw, hmatches⟩)
    · exact ⟨w, .inl hw, hmatches⟩
    · exact ⟨w, .inr ⟨hrows, column, hw⟩, hmatches⟩

theorem oneOf_firstColumn_iff (a : Answer) (negated : Bool) (v : Value) :
    (Cell.oneOf negated a.firstColumn v = true ↔ a.Judges negated v) ↔ ¬ a.Strays v := by
  by_cases hnull : v = .null
  · simp [Cell.oneOf, Judges, Strays, hnull]
  have hpresent : v.isNull = false := Bool.eq_false_iff.2 (mt (Value.isNull_iff v).1 hnull)
  have hnone : (∀ w, a.Shows 0 w → v.matches? w = false) ↔
      ¬ ∃ w, a.Shows 0 w ∧ v.matches? w = true := by
    simp only [not_exists, not_and, Bool.not_eq_true]
  have hstrays : (a.firstColumn.any v.matches? = true ↔
      ∃ w, a.Shows 0 w ∧ v.matches? w = true) ↔ ¬ a.Strays v := by
    rw [any_matches_firstColumn_iff hnull]
    exact ⟨fun h hs => hnone.1 hs.2.1 (h.1 (.inr hs)), fun hs => or_iff_left hs⟩
  cases negated with
  | false =>
    have htest : Cell.oneOf false a.firstColumn v = a.firstColumn.any v.matches? := by
      simp [Cell.oneOf, hpresent]
    have hjudges : a.Judges false v ↔ ∃ w, a.Shows 0 w ∧ v.matches? w = true := by
      simp [Judges, hnull]
    rw [htest, hjudges, hstrays]
  | true =>
    have htest : Cell.oneOf true a.firstColumn v = !a.firstColumn.any v.matches? := by
      simp [Cell.oneOf, hpresent]
    have hjudges : a.Judges true v ↔ ¬ ∃ w, a.Shows 0 w ∧ v.matches? w = true := by
      rw [← hnone]
      simp [Judges, hnull]
    rw [htest, Bool.not_eq_true', ← Bool.not_eq_true, hjudges, not_iff_not, hstrays]

end Answer

/-- A query with one aggregate at most answers with one column at most, unless it answers with
rows. -/
theorem Plan.not_strays_of_run {db : Database} {p : Plan} {answer : Answer}
    (hp : p.run db = .ok answer)
    (single : ∀ as, p.selection = .aggregates as → as.length ≤ 1) (v : Value) :
    ¬ answer.Strays v := by
  rintro ⟨-, -, hrows, column, w, hw, -⟩
  obtain ⟨t, mask, sorted, -, -, -, hproject⟩ := Plan.run_eq_ok_iff.1 hp
  cases hs : p.selection with
  | star =>
    rw [hs] at hproject
    obtain ⟨columns, -, h⟩ := Except.bind_eq_ok_iff.1 hproject
    obtain rfl := Except.pure_eq_ok_iff.1 h
    cases hrows
  | columns ps =>
    rw [hs] at hproject
    obtain ⟨columns, -, h⟩ := Except.bind_eq_ok_iff.1 hproject
    obtain rfl := Except.pure_eq_ok_iff.1 h
    cases hrows
  | aggregates as =>
    rw [hs] at hproject
    obtain ⟨values, hvalues, h⟩ := Except.bind_eq_ok_iff.1 hproject
    obtain rfl := Except.pure_eq_ok_iff.1 h
    obtain ⟨name, hname⟩ := hw
    obtain ⟨hlt, -⟩ := List.getElem?_eq_some_iff.1 hname
    have hlength := (Except.mapM_eq_ok_iff.1 hvalues).length_eq
    have hsingle := single as hs
    omega

/-- A field is tested against a nested query, in a condition as in a filter, by the first column of
its answer, on all rows but those whose cell strays. No cell strays where the query selects rows or
a single aggregate. -/
theorem Condition.mask_inQuery {db : Database} {p : Plan} {answer : Answer}
    (hp : p.run db = .ok answer) {f : Field} {cells : List Value} (hf : f.values db = .ok cells)
    (negated : Bool) (label : Option String) :
    (∃ mask, (Condition.mk (.field f) (.oneOf negated) (.subquery p) label).mask db = .ok mask ∧
      (∀ column, (FieldTest.inQuery negated p).mask db column cells = .ok mask) ∧
      List.Forall₂ (fun v bit => (bit = true ↔ answer.Judges negated v) ↔ ¬ answer.Strays v)
        cells mask) ∧
    ((∀ as, p.selection = .aggregates as → as.length ≤ 1) → ∀ v, ¬ answer.Strays v) := by
  refine ⟨⟨cells.map (Cell.oneOf negated answer.firstColumn), ?_, fun column => ?_, ?_⟩,
    Plan.not_strays_of_run hp⟩
  · simp only [mask, Operand.values, hf, hp]
    rfl
  · simp only [FieldTest.mask, hp]
    rfl
  · refine List.forall₂_map_right_iff.2 (List.forall₂_same.2 fun v _ => ?_)
    exact answer.oneOf_firstColumn_iff negated v

def fewestAndMost : Plan where
  selection := .aggregates [⟨.min, .column "points"⟩, ⟨.max, .column "points"⟩]
  table := "games"
  filter := .all
  order := none
  limit := none

theorem Condition.mask_inQuery_games :
    let points : Field := ⟨"games", "points"⟩
    let cells : List Value := [.integer 3, .null, .integer 7, .integer 3]
    let answer := Answer.aggregates [("MIN(points)", .integer 3), ("MAX(points)", .integer 7)]
    points.values scoreboard = .ok cells ∧ fewestAndMost.run scoreboard = .ok answer ∧
      (FieldTest.inQuery true fewestAndMost).mask scoreboard (.generatedKey "points") cells =
        .ok [false, false, false, false] ∧
      List.Forall₂ (fun v bit => (bit = true ↔ answer.Judges true v) ↔ ¬ answer.Strays v) cells
        [false, false, false, false] := by
  intro points cells answer
  have hcells : points.values scoreboard = .ok cells := by decide
  have hrun : fewestAndMost.run scoreboard = .ok answer := by decide
  have hmask : (Condition.mk (.field points) (.oneOf true) (.subquery fewestAndMost) none).mask
      scoreboard = .ok [false, false, false, false] := by decide
  obtain ⟨⟨mask, hquery, hfilter, hrows⟩, -⟩ := mask_inQuery hrun hcells true none
  obtain rfl := Except.ok.inj (hmask.symm.trans hquery)
  exact ⟨hcells, hrun, hfilter _, hrows⟩

/-- The most points are not the first aggregate of a selection that may be made, but they are
found. -/
theorem Condition.not_judges_mask_inQuery :
    let points : Field := ⟨"games", "points"⟩
    let answer := Answer.aggregates [("MIN(points)", .integer 3), ("MAX(points)", .integer 7)]
    Selection.of [.aggregate ⟨.min, .column "points"⟩, .aggregate ⟨.max, .column "points"⟩] =
        .ok fewestAndMost.selection ∧
      points.values scoreboard = .ok [.integer 3, .null, .integer 7, .integer 3] ∧
      fewestAndMost.run scoreboard = .ok answer ∧
      (Condition.mk (.field points) (.oneOf false) (.subquery fewestAndMost) none).mask
        scoreboard = .ok [true, false, true, true] ∧
      answer.Shows 0 (.integer 3) ∧ ¬ answer.Judges false (.integer 7) := by
  refine ⟨rfl, by decide, by decide, by decide, ⟨_, rfl⟩, ?_⟩
  rintro ⟨-, w, ⟨name, hname⟩, hmatches⟩
  obtain ⟨-, rfl⟩ := Prod.mk.inj (Option.some.inj hname)
  exact absurd hmatches (by decide)

end Tabular
