import Tabular.Query.Evaluate
import Tabular.Proofs.Query.Columnar
import Tabular.Proofs.Table.Listing
import Tabular.Proofs.Database.Reachable

/-!
Evaluation row by row. Operands and conditions over one table are given a value on a single row of
it, with no vectors and no broadcasting, and evaluation over whole columns is shown to agree with it
on every row.
-/
namespace Tabular

mutual

/-- Operands that read no other table and are no collections of their own. -/
def Operand.Rowwise (table : String) : Operand → Prop
  | .field f => f.table = table
  | .expression e => e.Rowwise table
  | .condition c => c.Rowwise table
  | .literal _ => True
  | .series _ | .list _ | .subquery _ => False

def Expression.Rowwise (table : String) : Expression → Prop
  | ⟨left, _, right, _⟩ => left.Rowwise table ∧ right.Rowwise table

/-- The right side of IN is evaluated once for all rows, so it may be anything. A range is read
through its ends. -/
def Condition.Rowwise (table : String) : Condition → Prop
  | ⟨left, op, right, _⟩ =>
    left.Rowwise table ∧
      match op with
      | .oneOf _ => True
      | .between _ =>
        match right with
        | .condition ⟨low, _, high, _⟩ => low.Rowwise table ∧ high.Rowwise table
        | _ => True
      | _ => right.Rowwise table

end

mutual

/-- The value of an operand on one row. -/
def Operand.valueAt (db : Database) (row : Row) : Operand → Option Value
  | .field f => row.get? f.column
  | .expression e => e.valueAt db row
  | .condition c => do return Broadcast.ofBool (← c.holdsAt db row)
  | .literal raw => raw.store.toOption
  | .series _ | .list _ | .subquery _ => none

def Expression.valueAt (db : Database) (row : Row) : Expression → Option Value
  | ⟨left, op, right, _⟩ => do
    let v ← left.valueAt db row
    let w ← right.valueAt db row
    (Cell.arithmetic op v w).toOption

def Operand.holdsAt (db : Database) (row : Row) : Operand → Option Bool
  | .condition c => c.holdsAt db row
  | _ => none

/-- Whether a condition holds on one row. -/
def Condition.holdsAt (db : Database) (row : Row) : Condition → Option Bool
  | ⟨left, op, right, _⟩ =>
    match op with
    | .compare c => do
      let v ← left.valueAt db row
      let w ← right.valueAt db row
      (Cell.test c v w).toOption
    | .is negated => do
      let v ← left.valueAt db row
      let w ← right.valueAt db row
      return Cell.isSame negated v w
    | .join .and => do
      let a ← left.holdsAt db row
      let b ← right.holdsAt db row
      return a && b
    | .join .or => do
      let a ← left.holdsAt db row
      let b ← right.holdsAt db row
      return a || b
    | .between negated =>
      match right with
      | .condition ⟨low, _, high, _⟩ => do
        let v ← left.valueAt db row
        let lo ← low.valueAt db row
        let hi ← high.valueAt db row
        (Cell.between negated v lo hi).toOption
      | _ => none
    | .like negated => do
      let pattern ← right.pattern.toOption
      let v ← left.valueAt db row
      return Wildcard.test negated pattern.toList v
    | .oneOf negated => do
      let v ← left.valueAt db row
      let set ← (right.values db).toOption
      return Cell.oneOf negated set v

end

section

variable {db : Database} {name : String} {t : Table}

mutual

/-- What an operand is evaluated to holds its values on the rows. The proof follows the operand,
with expressions and conditions inside it. -/
theorem Operand.columnar_values (hw : t.WellFormed) (ht : db.table name = .ok t) :
    ∀ (o : Operand) {vs : List Value}, o.Rowwise name → o.values db = .ok vs →
      Columnar t.rows (o.valueAt db) vs
  | .field f, vs, hr, hv => by
    obtain ⟨t', ht', hv⟩ := Except.bind_eq_ok_iff.1 hv
    rw [show f.table = name from hr, ht] at ht'
    cases ht'
    exact .column (hw.forall₂_columnCells hv)
  | .expression e, vs, hr, hv => e.columnar_values hw ht hr hv
  | .condition c, vs, hr, hv => by
    obtain ⟨mask, hm, hv⟩ := Except.bind_eq_ok_iff.1 hv
    obtain rfl := Except.pure_eq_ok_iff.1 hv
    exact (c.columnar_mask hw ht hr hm).map Broadcast.ofBool
  | .literal raw, vs, _, hv => by
    obtain ⟨v, hs, hv⟩ := Except.bind_eq_ok_iff.1 hv
    obtain rfl := Except.pure_eq_ok_iff.1 hv
    exact .scalar fun row _ => by simp [Operand.valueAt, hs, Except.toOption]
  | .series _, _, hr, _ => hr.elim
  | .list _, _, hr, _ => hr.elim
  | .subquery _, _, hr, _ => hr.elim

theorem Expression.columnar_values (hw : t.WellFormed) (ht : db.table name = .ok t) :
    ∀ (e : Expression) {vs : List Value}, e.Rowwise name → e.values db = .ok vs →
      Columnar t.rows (e.valueAt db) vs
  | ⟨left, op, right, _⟩, vs, hr, hv => by
    obtain ⟨ls, hl, hv⟩ := Except.bind_eq_ok_iff.1 hv
    obtain ⟨rs, hs, hv⟩ := Except.bind_eq_ok_iff.1 hv
    obtain ⟨ps, hp, hv⟩ := Except.bind_eq_ok_iff.1 hv
    have hl := left.columnar_values hw ht hr.1 hl
    have hs := right.columnar_values hw ht hr.2 hs
    simpa [Expression.valueAt, Option.bind_assoc] using (hl.paired hs hp).mapM hv

theorem Operand.columnar_mask (hw : t.WellFormed) (ht : db.table name = .ok t) :
    ∀ (o : Operand) {mask : List Bool}, o.Rowwise name → o.mask db = .ok mask →
      Columnar t.rows (o.holdsAt db) mask
  | .condition c, _, hr, hm => c.columnar_mask hw ht hr hm
  | .field _, _, _, hm => nomatch hm
  | .expression _, _, _, hm => nomatch hm
  | .literal _, _, _, hm => nomatch hm
  | .series _, _, _, hm => nomatch hm
  | .list _, _, _, hm => nomatch hm
  | .subquery _, _, _, hm => nomatch hm

theorem Condition.columnar_mask (hw : t.WellFormed) (ht : db.table name = .ok t) :
    ∀ (c : Condition) {mask : List Bool}, c.Rowwise name → c.mask db = .ok mask →
      Columnar t.rows (c.holdsAt db) mask
  | ⟨left, .compare c, right, _⟩, mask, hr, hm => by
    obtain ⟨ls, hl, hm⟩ := Except.bind_eq_ok_iff.1 hm
    obtain ⟨rs, hs, hm⟩ := Except.bind_eq_ok_iff.1 hm
    obtain ⟨ps, hp, hm⟩ := Except.bind_eq_ok_iff.1 hm
    have hl := left.columnar_values hw ht hr.1 hl
    have hs := right.columnar_values hw ht hr.2 hs
    simpa [Condition.holdsAt, Option.bind_assoc] using
      (hl.paired hs hp).mapM (Broadcast.testAll_eq_ok_iff.1 hm)
  | ⟨left, .is negated, right, _⟩, mask, hr, hm => by
    obtain ⟨ls, hl, hm⟩ := Except.bind_eq_ok_iff.1 hm
    obtain ⟨rs, hs, hm⟩ := Except.bind_eq_ok_iff.1 hm
    obtain ⟨ps, hp, hm⟩ := Except.bind_eq_ok_iff.1 hm
    obtain rfl := Except.pure_eq_ok_iff.1 hm
    have hl := left.columnar_values hw ht hr.1 hl
    have hs := right.columnar_values hw ht hr.2 hs
    simpa [Condition.holdsAt, Option.bind_assoc] using
      (hl.paired hs hp).map fun p => Cell.isSame negated p.1 p.2
  | ⟨left, .join c, right, _⟩, mask, hr, hm => by
    obtain ⟨ls, hl, hm⟩ := Except.bind_eq_ok_iff.1 hm
    obtain ⟨rs, hs, hm⟩ := Except.bind_eq_ok_iff.1 hm
    obtain ⟨ps, hp, hm⟩ := Except.bind_eq_ok_iff.1 hm
    obtain rfl := Except.pure_eq_ok_iff.1 hm
    have hl := left.columnar_mask hw ht hr.1 hl
    have hs := right.columnar_mask hw ht hr.2 hs
    have hjoined := (hl.paired hs hp).map fun p => c.apply p.1 p.2
    cases c with
    | and => simpa [Condition.holdsAt, Connective.apply, Option.bind_assoc] using hjoined
    | or => simpa [Condition.holdsAt, Connective.apply, Option.bind_assoc] using hjoined
  | ⟨left, .between negated, .condition ⟨low, _, high, _⟩, _⟩, mask, hr, hm => by
    obtain ⟨ls, hl, hm⟩ := Except.bind_eq_ok_iff.1 hm
    obtain ⟨los, hlo, hm⟩ := Except.bind_eq_ok_iff.1 hm
    obtain ⟨his, hhi, hm⟩ := Except.bind_eq_ok_iff.1 hm
    obtain ⟨ts, hts, hm⟩ := Except.bind_eq_ok_iff.1 hm
    have hl := left.columnar_values hw ht hr.1 hl
    have hlo := low.columnar_values hw ht hr.2.1 hlo
    have hhi := high.columnar_values hw ht hr.2.2 hhi
    simpa [Condition.holdsAt, Option.bind_assoc] using
      (hl.tripled hlo hhi hts).mapM (Broadcast.testAll_eq_ok_iff.1 hm)
  | ⟨left, .like negated, right, _⟩, mask, hr, hm => by
    obtain ⟨pattern, hp, hm⟩ := Except.bind_eq_ok_iff.1 hm
    obtain ⟨ls, hl, hm⟩ := Except.bind_eq_ok_iff.1 hm
    obtain rfl := Except.pure_eq_ok_iff.1 hm
    have hl := left.columnar_values hw ht hr.1 hl
    simpa [Condition.holdsAt, hp, Except.toOption] using
      hl.map (Wildcard.test negated pattern.toList)
  | ⟨left, .oneOf negated, right, _⟩, mask, hr, hm => by
    obtain ⟨ls, hl, hm⟩ := Except.bind_eq_ok_iff.1 hm
    obtain ⟨set, hs, hm⟩ := Except.bind_eq_ok_iff.1 hm
    obtain rfl := Except.pure_eq_ok_iff.1 hm
    have hl := left.columnar_values hw ht hr.1 hl
    simpa [Condition.holdsAt, hs, Except.toOption] using hl.map (Cell.oneOf negated set)

end

end

def notebook : Database :=
  (({ name := "main" } : Database).addTable (Table.notes.run Table.editNotes)).2

theorem notebook_reachable : notebook.Reachable :=
  .addTable (.empty "main" {}) ((Table.Reachable.built Table.notes_built).run Table.editNotes)

def jotGrain : List Table.Operation :=
  [.insert [("text", .text "oat")], .insert [("text", .text "rye")],
    .insert [("text", .text "oat")], .insert [("text", .text "rye")]]

def grainbook : Database :=
  (({ name := "main" } : Database).addTable (Table.notes.run jotGrain)).2

end Tabular
