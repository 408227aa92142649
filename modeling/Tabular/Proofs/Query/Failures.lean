import Tabular.Query.Evaluate
import Tabular.Proofs.Except

/-!
How evaluation can fail. Every step that reads tables and values, one by one or in columns, fails on
what they hold and never on the shape of a condition.
-/
namespace Tabular

open Tabular.Except

namespace Error

/-- Operands of a shape that evaluation does not expect: a side of a connective that is no
condition, BETWEEN without a range, a pattern that is no text or no literal. Operators that compare
nothing never meet two values, so there is no error for them. -/
def isMisshapen : Error → Bool
  | .notCondition _ | .noRange | .patternNotText _ | .patternNotLiteral _ => true
  | _ => false

/-- What may be wrong with tables and values: a table or column is missing, columns differ in
length, or a value cannot be stored, compared, computed with or summed. -/
def isOfData : Error → Bool
  | .tableNotFound _ | .unknownColumn .. | .fieldNotFound _ | .arityMismatch .. | .notStorable ..
  | .notNumeric _ | .incomparable .. | .notComputable .. | .notSummable .. => true
  | _ => false

theorem isMisshapen_of_isOfData {e : Error} (h : e.isOfData = true) : e.isMisshapen = false := by
  cases e <;> first | rfl | cases h

end Error

abbrev FailsOnData {α : Type} (x : Except Error α) : Prop := Except.Fails (·.isOfData = true) x

section

variable {α β : Type}

theorem StorageClass.coerce_failsOnData (c : StorageClass) (raw : Raw) :
    FailsOnData (c.coerce raw) := by
  unfold coerce
  split
  · exact fails_ok _
  · exact fails_error rfl

theorem coerceNumeric_failsOnData (raw : Raw) : FailsOnData (coerceNumeric raw) := by
  unfold coerceNumeric
  split
  case h_6 => exact fails_error rfl
  all_goals exact fails_ok _

theorem Raw.store_failsOnData (raw : Raw) : FailsOnData raw.store := by
  induction raw with
  | null => exact fails_ok _
  | tagged a inner ih =>
    cases a with
    | numeric => exact coerceNumeric_failsOnData inner
    | any => exact ih
    | _ => exact StorageClass.coerce_failsOnData _ inner
  | _ => exact StorageClass.coerce_failsOnData _ _

theorem Value.compare_failsOnData (v w : Value) : FailsOnData (v.compare w) := by
  unfold compare
  split
  · exact fails_ok _
  · exact fails_error rfl

theorem Cell.arithmetic_failsOnData (op : ArithmeticOp) (v w : Value) :
    FailsOnData (arithmetic op v w) := by
  unfold arithmetic
  split
  · exact fails_ok _
  split
  · exact fails_ok _
  split
  · exact fails_ok _
  · exact fails_error rfl

theorem Cell.test_failsOnData (c : Comparison) (v w : Value) : FailsOnData (test c v w) := by
  unfold test
  split
  · exact fails_ok _
  cases c with
  | eq | ne => exact fails_ok _
  | _ => exact (Value.compare_failsOnData v w).map _

theorem Cell.between_failsOnData (negated : Bool) (v low high : Value) :
    FailsOnData (between negated v low high) := by
  unfold between
  split
  · exact fails_ok _
  refine (test_failsOnData .ge v low).bind fun above _ => ?_
  cases above with
  | true => exact (test_failsOnData .le v high).bind fun _ _ => fails_ok _
  | false => exact fails_ok _

namespace Broadcast

theorem commonLength_failsOnData (m n : Nat) : FailsOnData (commonLength m n) := by
  unfold commonLength
  split
  · exact fails_ok _
  split
  · exact fails_ok _
  split
  · exact fails_ok _
  · exact fails_error rfl

theorem paired_failsOnData (as : List α) (bs : List β) : FailsOnData (paired as bs) :=
  (commonLength_failsOnData _ _).bind fun _ _ => fails_ok _

theorem tripled_failsOnData {γ : Type} (as : List α) (bs : List β) (cs : List γ) :
    FailsOnData (tripled as bs cs) :=
  (commonLength_failsOnData _ _).bind fun _ _ =>
    (commonLength_failsOnData _ _).bind fun _ _ => fails_ok _

theorem combine_failsOnData (c : Connective) (as bs : List Bool) : FailsOnData (combine c as bs) :=
  (paired_failsOnData as bs).bind fun _ _ => fails_ok _

theorem fit_failsOnData (n : Nat) (mask : List Bool) : FailsOnData (fit n mask) := by
  unfold fit
  split
  · exact fails_ok _
  split
  · exact fails_ok _
  · exact fails_error rfl

theorem fails_failure? {P : Error → Prop} {test : α → Except Error β}
    (h : ∀ a, Fails P (test a)) {as : List α} {e : Error} (he : failure? test as = some e) :
    P e := by
  induction as with
  | nil => cases he
  | cons a as ih =>
    unfold failure? at he
    split at he
    · exact ih he
    · rename_i e' hfails
      cases he
      exact h a _ hfails

theorem fails_testAll {P : Error → Prop} {test : α → Except Error β} (h : ∀ a, Fails P (test a))
    (as : List α) : Fails P (testAll test as) := by
  induction as with
  | nil => exact fails_ok _
  | cons a as ih =>
    unfold testAll
    split
    · exact ih.map _
    · rename_i e hfails
      refine fails_error ?_
      cases hlater : failure? test as with
      | none => exact h a e hfails
      | some e' => exact fails_failure? h hlater

end Broadcast

theorem Database.table_failsOnData (db : Database) (name : String) :
    FailsOnData (db.table name) := by
  unfold table
  split
  · exact fails_ok _
  · exact fails_error rfl

theorem Table.columnCells_failsOnData (t : Table) (column : String) :
    FailsOnData (t.columnCells column) := by
  unfold columnCells
  split
  · exact fails_ok _
  · exact fails_error rfl

theorem Table.fieldCells_failsOnData (t : Table) (field : String) :
    FailsOnData (t.fieldCells field) := by
  unfold fieldCells
  split
  · exact t.columnCells_failsOnData field
  · exact fails_error rfl

theorem Table.project_failsOnData (t : Table) (places : List Nat) (name : String) :
    FailsOnData (t.project places name) :=
  (t.fieldCells_failsOnData name).bind fun _ _ => fails_ok _

theorem Table.spread_failsOnData (t : Table) (vs : List Value) (places : List Nat) :
    FailsOnData (t.spread vs places) := by
  unfold spread
  split
  · exact fails_ok _
  split
  · exact fails_ok _
  · exact fails_error rfl

theorem Aggregate.sum_failsOnData (f : AggregateFunction) (vs : List Value) :
    FailsOnData (Sum.of f vs) := by
  refine fails_foldlM (fun s v => ?_) vs _
  unfold Sum.next
  split
  · exact fails_ok _
  · exact fails_error rfl

theorem Aggregate.extreme_failsOnData (wanted : Ordering) (vs : List Value) :
    FailsOnData (extreme wanted vs) := by
  refine Fails.map (fails_foldlM (fun best v => ?_) vs none) _
  cases best with
  | none => exact fails_ok _
  | some b => exact (Value.compare_failsOnData v b).map _

theorem Aggregate.apply_failsOnData (a : Aggregate) (vs : List Value) :
    FailsOnData (a.apply vs) := by
  unfold apply ofPresent
  split
  · exact fails_ok _
  · exact (sum_failsOnData _ _).map _
  · unfold mean
    split
    · exact fails_ok _
    · exact (sum_failsOnData _ _).map _
  · exact extreme_failsOnData _ _
  · exact extreme_failsOnData _ _

theorem Table.aggregate_failsOnData (t : Table) (places : List Nat) (a : Aggregate) :
    FailsOnData (t.aggregate places a) :=
  (t.fieldCells_failsOnData _).bind fun _ _ =>
    (a.apply_failsOnData _).bind fun _ _ => fails_ok _

theorem Sorting.sortPlaces_failsOnData (keys : List Value) (d : Direction) (places : List Nat) :
    FailsOnData (sortPlaces keys d places) := by
  refine Fails.bind ?_ fun _ _ => fails_ok _
  unfold checkKeys
  split
  · exact fails_ok _
  · exact fails_forM fun key _ => (Value.compare_failsOnData _ key).map _

theorem Table.sortPlaces_failsOnData (t : Table) (order : Option (String × Direction))
    (places : List Nat) : FailsOnData (t.sortPlaces order places) := by
  unfold sortPlaces
  split
  · exact fails_ok _
  · exact (t.fieldCells_failsOnData _).bind fun keys _ => Sorting.sortPlaces_failsOnData keys _ _

end

end Tabular
