import Tabular.Query.Build
import Tabular.Proofs.Query.Order

/-!
Tests beside their negations. Both read the same values in the same order, so they fail together and
their masks have the same length. A negated test is not the opposite of the plain one on every row:
where a value cannot be tested, such as NULL, neither of them holds.
-/
namespace Tabular

/-- The tests that come with a negation. -/
inductive Negatable where
  | equal | same | like | oneOf | between
  deriving DecidableEq

namespace Negatable

def op (negated : Bool) : Negatable → TestOp
  | .equal => .compare (if negated then .ne else .eq)
  | .same => .is negated
  | .like => .like negated
  | .oneOf => .oneOf negated
  | .between => .between negated

/-- The operands whose values are tested row by row. A pattern and a set of values are the same for
all rows. -/
def operands (left right : Operand) : Negatable → List Operand
  | .equal | .same => [left, right]
  | .like | .oneOf => [left]
  | .between =>
    match right with
    | .condition ⟨low, _, high, _⟩ => [left, low, high]
    | _ => [left]

def takes : Negatable → Value → Bool
  | .same, _ => true
  | .like, .text _ | .like, .blob _ => true
  | .like, _ => false
  | _, v => !v.isNull

/-- Two masks with the common length of the columns. If all values on a row can be tested, exactly
one of the two bits is set, and otherwise neither is. -/
structure Parted (t : Negatable) (columns : List (List Value)) (mask mask' : List Bool) : Prop where
  length_eq : mask.length = mask'.length
  common : Broadcast.Common columns mask.length
  rows : ∀ i < mask.length, ∃ vs bit, columns.mapM (Broadcast.valueAt? i) = some vs ∧
    mask[i]? = some (vs.all t.takes && bit) ∧ mask'[i]? = some (vs.all t.takes && !bit)

/-- Both computations fail, with the same error, or they part the rows between them. -/
def Parts (db : Database) (t : Negatable) (operands : List Operand)
    (plain negated : Except Error (List Bool)) : Prop :=
  (∃ e, plain = .error e ∧ negated = .error e) ∨
    ∃ columns mask mask', operands.mapM (·.values db) = .ok columns ∧ plain = .ok mask ∧
      negated = .ok mask' ∧ t.Parted columns mask mask'

section

variable {α : Type} {t : Negatable} {db : Database} {operands : List Operand}

theorem Parts.bind {x : Except Error α} {f g : α → Except Error (List Bool)}
    (h : ∀ a, x = .ok a → Parts db t operands (f a) (g a)) :
    Parts db t operands (x >>= f) (x >>= g) := by
  cases x with
  | error e => exact .inl ⟨e, rfl, rfl⟩
  | ok a => exact h a rfl

/-- A test of single rows that has a bit for each row and, where the values of the row can be
tested, holds or not by this bit. -/
theorem parts_testAll (view : α → List Value) (base : α → Except Error Bool)
    {test : Bool → α → Except Error Bool}
    (htest : ∀ negated a, test negated a =
      (base a).map fun bit => (view a).all t.takes && bit != negated)
    {columns : List (List Value)} (hcolumns : operands.mapM (·.values db) = .ok columns)
    {rows : List α} (common : Broadcast.Common columns rows.length)
    (hrows : ∀ i a, rows[i]? = some a → columns.mapM (Broadcast.valueAt? i) = some (view a)) :
    Parts db t operands (Broadcast.testAll (test false) rows)
      (Broadcast.testAll (test true) rows) := by
  simp only [show ∀ negated, test negated = _ from fun negated => funext (htest negated),
    Broadcast.testAll_zipWith]
  cases hbits : Broadcast.testAll base rows with
  | error e => exact .inl ⟨e, rfl, rfl⟩
  | ok bits =>
    have hlength := Broadcast.length_testAll hbits
    refine .inr ⟨columns, _, _, hcolumns, rfl, rfl, by simp, ?_, fun i hi => ?_⟩
    · simpa [hlength] using common
    have hi : i < rows.length := by simpa [hlength] using hi
    have hrow : rows[i]? = some rows[i] := List.getElem?_eq_getElem hi
    have hbit : bits[i]? = some bits[i] := List.getElem?_eq_getElem (hlength ▸ hi)
    refine ⟨view rows[i], bits[i], hrows i _ hrow, ?_, ?_⟩
    · simp [List.getElem?_zipWith, hrow, hbit]
    · simp [List.getElem?_zipWith, hrow, hbit]

theorem parts_map (view : α → List Value) (base : α → Bool) {test : Bool → α → Bool}
    (htest : ∀ negated a, test negated a = ((view a).all t.takes && base a != negated))
    {columns : List (List Value)} (hcolumns : operands.mapM (·.values db) = .ok columns)
    {rows : List α} (common : Broadcast.Common columns rows.length)
    (hrows : ∀ i a, rows[i]? = some a → columns.mapM (Broadcast.valueAt? i) = some (view a)) :
    Parts db t operands (.ok (rows.map (test false))) (.ok (rows.map (test true))) := by
  have hok : ∀ negated a, (.ok (test negated a) : Except Error Bool) =
      (Except.ok (base a)).map fun bit => (view a).all t.takes && bit != negated :=
    fun negated a => congrArg Except.ok (htest negated a)
  have h := parts_testAll view (fun a => .ok (base a)) hok hcolumns common hrows
  simpa only [Broadcast.testAll_ok] using h

end

theorem test_equal (negated : Bool) (v w : Value) :
    Cell.test (if negated then .ne else .eq) v w =
      (Except.ok (v.matches? w)).map fun bit => [v, w].all equal.takes && bit != negated := by
  cases hv : v.isNull <;> cases hw : w.isNull <;> cases negated <;>
    simp [Cell.test, takes, hv, hw, Except.map]

theorem test_like (negated : Bool) (pattern : List Char) (v : Value) :
    Wildcard.test negated pattern v = ([v].all like.takes &&
      (Wildcard.textOf? v).any (fun s => Wildcard.accepts pattern s.toList) != negated) := by
  cases v <;> simp [Wildcard.test, Wildcard.textOf?, takes]

theorem test_oneOf (negated : Bool) (set : List Value) (v : Value) :
    Cell.oneOf negated set v = ([v].all oneOf.takes && set.any v.matches? != negated) := by
  cases hv : v.isNull <;> simp [Cell.oneOf, takes, hv]

theorem test_between (negated : Bool) (v low high : Value) :
    Cell.between negated v low high = (Cell.between false v low high).map
      fun bit => [v, low, high].all between.takes && bit != negated := by
  by_cases hnull : v.isNull || low.isNull || high.isNull
  · have htakes : [v, low, high].all between.takes = false := by
      simp only [takes, List.all_cons, List.all_nil, Bool.and_true, ← Bool.not_or, hnull,
        ← Bool.or_assoc, Bool.not_true]
    simp [Cell.between, hnull, htakes, Except.map]
  · have htakes : [v, low, high].all between.takes = true := by
      simp only [Bool.or_eq_true, not_or, Bool.not_eq_true] at hnull
      simp [takes, hnull]
    simp only [Cell.between, if_neg hnull, htakes, Bool.true_and, Bool.bne_false]
    cases Cell.test .ge v low with
    | error e => rfl
    | ok above =>
      cases above with
      | false => rfl
      | true => cases Cell.test .le v high <;> rfl

end Negatable

theorem Condition.parts_mask (db : Database) (t : Negatable) (left right : Operand)
    (label label' : Option String) :
    t.Parts db (t.operands left right) ((Condition.mk left (t.op false) right label).mask db)
      ((Condition.mk left (t.op true) right label').mask db) := by
  cases t with
  | equal =>
    simp only [Negatable.op, Condition.mask]
    refine .bind fun vs hvs => .bind fun ws hws => .bind fun ps hps => ?_
    refine Negatable.parts_testAll (fun p : Value × Value => [p.1, p.2]) _
      (fun negated p => Negatable.test_equal negated p.1 p.2)
      (Except.mapM_eq_ok_iff.2 (.cons hvs (.cons hws .nil))) (Broadcast.common_of_paired hps)
      fun i p hp => ?_
    simp [Broadcast.valueAt?_of_paired hps hp]
  | same =>
    simp only [Negatable.op, Condition.mask]
    refine .bind fun vs hvs => .bind fun ws hws => .bind fun ps hps => ?_
    refine Negatable.parts_map (fun p : Value × Value => [p.1, p.2])
      (fun p => p.1.matches? p.2) (fun negated p => rfl)
      (Except.mapM_eq_ok_iff.2 (.cons hvs (.cons hws .nil))) (Broadcast.common_of_paired hps)
      fun i p hp => ?_
    simp [Broadcast.valueAt?_of_paired hps hp]
  | like =>
    simp only [Negatable.op, Condition.mask]
    refine .bind fun pattern _ => .bind fun vs hvs => ?_
    refine Negatable.parts_map (fun v => [v]) _
      (fun negated v => Negatable.test_like negated pattern.toList v)
      (Except.mapM_eq_ok_iff.2 (.cons hvs .nil)) (by simp [Broadcast.Common]) fun i v hv => ?_
    simp [Broadcast.valueAt?_of_getElem? hv]
  | oneOf =>
    simp only [Negatable.op, Condition.mask]
    refine .bind fun vs hvs => .bind fun set _ => ?_
    refine Negatable.parts_map (fun v => [v]) _
      (fun negated v => Negatable.test_oneOf negated set v)
      (Except.mapM_eq_ok_iff.2 (.cons hvs .nil)) (by simp [Broadcast.Common]) fun i v hv => ?_
    simp [Broadcast.valueAt?_of_getElem? hv]
  | between =>
    cases right with
    | condition range =>
      obtain ⟨low, op, high, name⟩ := range
      simp only [Negatable.op, Condition.mask]
      refine .bind fun vs hvs => .bind fun los hlos => .bind fun his hhis => .bind fun ts hts => ?_
      refine Negatable.parts_testAll (fun t : Value × Value × Value => [t.1, t.2.1, t.2.2]) _
        (fun negated t => Negatable.test_between negated t.1 t.2.1 t.2.2)
        (Except.mapM_eq_ok_iff.2 (.cons hvs (.cons hlos (.cons hhis .nil))))
        (Broadcast.common_of_tripled hts) fun i t ht => ?_
      simp [Broadcast.valueAt?_of_tripled hts ht]
    | _ => exact .inl ⟨.noRange, rfl, rfl⟩

/-- The condition that a filter demands of an operand. Literals are taken as the column would store
them. -/
def FieldTest.condition (column : Column) (o : Operand) : FieldTest → Condition
  | .compare c raw => ⟨o, .compare c, .literal (column.literal raw), none⟩
  | .like negated pattern => ⟨o, .like negated, .literal (.text pattern), none⟩
  | .oneOf negated raws => ⟨o, .oneOf negated, .list (raws.map column.literal), none⟩
  | .inQuery negated p => ⟨o, .oneOf negated, .subquery p, none⟩
  | .between low high =>
    .between o false (.literal (column.literal low)) (.literal (column.literal high))
  | .isNull negated => ⟨o, .is negated, .literal .null, none⟩

theorem FieldTest.mask_eq_condition {db : Database} {o : Operand} {cells : List Value}
    (h : o.values db = .ok cells) (column : Column) (test : FieldTest) :
    test.mask db column cells = (test.condition column o).mask db := by
  cases test with
  | compare c raw =>
    simp only [FieldTest.mask, condition, Condition.mask, Operand.values, h]
    cases (column.literal raw).store with
    | error e => rfl
    | ok w =>
      simp [bind, Except.bind, pure, Except.pure, Broadcast.paired_singleton_right,
        Broadcast.testAll_comp]
  | like negated pattern =>
    simp only [FieldTest.mask, condition, Condition.mask, h]
    rfl
  | oneOf negated raws =>
    simp only [FieldTest.mask, condition, Condition.mask, Operand.values, h, List.mapM_map]
    rfl
  | inQuery negated p =>
    simp only [FieldTest.mask, condition, Condition.mask, Operand.values, h]
    cases p.run db <;> rfl
  | between low high =>
    simp only [FieldTest.mask, condition, Condition.between, Condition.range, Condition.mask,
      Operand.values, h]
    cases (column.literal low).store with
    | error e => rfl
    | ok lo =>
      cases (column.literal high).store with
      | error e => rfl
      | ok hi =>
        simp [bind, Except.bind, pure, Except.pure, Broadcast.tripled_singletons,
          Broadcast.testAll_comp]
  | isNull negated =>
    simp only [FieldTest.mask, condition, Condition.mask, Operand.values, h]
    simp [bind, Except.bind, pure, Except.pure, Raw.store, Broadcast.paired_singleton_right]

/-- The mask of a test and the mask of its negation part the rows between them, or both fail. A
filter tests a field by the condition that it makes of the field. -/
theorem Condition.mask_negated (db : Database) :
    (∀ (t : Negatable) (left right : Operand) (label label' : Option String),
      t.Parts db (t.operands left right) ((Condition.mk left (t.op false) right label).mask db)
        ((Condition.mk left (t.op true) right label').mask db)) ∧
    ∀ (o : Operand) (cells : List Value), o.values db = .ok cells →
      ∀ (column : Column) (test : FieldTest),
        test.mask db column cells = (test.condition column o).mask db :=
  ⟨parts_mask db, fun _ _ => FieldTest.mask_eq_condition⟩

/-- A game without points neither has three points nor another number of them. -/
theorem Condition.mask_negated_games :
    let points := Operand.field ⟨"games", "points"⟩
    let three := Operand.literal (.int 3)
    let cells : List Value := [.integer 3, .null, .integer 7, .integer 3]
    let column : Column := { name := "points", affinity := .integer, nullable := true }
    points.values scoreboard = .ok cells ∧
      Negatable.equal.Parts scoreboard [points, three] (.ok [true, false, false, true])
        (.ok [false, false, true, false]) ∧
      (FieldTest.compare .ne (.text "3")).mask scoreboard column cells =
        .ok [false, false, true, false] := by
  intro points three cells column
  have hcells : points.values scoreboard = .ok cells := by decide
  have heq : (Condition.mk points (.compare .eq) three none).mask scoreboard =
      .ok [true, false, false, true] := by decide
  have hne : (Condition.mk points (.compare .ne) three none).mask scoreboard =
      .ok [false, false, true, false] := by decide
  obtain ⟨hparts, hfilter⟩ := mask_negated scoreboard
  have hequal := hparts .equal points three none none
  simp only [Negatable.op, Bool.false_eq_true, if_false, if_true, heq, hne] at hequal
  refine ⟨hcells, hequal, ?_⟩
  rw [hfilter points cells hcells column]
  decide

end Tabular
