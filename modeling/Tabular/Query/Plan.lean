import Tabular.Aggregate.Basic

/-!
Queries and what they are made of. Operands may be nested queries, so expressions, conditions and
plans are defined together.
-/
namespace Tabular

structure Field where
  table : String
  column : String
  deriving DecidableEq

structure Series where
  data : List Value
  name : Option String := none
  deriving DecidableEq

mutual

inductive Operand where
  | field (f : Field)
  | expression (e : Expression)
  | condition (c : Condition)
  | series (s : Series)
  | literal (v : Raw)
  | list (vs : List Raw)
  /-- The first column that a query selects. -/
  | subquery (p : Plan)

structure Expression where
  left : Operand
  op : ArithmeticOp
  right : Operand
  label : Option String

/-- A test of two operands. The right one of BETWEEN is the condition `low AND high`. -/
structure Condition where
  left : Operand
  op : TestOp
  right : Operand
  label : Option String

inductive FieldTest where
  | compare (c : Comparison) (v : Raw)
  | like (negated : Bool) (pattern : String)
  | oneOf (negated : Bool) (vs : List Raw)
  | inQuery (negated : Bool) (p : Plan)
  | between (low high : Raw)
  | isNull (negated : Bool)

/-- One predicate of a filter. A bare field awaits a test, and holds nowhere without one. -/
inductive Predicate where
  | bare (field : String)
  | test (field : String) (t : FieldTest)
  | condition (c : Condition)

/-- Predicates under connectives. A group joins its members by one connective, from left to
right. -/
inductive PredicateTree where
  | leaf (p : Predicate)
  | group (connective : Connective) (members : List PredicateTree)

/-- What the rows of a query must satisfy, if anything. -/
inductive Filter where
  | all
  | tree (root : PredicateTree)

inductive Projection where
  | column (name : String)
  | computed (e : Expression)

/-- What a query selects: all declared columns, some columns, or aggregates over all rows. -/
inductive Selection where
  | star
  | columns (ps : List Projection)
  | aggregates (as : List Aggregate)

structure Plan where
  selection : Selection
  table : String
  filter : Filter
  order : Option (String × Direction)
  limit : Option Nat

end

def Plan.empty : Plan := ⟨.aggregates [], "", .all, none, none⟩

mutual

def Operand.name : Operand → String
  | .field f => f.column
  | .expression e => e.name
  | .condition c => c.name
  | .series s => s.name.getD "column"
  | .literal v => v.literal
  | .list vs => "(" ++ String.intercalate ", " (vs.map Raw.literal) ++ ")"
  | .subquery _ => "(subquery)"

/-- The label, or else the expression written out. -/
def Expression.name : Expression → String
  | ⟨l, op, r, label⟩ =>
    match label with
    | some name => name
    | none => "(" ++ l.name ++ " " ++ op.symbol ++ " " ++ r.name ++ ")"

def Condition.name : Condition → String
  | ⟨l, op, r, label⟩ =>
    match label with
    | some name => name
    | none => "(" ++ l.name ++ " " ++ op.symbol ++ " " ++ r.name ++ ")"

end

end Tabular
