import Tabular.Query.Plan
import Tabular.FieldPredicate

/-!
Building queries. Expressions and conditions are checked for the shape of their operands, a list of
items for what may be selected together, and a filter takes its predicates and keyword operators one
by one. Conditions that are put together directly are not checked until they are evaluated.
-/
namespace Tabular

def Operand.isCondition : Operand → Bool
  | .condition _ => true
  | _ => false

def Operand.isRange : Operand → Bool
  | .condition c => c.op == .join .and
  | _ => false

def Operand.isTextLiteral : Operand → Bool
  | .literal v => match v.untagged with
    | .text _ => true
    | _ => false
  | _ => false

def Operand.isCollection : Operand → Bool
  | .list _ | .series _ | .subquery _ => true
  | _ => false

/-- Conditions cannot be computed with. -/
def Expression.of (left : Operand) (op : ArithmeticOp) (right : Operand) :
    Except Error Expression :=
  match [left, right].find? Operand.isCondition with
  | some o => .error (.conditionInArithmetic o.name)
  | none => .ok ⟨left, op, right, none⟩

def TestOp.fits (op : TestOp) (left right : Operand) : Bool :=
  match op with
  | .join _ => left.isCondition && right.isCondition
  | .between _ => right.isRange
  | .like _ => right.isTextLiteral
  | .oneOf _ => right.isCollection
  | .compare _ | .is _ => true

def Condition.of (left : Operand) (op : TestOp) (right : Operand) : Except Error Condition :=
  if op.fits left right then .ok ⟨left, op, right, none⟩
  else .error (.misfitOperands op left.name right.name)

namespace Condition

def range (low high : Operand) : Condition := ⟨low, .join .and, high, none⟩

def between (v : Operand) (negated : Bool) (low high : Operand) : Condition :=
  ⟨v, .between negated, .condition (range low high), none⟩

def join (c : Connective) (a b : Condition) : Condition :=
  ⟨.condition a, .join c, .condition b, none⟩

end Condition

inductive SelectItem where
  | star
  | column (name : String)
  | aggregate (a : Aggregate)
  | computed (e : Expression)

namespace SelectItem

def parse (s : String) : Except Error SelectItem :=
  let name := Text.trim s
  if name = "*" then .ok .star
  else if Aggregate.isCall name then (Aggregate.parse name).map .aggregate
  else if name.isEmpty then .error .emptyItem
  else .ok (.column name)

def isStar : SelectItem → Bool
  | .star => true
  | _ => false

def aggregate? : SelectItem → Option Aggregate
  | .aggregate a => some a
  | _ => none

def projection? : SelectItem → Option Projection
  | .column name => some (.column name)
  | .computed e => some (.computed e)
  | _ => none

end SelectItem

/-- A star stands alone, and aggregates stand among themselves. -/
def Selection.of (items : List SelectItem) : Except Error Selection :=
  if items.isEmpty then .error .emptySelection
  else if items.any (·.isStar) then
    if 1 < items.length then .error .starNotAlone else .ok .star
  else match items.mapM SelectItem.aggregate?, items.mapM SelectItem.projection? with
    | some as, _ => .ok (.aggregates as)
    | none, some ps => .ok (.columns ps)
    | none, none => .error .mixedSelection

def Direction.parse (s : String) : Except Error Direction :=
  let name := Text.trim s
  if Text.spells name "ASC" then .ok .asc
  else if Text.spells name "DESC" then .ok .desc
  else .error (.unknownDirection s)

def Predicate.parse (s : String) : Except Error Predicate :=
  (FieldPredicate.parse s).map fun p =>
    match p.comparison with
    | none => .bare p.field
    | some (c, v) => .test p.field (.compare c v)

def FieldTest.symbol : FieldTest → String
  | .compare c _ => c.symbol
  | .like negated _ => (TestOp.like negated).symbol
  | .oneOf negated _ | .inQuery negated _ => (TestOp.oneOf negated).symbol
  | .between .. => (TestOp.between false).symbol
  | .isNull negated => if negated then "IS NOT NULL" else "IS NULL"

/-- Gives a predicate its test. Only a bare field takes one. -/
def Predicate.attach (t : FieldTest) : Predicate → Except Error Predicate
  | .bare field => .ok (.test field t)
  | .test field _ => .error (.operatorTaken t.symbol field)
  | .condition _ => .error (.operatorOnCondition t.symbol)

namespace PredicateTree

/-- Joins one more predicate. It becomes the last member of a group under the same connective;
anything else becomes the first member of a new group. -/
def push (connective : Connective) (p : Predicate) : PredicateTree → PredicateTree
  | .leaf q => .group connective [.leaf q, .leaf p]
  | .group current members =>
    if current = connective then .group current (members ++ [.leaf p])
    else .group connective [.group current members, .leaf p]

/-- Gives the latest predicate its test, which is the tree itself or the last member of the
group. -/
def attach (t : FieldTest) : PredicateTree → Except Error PredicateTree
  | .leaf p => (p.attach t).map .leaf
  | .group connective members =>
    match members.getLast? with
    | some (.leaf p) => (p.attach t).map fun p => .group connective (members.dropLast ++ [.leaf p])
    | some (.group ..) => .error (.operatorOnCondition t.symbol)
    | none => .error (.operatorAlone t.symbol)

/-- The latest predicate is the one that was joined last, wherever it stands in the tree. -/
theorem attach_push (t : FieldTest) (connective : Connective) (p : Predicate)
    (root : PredicateTree) :
    (root.push connective p).attach t = (p.attach t).map (push connective · root) := by
  cases root with
  | leaf q => rfl
  | group current members =>
    by_cases h : current = connective <;> simp [push, attach, h]

end PredicateTree

def Filter.extend (f : Filter) (connective : Connective) (p : Predicate) : Filter :=
  match f with
  | .all => .tree (.leaf p)
  | .tree root => .tree (root.push connective p)

def Filter.attach (t : FieldTest) : Filter → Except Error Filter
  | .all => .error (.operatorAlone t.symbol)
  | .tree root => (root.attach t).map .tree

theorem Filter.attach_extend (t : FieldTest) (f : Filter) (connective : Connective)
    (p : Predicate) :
    (f.extend connective p).attach t = (p.attach t).map (f.extend connective) := by
  cases f with
  | all => cases h : p.attach t <;> simp [extend, attach, PredicateTree.attach, h, Except.map]
  | tree root =>
    cases h : p.attach t <;>
      simp [extend, attach, PredicateTree.attach_push, h, Except.map]

/-- One step of building a filter: a predicate as text or as a condition, or a keyword operator. -/
inductive Clause where
  | text (connective : Connective) (s : String)
  | condition (connective : Connective) (c : Condition)
  | keyword (t : FieldTest)

def Filter.add (f : Filter) : Clause → Except Error Filter
  | .text connective s => (Predicate.parse s).map (.extend f connective)
  | .condition connective c => .ok (.extend f connective (.condition c))
  | .keyword t => f.attach t

/-- The filter of the clauses, of which the first to fail decides the error. -/
def Filter.build (clauses : List Clause) : Except Error Filter := clauses.foldlM Filter.add .all

end Tabular
