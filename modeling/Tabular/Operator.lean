/-! The operators of expressions, conditions and queries, with their symbols. -/
namespace Tabular

inductive ArithmeticOp where
  | add | sub | mul | div | rem
  deriving DecidableEq

def ArithmeticOp.symbol : ArithmeticOp → String
  | .add => "+"
  | .sub => "-"
  | .mul => "*"
  | .div => "/"
  | .rem => "%"

/-- Comparisons of two values. They are false where one of them is NULL. -/
inductive Comparison where
  | eq | ne | lt | gt | le | ge
  deriving DecidableEq

def Comparison.symbol : Comparison → String
  | .eq => "="
  | .ne => "!="
  | .lt => "<"
  | .gt => ">"
  | .le => "<="
  | .ge => ">="

inductive Connective where
  | and | or
  deriving DecidableEq

def Connective.apply : Connective → Bool → Bool → Bool
  | .and => (· && ·)
  | .or => (· || ·)

/-- The truth value that decides nothing under a connective. -/
def Connective.unit : Connective → Bool
  | .and => true
  | .or => false

@[simp] theorem Connective.unit_apply (c : Connective) (b : Bool) : c.apply c.unit b = b := by
  cases c <;> rfl

inductive TestOp where
  | compare (c : Comparison)
  | join (c : Connective)
  | is (negated : Bool)
  | like (negated : Bool)
  | oneOf (negated : Bool)
  | between (negated : Bool)
  deriving DecidableEq

def TestOp.symbol : TestOp → String
  | .compare c => c.symbol
  | .join .and => "AND"
  | .join .or => "OR"
  | .is negated => if negated then "IS NOT" else "IS"
  | .like negated => if negated then "NOT LIKE" else "LIKE"
  | .oneOf negated => if negated then "NOT IN" else "IN"
  | .between negated => if negated then "NOT BETWEEN" else "BETWEEN"

inductive AggregateFunction where
  | count | sum | avg | max | min
  deriving DecidableEq

def AggregateFunction.name : AggregateFunction → String
  | .count => "COUNT"
  | .sum => "SUM"
  | .avg => "AVG"
  | .max => "MAX"
  | .min => "MIN"

def AggregateFunction.all : List AggregateFunction := [.count, .sum, .avg, .max, .min]

inductive Direction where
  | asc | desc
  deriving DecidableEq

end Tabular
