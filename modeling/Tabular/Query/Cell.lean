import Tabular.Storage
import Tabular.Binary64.Arithmetic

/-!
Operators on single values. NULL makes arithmetic NULL and tests false, except for the test whether
two values are the same.
-/
namespace Tabular.Cell

def exactOr (n : Int) (x : Binary64) : Value :=
  match toWord? n with
  | some w => .integer w
  | none => .real x

/-- Division is real; a remainder has the sign of the dividend; both by zero are NULL. -/
def integerArithmetic (op : ArithmeticOp) (a b : Int64) : Value :=
  let x := Binary64.ofInt a.toInt
  let y := Binary64.ofInt b.toInt
  match op with
  | .add => exactOr (a.toInt + b.toInt) (x.add y)
  | .sub => exactOr (a.toInt - b.toInt) (x.sub y)
  | .mul => exactOr (a.toInt * b.toInt) (x.mul y)
  | .div => if b = 0 then .null else .real (x.div y)
  | .rem => if b = 0 then .null else exactOr (a.toInt.tmod b.toInt) (x.rem y)

def realArithmetic (op : ArithmeticOp) (x y : Binary64) : Value :=
  match op with
  | .add => .real (x.add y)
  | .sub => .real (x.sub y)
  | .mul => .real (x.mul y)
  | .div => if y.isZero then .null else .real (x.div y)
  | .rem => if y.isZero then .null else .real (x.rem y)

def arithmetic (op : ArithmeticOp) (v w : Value) : Except Error Value :=
  if v.isNull || w.isNull then .ok .null
  else match v, w with
    | .integer a, .integer b => .ok (integerArithmetic op a b)
    | v, w =>
      match v.number?, w.number? with
      | some x, some y => .ok (realArithmetic op x y)
      | _, _ => .error (.notComputable op v w)

def test (c : Comparison) (v w : Value) : Except Error Bool :=
  if v.isNull || w.isNull then .ok false
  else match c with
    | .eq => .ok (v.matches? w)
    | .ne => .ok (!v.matches? w)
    | .lt => (v.compare w).map (· == .lt)
    | .gt => (v.compare w).map (· == .gt)
    | .le => (v.compare w).map (· != .gt)
    | .ge => (v.compare w).map (· != .lt)

/-- Whether two values are the same, where NULL is the same as NULL. -/
def isSame (negated : Bool) (v w : Value) : Bool := v.matches? w != negated

/-- Whether a value lies between two others. The upper end is looked at only where the lower one
does not decide. -/
def between (negated : Bool) (v low high : Value) : Except Error Bool :=
  if v.isNull || low.isNull || high.isNull then .ok false
  else do
    let above ← test .ge v low
    let inside ← if above then test .le v high else .ok false
    return inside != negated

def oneOf (negated : Bool) (set : List Value) (v : Value) : Bool :=
  if v.isNull then false else set.any v.matches? != negated

end Tabular.Cell
