import Tabular.Aggregate.Basic
import Tabular.Storage
import Tabular.Binary64.Arithmetic

/-! The values of aggregates. NULL is left out of account everywhere. -/
namespace Tabular.Aggregate

/-- A running sum: exact as long as it has met integers only and stayed a word, and as a real
number. -/
structure Sum where
  exact : Option Int64
  total : Binary64
  deriving DecidableEq

def Sum.start : Sum := ⟨some 0, Binary64.zero⟩

def addWords? (a b : Int64) : Option Int64 := toWord? (a.toInt + b.toInt)

def Sum.exactNext (exact : Option Int64) : Value → Option Int64
  | .integer n => exact.bind (addWords? · n)
  | _ => none

def Sum.next (f : AggregateFunction) (s : Sum) (v : Value) : Except Error Sum :=
  match v.number? with
  | some x => .ok ⟨Sum.exactNext s.exact v, s.total.add x⟩
  | none => .error (.notSummable f v)

def Sum.of (f : AggregateFunction) (vs : List Value) : Except Error Sum :=
  vs.foldlM (Sum.next f) Sum.start

def Sum.value (s : Sum) : Value :=
  match s.exact with
  | some n => .integer n
  | none => .real s.total

/-- Keeps the value that comes `wanted` of every other, and the first of equal ones. -/
def extremeNext (wanted : Ordering) (best : Option Value) (v : Value) :
    Except Error (Option Value) :=
  match best with
  | none => .ok (some v)
  | some b => (v.compare b).map fun o => if o = wanted then some v else some b

def extreme (wanted : Ordering) (vs : List Value) : Except Error Value :=
  (vs.foldlM (extremeNext wanted) none).map (·.getD .null)

/-- The mean is a real number, and NULL where there is nothing to take it of. -/
def mean (vs : List Value) : Except Error Value :=
  if vs.isEmpty then .ok .null
  else (Sum.of .avg vs).map fun s => .real (s.total.div (Binary64.ofInt vs.length))

def ofPresent (f : AggregateFunction) (vs : List Value) : Except Error Value :=
  match f with
  | .count => .ok (.integer (Int64.ofNat vs.length))
  | .sum => (Sum.of .sum vs).map Sum.value
  | .avg => mean vs
  | .max => extreme .gt vs
  | .min => extreme .lt vs

def apply (a : Aggregate) (vs : List Value) : Except Error Value :=
  ofPresent a.function (vs.filter (!·.isNull))

end Tabular.Aggregate
