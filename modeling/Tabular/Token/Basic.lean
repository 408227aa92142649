import Tabular.Operator
import Tabular.Binary64.Basic
import Tabular.Decimal.Layout
import Tabular.Text.Printable

/-! Tokens of predicate text. -/
namespace Tabular

inductive Token where
  | word (s : String)
  | integer (n : Int64)
  | real (x : Binary64)
  | text (s : String)
  | null
  | bool (b : Bool)
  | comparison (c : Comparison)
  | done
  deriving DecidableEq

namespace Token

def isComparison : Token → Bool
  | .comparison _ => true
  | _ => false

def comparisonName : Comparison → String
  | .eq => "Equal"
  | .ne => "NotEqual"
  | .lt => "Lower"
  | .gt => "Greater"
  | .le => "LowerEqual"
  | .ge => "GreaterEqual"

def describe : Token → String
  | .word s => "Ident(" ++ Text.quoted s ++ ")"
  | .integer n => "Number(" ++ Decimal.intText n.toInt ++ ")"
  | .real x => "FloatNumber(" ++ Decimal.diagnostic.text x ++ ")"
  | .text s => "String(" ++ Text.quoted s ++ ")"
  | .null => "Null"
  | .bool b => if b then "True" else "False"
  | .comparison c => comparisonName c
  | .done => "Eof"

end Token
end Tabular
