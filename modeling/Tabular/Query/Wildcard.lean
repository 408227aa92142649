import Tabular.Value.Basic
import Tabular.Text.Utf8

/-!
Wildcard patterns: a percent sign stands for any run of characters, an underscore for any one, and
every other character for itself. A pattern is matched against all ends of a text at once, so the
work is bounded by the product of the lengths.
-/
namespace Tabular.Wildcard

def anyFrom : List Bool → List Bool
  | [] => []
  | b :: bs =>
    let later := anyFrom bs
    (b || later.headD false) :: later

@[simp] theorem length_anyFrom (bs : List Bool) : (anyFrom bs).length = bs.length := by
  induction bs with
  | nil => rfl
  | cons b bs ih => simp [anyFrom, ih]

/-- For each end of the text, the whole text first and the empty one last, whether the pattern
covers it. -/
def covers : List Char → List Char → List Bool
  | [], text => text.map (fun _ => false) ++ [true]
  | c :: pattern, text =>
    let rest := covers pattern text
    if c = '%' then anyFrom rest
    else List.zipWith (fun d hit => (c = '_' || c = d) && hit) text rest.tail ++ [false]

@[simp] theorem length_covers (pattern text : List Char) :
    (covers pattern text).length = text.length + 1 := by
  induction pattern with
  | nil => simp [covers]
  | cons c pattern ih =>
    simp only [covers]
    split <;> simp [ih]

def accepts (pattern text : List Char) : Bool := (covers pattern text).headD false

def textOf? : Value → Option String
  | .text s => some s
  | .blob b => some (Text.Utf8.decodeLossy b)
  | _ => none

/-- A pattern is neither met nor missed by a value without a text. -/
def test (negated : Bool) (pattern : List Char) (v : Value) : Bool :=
  match textOf? v with
  | some s => accepts pattern s.toList != negated
  | none => false

end Tabular.Wildcard
