import Tabular.Token.Lexer

/-!
Predicates written as text: a field, and perhaps a comparison and a value. The value is everything
after the comparison. It is a literal if it is one token, and plain text otherwise.
-/
namespace Tabular

structure FieldPredicate where
  field : String
  comparison : Option (Comparison × Raw)
  deriving DecidableEq

namespace FieldPredicate

def literal : Token → Except Error Raw
  | .integer n => .ok (.int n)
  | .real x => .ok (.real x)
  | .text s => .ok (.text s)
  | .word s => .ok (.text s)
  | .null => .ok .null
  | .bool b => .ok (.bool b)
  | t => .error (.expectedValue t)

def between? (mark : Char) : List Char → Option (List Char)
  | [] => none
  | c :: cs => if c = mark ∧ cs.getLast? = some mark then some cs.dropLast else none

def unquote (cs : List Char) : List Char :=
  ((between? '\'' cs).or (between? '"' cs)).getD cs

/-- Reads the value of a comparison. What starts with another comparison is none. -/
def readValue (rest : List Char) : Except Error Raw :=
  let cs := Text.trimChars rest
  if cs.isEmpty then .error .missingValue
  else match Token.tokens cs with
    | .ok [t, _] => literal t
    | .ok (t :: _) =>
      if t.isComparison then .error (.expectedValue t)
      else .ok (.text (String.ofList (unquote cs)))
    | _ => .ok (.text (String.ofList (unquote cs)))

def ofChars (cs : List Char) : Except Error FieldPredicate :=
  match Token.scan cs with
  | (.error e, _) => .error e
  | (.ok first, rest) =>
    match Token.scan rest with
    | (.error e, _) => .error e
    | (.ok second, rest) =>
      match first with
      | .word field =>
        match second with
        | .done => .ok ⟨field, none⟩
        | .comparison c => (readValue rest).map fun v => ⟨field, some (c, v)⟩
        | other => .error (.expectedComparison other)
      | other => .error (.expectedField other)

def parse (s : String) : Except Error FieldPredicate := ofChars s.toList

end FieldPredicate
end Tabular
