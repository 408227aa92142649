import Tabular.Error
import Tabular.Text.Basic

/-! Aggregate calls: their text, and which texts are calls. -/
namespace Tabular

def AggregateFunction.ofName (name : String) : Except Error AggregateFunction :=
  match all.find? fun f => Text.spells name f.name with
  | some f => .ok f
  | none => .error (.unknownFunction name)

inductive Argument where
  | column (name : String)
  /-- Every row, whatever it holds. -/
  | star
  deriving DecidableEq

structure Aggregate where
  function : AggregateFunction
  argument : Argument
  deriving DecidableEq

namespace Aggregate

def text (a : Aggregate) : String :=
  match a.argument with
  | .column name => a.function.name ++ "(" ++ name ++ ")"
  | .star => a.function.name ++ "(*)"

def isCall (s : String) : Bool :=
  let cs := Text.trimChars s.toList
  cs.contains '(' && cs.getLast? == some ')'

/-- The name and the argument of a call, without the blanks around them. -/
def parts? (cs : List Char) : Option (List Char × List Char) :=
  let cs := Text.trimChars cs
  if cs.getLast? = some ')' then
    let body := cs.dropLast
    let name := Text.trimChars (body.takeWhile (· ≠ '('))
    match body.dropWhile (· ≠ '(') with
    | [] => none
    | _ :: rest =>
      let argument := Text.trimChars rest
      if name.isEmpty || argument.isEmpty || argument.any fun c => c = '(' || c = ')' then none
      else some (name, argument)
  else none

/-- Only COUNT takes a star. -/
def ofParts (name argument : String) : Except Error Aggregate := do
  let function ← AggregateFunction.ofName name
  if argument = "*" then
    if function = .count then return ⟨function, .star⟩
    else throw (.starArgument function)
  else return ⟨function, .column argument⟩

def parse (s : String) : Except Error Aggregate :=
  match parts? s.toList with
  | some (name, argument) => ofParts (String.ofList name) (String.ofList argument)
  | none => .error (.malformedCall s)

end Aggregate
end Tabular
