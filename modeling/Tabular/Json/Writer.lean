import Tabular.Json.Basic
import Tabular.Decimal.Layout

/-!
Writing JSON without blanks. In a text only the quote mark, the backslash and control characters
are escaped; a number that is not finite is written as null.
-/
namespace Tabular.Json

def hexDigit (n : Nat) : Char := Nat.digitChar n

def escape (c : Char) : List Char :=
  match c with
  | '"' => ['\\', '"']
  | '\\' => ['\\', '\\']
  | '\x08' => ['\\', 'b']
  | '\x0c' => ['\\', 'f']
  | '\n' => ['\\', 'n']
  | '\r' => ['\\', 'r']
  | '\t' => ['\\', 't']
  | c =>
    if c.toNat < 0x20 then ['\\', 'u', '0', '0', hexDigit (c.toNat / 16), hexDigit (c.toNat % 16)]
    else [c]

def writeText (s : String) : List Char := '"' :: s.toList.flatMap escape ++ ['"']

def writeReal (x : Binary64) : List Char :=
  if x.isFinite then Decimal.interchange.chars x else "null".toList

mutual

def write : Json → List Char
  | .null => "null".toList
  | .bool b => if b then "true".toList else "false".toList
  | .integer n => (Decimal.intText n).toList
  | .real x => writeReal x
  | .text s => writeText s
  | .array items => '[' :: writeItems items ++ [']']
  | .object fields => '\x7b' :: writeFields fields ++ ['\x7d']
  | .unreadable => "null".toList

def writeItems : List Json → List Char
  | [] => []
  | [v] => v.write
  | v :: vs => v.write ++ ',' :: writeItems vs

def writeFields : List (Option String × Json) → List Char
  | [] => []
  | [(key, v)] => writeText (key.getD "") ++ ':' :: v.write
  | (key, v) :: rest => writeText (key.getD "") ++ ':' :: v.write ++ ',' :: writeFields rest

end

end Tabular.Json
