import Tabular.Json.Number
import Tabular.Text.Utf8

/-!
Reading JSON. The reader takes one character at a time and keeps the arrays and objects that are
still open on a stack, so it ends on every text and needs no bound on the nesting.
-/
namespace Tabular.Json

inductive Escape where
  | plain
  | backslash
  | unicode (count value : Nat)

/-- A text that is being read. `high` is the first half of a surrogate pair that awaits its second;
`broken` says that half of a pair was found alone. -/
structure TextState where
  done : List Char
  high : Option Nat
  broken : Bool
  escape : Escape

inductive TextStep where
  | more (t : TextState)
  | closed (s : Option String)
  | refused

def TextState.start : TextState := ⟨[], none, false, .plain⟩

def TextState.add (t : TextState) (c : Char) : TextState :=
  ⟨c :: t.done, none, t.broken || t.high.isSome, .plain⟩

def TextState.addUnit (t : TextState) (u : Nat) : TextState :=
  match t.high with
  | some h =>
    if 0xDC00 ≤ u ∧ u < 0xE000 then
      ⟨Char.ofNat (0x10000 + (h - 0xD800) * 0x400 + (u - 0xDC00)) :: t.done, none, t.broken, .plain⟩
    else ⟨t.done, none, true, .plain⟩
  | none =>
    if 0xD800 ≤ u ∧ u < 0xDC00 then ⟨t.done, some u, t.broken, .plain⟩
    else if 0xDC00 ≤ u ∧ u < 0xE000 then ⟨t.done, none, true, .plain⟩
    else t.add (Char.ofNat u)

def hexValue? (c : Char) : Option Nat :=
  if '0' ≤ c ∧ c ≤ '9' then some (c.toNat - '0'.toNat)
  else if 'a' ≤ c ∧ c ≤ 'f' then some (c.toNat - 'a'.toNat + 10)
  else if 'A' ≤ c ∧ c ≤ 'F' then some (c.toNat - 'A'.toNat + 10)
  else none

def unescape? (c : Char) : Option Char :=
  match c with
  | '"' => some '"'
  | '\\' => some '\\'
  | '/' => some '/'
  | 'b' => some '\x08'
  | 'f' => some '\x0c'
  | 'n' => some '\n'
  | 'r' => some '\r'
  | 't' => some '\t'
  | _ => none

def TextState.step (t : TextState) (c : Char) : TextStep :=
  match t.escape with
  | .plain =>
    if c = '"' then
      .closed (if t.broken || t.high.isSome then none else some (String.ofList t.done.reverse))
    else if c = '\\' then .more { t with escape := .backslash }
    else if c.toNat < 0x20 then .refused
    else .more (t.add c)
  | .backslash =>
    if c = 'u' then .more { t with escape := .unicode 0 0 }
    else match unescape? c with
      | some d => .more (t.add d)
      | none => .refused
  | .unicode count value =>
    match hexValue? c with
    | none => .refused
    | some d =>
      let value := value * 16 + d
      if count = 3 then .more (t.addUnit value)
      else .more { t with escape := .unicode (count + 1) value }

/-- An open array or object with what it holds so far, the latest first. An object also keeps the
key whose value is awaited. -/
inductive Frame where
  | items (done : List Json)
  | fields (done : List (Option String × Json)) (key : Option String)

inductive Mode where
  | value
  | firstItem
  | firstKey
  | key
  | colon
  /-- A comma or the end of the innermost array or object. -/
  | next
  /-- Only blanks: the document is complete. -/
  | complete (v : Json)
  | text (t : TextState)
  | keyText (t : TextState)
  | number (seen : List Char)
  | word (left : List Char) (v : Json)

structure Reading where
  stack : List Frame
  mode : Mode

def place (v : Json) : List Frame → Reading
  | [] => ⟨[], .complete v⟩
  | .items done :: rest => ⟨.items (v :: done) :: rest, .next⟩
  | .fields done key :: rest => ⟨.fields ((key, v) :: done) none :: rest, .next⟩

def close? (c : Char) : List Frame → Option Reading
  | .items done :: rest => if c = ']' then some (place (.array done.reverse) rest) else none
  | .fields done _ :: rest => if c = '\x7d' then some (place (.object done.reverse) rest) else none
  | [] => none

def isSpace (c : Char) : Bool := c = ' ' ∨ c = '\t' ∨ c = '\n' ∨ c = '\r'

def begin? (stack : List Frame) (c : Char) : Option Reading :=
  match c with
  | '\x7b' => some ⟨.fields [] none :: stack, .firstKey⟩
  | '[' => some ⟨.items [] :: stack, .firstItem⟩
  | '"' => some ⟨stack, .text .start⟩
  | 't' => some ⟨stack, .word ['r', 'u', 'e'] (.bool true)⟩
  | 'f' => some ⟨stack, .word ['a', 'l', 's', 'e'] (.bool false)⟩
  | 'n' => some ⟨stack, .word ['u', 'l', 'l'] .null⟩
  | c => if c = '-' ∨ c.isDigit then some ⟨stack, .number [c]⟩ else none

def between? (r : Reading) (c : Char) : Option Reading :=
  if isSpace c then some r
  else match r.mode with
    | .value => begin? r.stack c
    | .firstItem => if c = ']' then close? c r.stack else begin? r.stack c
    | .firstKey =>
      if c = '"' then some ⟨r.stack, .keyText .start⟩ else close? c r.stack
    | .key => if c = '"' then some ⟨r.stack, .keyText .start⟩ else none
    | .colon => if c = ':' then some ⟨r.stack, .value⟩ else none
    | .next =>
      if c = ',' then
        match r.stack with
        | .items _ :: _ => some ⟨r.stack, .value⟩
        | .fields .. :: _ => some ⟨r.stack, .key⟩
        | [] => none
      else close? c r.stack
    | _ => none

def isNumberChar (c : Char) : Bool :=
  c.isDigit || c = '-' || c = '+' || c = '.' || c = 'e' || c = 'E'

def nameValue (key : Option String) : List Frame → List Frame
  | .fields done _ :: rest => .fields done key :: rest
  | stack => stack

def step? (r : Reading) (c : Char) : Option Reading :=
  match r.mode with
  | .text t =>
    match t.step c with
    | .more t => some ⟨r.stack, .text t⟩
    | .closed s => some (place (s.elim .unreadable .text) r.stack)
    | .refused => none
  | .keyText t =>
    match t.step c with
    | .more t => some ⟨r.stack, .keyText t⟩
    | .closed s => some ⟨nameValue s r.stack, .colon⟩
    | .refused => none
  | .number seen =>
    if isNumberChar c then some ⟨r.stack, .number (c :: seen)⟩
    else do
      let v ← readNumber? seen.reverse
      between? (place v r.stack) c
  | .word left v =>
    match left with
    | [] => none
    | [d] => if c = d then some (place v r.stack) else none
    | d :: rest => if c = d then some ⟨r.stack, .word rest v⟩ else none
  | _ => between? r c

def Reading.finish? (r : Reading) : Option Json :=
  match r.stack, r.mode with
  | [], .complete v => some v
  | [], .number seen => readNumber? seen.reverse
  | _, _ => none

/-- The tree that a text spells, blanks around it aside. -/
def read? (cs : List Char) : Option Json := do
  let r ← cs.foldlM step? ⟨[], .value⟩
  r.finish?

/-- Documents nested more deeply than this are refused. -/
def maxDepth : Nat := 127

def readBytes? (bytes : List UInt8) : Option Json := do
  let cs ← Text.Utf8.decode? bytes
  let j ← read? cs
  if j.depth ≤ maxDepth then some j else none

end Tabular.Json
