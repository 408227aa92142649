import Tabular.Token.Lexer

/-!
Reading tokens by position. A cursor is a place in a text that only moves forward, and each
character is looked up at its position: a look-up outside the text has no result, and then the
reading as a whole has none.
-/
namespace Tabular.Token

structure Cursor where
  text : List Char
  position : Nat
  deriving DecidableEq

namespace Cursor

def ofText (s : String) : Cursor := ⟨s.toList, 0⟩

def atEnd (c : Cursor) : Bool := decide (c.text.length ≤ c.position)

def current (c : Cursor) : Option Char := c.text[c.position]?

def peek (c : Cursor) : Option Char := c.text[c.position + 1]?

def advance (c : Cursor) : Cursor := { c with position := c.position + 1 }

/-- The text from the position on, which is no part of the text if the position is not. -/
def remainder (c : Cursor) : Option String :=
  if c.position ≤ c.text.length then some (String.ofList (c.text.drop c.position)) else none

def left (c : Cursor) : Nat := c.text.length - c.position

theorem left_advance {c : Cursor} (h : ¬ c.atEnd = true) : c.advance.left < c.left := by
  simp only [atEnd, decide_eq_true_eq] at h
  simp only [left, advance]
  omega

def consumeIf (expected : Char) (c : Cursor) : Option (Bool × Cursor) :=
  if c.atEnd then some (false, c)
  else
    match c.current with
    | none => none
    | some ch => if ch = expected then some (true, c.advance) else some (false, c)

theorem left_consumeIf {expected : Char} {c c' : Cursor} {found : Bool}
    (h : c.consumeIf expected = some (found, c')) : c'.left ≤ c.left := by
  unfold consumeIf at h
  split at h
  · cases h
    exact Nat.le_refl _
  rename_i hend
  split at h
  · cases h
  split at h
  · cases h
    exact Nat.le_of_lt (left_advance hend)
  · cases h
    exact Nat.le_refl _

def takeWhile (goesOn : List Char → Char → Bool) (taken : List Char) (c : Cursor) :
    Option (List Char × Cursor) :=
  if _more : c.atEnd then some (taken, c)
  else
    match c.current with
    | none => none
    | some ch =>
      if goesOn taken ch then takeWhile goesOn (taken ++ [ch]) c.advance else some (taken, c)
termination_by c.left
decreasing_by exact left_advance _more

def skipBlanks (c : Cursor) : Option Cursor :=
  (c.takeWhile (fun _ => Text.isBlank) []).map Prod.snd

def readWord (c : Cursor) : Option (Except Error Token × Cursor) :=
  (c.takeWhile (fun _ => isWordChar) []).map fun (taken, c) =>
    (.ok (ofWord (String.ofList taken)), c)

/-- Whether a character goes on with a number. A sign does after the mark of an exponent. -/
def goesOnNumber (taken : List Char) (ch : Char) : Bool :=
  ch.isDigit || ((ch = '-' || ch = '+') && taken.getLast?.any isExponentMark) || ch = '.' ||
    isExponentMark ch

def readNumber (c : Cursor) : Option (Except Error Token × Cursor) :=
  match c.current with
  | none => none
  | some ch =>
    let (sign, c) := if ch = '-' then (['-'], c.advance) else ([], c)
    (c.takeWhile goesOnNumber sign).map fun (taken, c) => (ofNumber taken, c)

def readQuoted (mark : Char) (body : List Char) (c : Cursor) :
    Option (Except Error Token × Cursor) :=
  if _more : c.atEnd then some (.error .unterminatedText, c)
  else
    match c.current with
    | none => none
    | some ch =>
      if ch = mark then
        match _found : c.advance.consumeIf mark with
        | none => none
        | some (true, c') => readQuoted mark (body ++ [mark]) c'
        | some (false, c') => some (.ok (.text (String.ofList body)), c')
      else readQuoted mark (body ++ [ch]) c.advance
termination_by c.left
decreasing_by
  · exact Nat.lt_of_le_of_lt (left_consumeIf _found) (left_advance _more)
  · exact left_advance _more

def readToken (c : Cursor) : Option (Except Error Token × Cursor) :=
  match c.current with
  | none => none
  | some ch =>
    if ch = '=' then
      (c.advance.consumeIf '=').map fun (_, c) => (.ok (.comparison .eq), c)
    else if ch = '!' then
      (c.advance.consumeIf '=').map fun (found, c) =>
        (if found then .ok (.comparison .ne) else .error .loneBang, c)
    else if ch = '<' then
      match c.advance.consumeIf '=' with
      | none => none
      | some (true, c) => some (.ok (.comparison .le), c)
      | some (false, c) =>
        (c.consumeIf '>').map fun (found, c) => (.ok (.comparison (if found then .ne else .lt)), c)
    else if ch = '>' then
      (c.advance.consumeIf '=').map fun (found, c) =>
        (.ok (.comparison (if found then .ge else .gt)), c)
    else if ch = '-' ∧ c.peek.any Char.isDigit then c.readNumber
    else if Text.isLetter ch ∨ ch = '_' then c.readWord
    else if ch.isDigit then c.readNumber
    else if ch = '\'' ∨ ch = '"' then c.advance.readQuoted ch []
    else some (.error (.unsupportedCharacter ch), c)

def scan (c : Cursor) : Option (Except Error Token × Cursor) :=
  match c.skipBlanks with
  | none => none
  | some c => if c.atEnd then some (.ok .done, c) else c.readToken

/-- Where some number of scans leaves the cursor, whatever they find. -/
def afterScans : Nat → Cursor → Option Cursor
  | 0, c => some c
  | n + 1, c =>
    match afterScans n c with
    | none => none
    | some c => c.scan.map Prod.snd

end Cursor
end Tabular.Token
