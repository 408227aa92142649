import Tabular.Error
import Tabular.Decimal.Numeral
import Tabular.Text.Letter
import Tabular.Text.Basic

/-!
Reading tokens. A scan skips blanks, reads one token or fails, and says what is left of the text;
scanning may go on after a failure. Every token but the last shortens the text.
-/
namespace Tabular.Token

abbrev Scan := Except Error Token × List Char

def isWordChar (c : Char) : Bool := Text.isLetterOrDigit c || c = '_'

/-- The token that a word stands for. Three words are literals, in any letter case. -/
def ofWord (s : String) : Token :=
  if Text.spells s "NULL" then .null
  else if Text.spells s "TRUE" then .bool true
  else if Text.spells s "FALSE" then .bool false
  else .word s

def scanWord (cs : List Char) : Scan :=
  (.ok (ofWord (String.ofList (cs.takeWhile isWordChar))), cs.dropWhile isWordChar)

def isExponentMark (c : Char) : Bool := c = 'e' || c = 'E'

def isNumberChar (previous c : Char) : Bool :=
  c.isDigit || c = '.' || isExponentMark c || ((c = '-' || c = '+') && isExponentMark previous)

def takeNumber (previous : Char) : List Char → List Char × List Char
  | [] => ([], [])
  | c :: cs =>
    if isNumberChar previous c then
      let (number, rest) := takeNumber c cs
      (c :: number, rest)
    else ([], c :: cs)

theorem takeNumber_append (previous : Char) (cs : List Char) :
    (takeNumber previous cs).1 ++ (takeNumber previous cs).2 = cs := by
  induction cs generalizing previous with
  | nil => rfl
  | cons c cs ih => by_cases h : isNumberChar previous c = true <;> simp [takeNumber, h, ih]

/-- A number is real if it has a point or an exponent. -/
def ofNumber (cs : List Char) : Except Error Token :=
  if cs.any fun c => c = '.' || isExponentMark c then
    match Decimal.readReal? cs with
    | some x => .ok (.real x)
    | none => .error (.malformedReal (String.ofList cs))
  else
    let n := (Decimal.readInt? cs).getD 0
    match toWord? n with
    | some w => .ok (.integer w)
    | none =>
      if n < 0 then .error (.integerTooSmall (String.ofList cs))
      else .error (.integerTooLarge (String.ofList cs))

/-- A number from its first character, a digit or a minus sign before one. -/
def scanNumber (c : Char) (cs : List Char) : Scan :=
  let (number, rest) := takeNumber c cs
  (ofNumber (c :: number), rest)

/-- The text up to the closing mark, where a doubled mark stands for one, and the rest. -/
def takeQuoted (mark : Char) : List Char → Option (List Char × List Char)
  | [] => none
  | c :: cs =>
    if c = mark then
      match cs with
      | [] => some ([], [])
      | d :: ds =>
        if d = mark then (takeQuoted mark ds).map fun (body, rest) => (mark :: body, rest)
        else some ([], d :: ds)
    else (takeQuoted mark cs).map fun (body, rest) => (c :: body, rest)

def scanQuoted (mark : Char) (cs : List Char) : Scan :=
  match takeQuoted mark cs with
  | some (body, rest) => (.ok (.text (String.ofList body)), rest)
  | none => (.error .unterminatedText, [])

def startsNumber : List Char → Bool
  | [] => false
  | c :: _ => c.isDigit

/-- Reads the token that starts with `c`. A character that starts none is left where it is. -/
def scanFrom (c : Char) (cs : List Char) : Scan :=
  if c = '=' then
    match cs with
    | '=' :: rest => (.ok (.comparison .eq), rest)
    | rest => (.ok (.comparison .eq), rest)
  else if c = '!' then
    match cs with
    | '=' :: rest => (.ok (.comparison .ne), rest)
    | rest => (.error .loneBang, rest)
  else if c = '<' then
    match cs with
    | '=' :: rest => (.ok (.comparison .le), rest)
    | '>' :: rest => (.ok (.comparison .ne), rest)
    | rest => (.ok (.comparison .lt), rest)
  else if c = '>' then
    match cs with
    | '=' :: rest => (.ok (.comparison .ge), rest)
    | rest => (.ok (.comparison .gt), rest)
  else if c = '-' ∧ startsNumber cs then scanNumber c cs
  else if Text.isLetter c ∨ c = '_' then scanWord (c :: cs)
  else if c.isDigit then scanNumber c cs
  else if c = '\'' ∨ c = '"' then scanQuoted c cs
  else (.error (.unsupportedCharacter c), c :: cs)

def scan (cs : List Char) : Scan :=
  match Text.skipBlanks cs with
  | [] => (.ok .done, [])
  | c :: rest => scanFrom c rest

theorem takeQuoted_length {mark : Char} {cs body rest : List Char}
    (h : takeQuoted mark cs = some (body, rest)) : rest.length ≤ cs.length := by
  fun_induction takeQuoted mark cs generalizing body rest with
  | case1 => cases h
  | case2 => cases h; simp
  | case3 ds ih =>
    obtain ⟨⟨b, r⟩, inner, eq⟩ := Option.map_eq_some_iff.1 h
    cases eq
    have := ih inner
    simp only [List.length_cons]
    omega
  | case4 => cases h; simp
  | case5 c cs _ ih =>
    obtain ⟨⟨b, r⟩, inner, eq⟩ := Option.map_eq_some_iff.1 h
    cases eq
    have := ih inner
    simp only [List.length_cons]
    omega

theorem scanNumber_length (c : Char) (cs : List Char) :
    (scanNumber c cs).2.length ≤ cs.length := by
  have := congrArg List.length (takeNumber_append c cs)
  simp only [List.length_append] at this
  simp only [scanNumber]
  omega

theorem scanQuoted_length (mark : Char) (cs : List Char) :
    (scanQuoted mark cs).2.length ≤ cs.length := by
  unfold scanQuoted
  split
  · exact takeQuoted_length (by assumption)
  · simp

theorem scanWord_length {c : Char} (cs : List Char) (h : isWordChar c = true) :
    (scanWord (c :: cs)).2.length ≤ cs.length := by
  simp only [scanWord, List.dropWhile_cons, h, if_true]
  exact (List.dropWhile_sublist _).length_le

theorem scanFrom_length {c : Char} {cs rest : List Char} {t : Token}
    (h : scanFrom c cs = (.ok t, rest)) : rest.length ≤ cs.length := by
  have shorter : ∀ {s : Scan}, s = (.ok t, rest) → s.2.length ≤ cs.length →
      rest.length ≤ cs.length := fun eq bound => by simpa [eq] using bound
  unfold scanFrom at h
  split at h
  · split at h <;> cases h <;> simp
  split at h
  · split at h <;> cases h
    simp
  split at h
  · split at h <;> cases h <;> simp
  split at h
  · split at h <;> cases h <;> simp
  split at h
  · exact shorter h (scanNumber_length c cs)
  split at h
  · rename_i start
    refine shorter h (scanWord_length cs ?_)
    rcases start with letter | line
    · simp [isWordChar, Text.isLetterOrDigit_of_isLetter letter]
    · simp [isWordChar, line]
  split at h
  · exact shorter h (scanNumber_length c cs)
  split at h
  · exact shorter h (scanQuoted_length c cs)
  · cases h

theorem scan_length {cs rest : List Char} {t : Token} (h : scan cs = (.ok t, rest))
    (more : t ≠ .done) : rest.length < cs.length := by
  have bound := Text.length_skipBlanks_le cs
  unfold scan at h
  split at h
  · cases h
    exact absurd rfl more
  · rename_i c after eq
    have := scanFrom_length h
    rw [eq, List.length_cons] at bound
    omega

/-- All tokens of a text, the last of which is `done`, or the first failure. -/
def tokens (cs : List Char) : Except Error (List Token) :=
  match _found : scan cs with
  | (.error e, _) => .error e
  | (.ok t, rest) =>
    if _last : t = .done then .ok [.done]
    else (tokens rest).map (t :: ·)
termination_by cs.length
decreasing_by exact scan_length (by assumption) (by assumption)

def tokenize (s : String) : Except Error (List Token) := tokens s.toList

end Tabular.Token
