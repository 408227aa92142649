import Tabular.Token.Cursor
import Tabular.Proofs.Lexeme

/-!
Reading by position agrees with reading the rest of a text. Every cursor that scans lead to stands
before an end of the text, so no look-up misses, whatever the scans find; and what a scan takes is
what the lexer takes from that end.
-/
namespace Tabular.Token

namespace Cursor

def before (text rest : List Char) : Cursor := ⟨text, text.length - rest.length⟩

theorem ofText_eq (s : String) : ofText s = before s.toList s.toList := by
  simp [ofText, before]

variable {text rest : List Char}

theorem position_before : (before text rest).position ≤ text.length := Nat.sub_le _ _

theorem remainder_before (h : rest <:+ text) :
    (before text rest).remainder = some (String.ofList rest) := by
  obtain ⟨front, rfl⟩ := h
  simp [remainder, before]

theorem atEnd_nil : (before text []).atEnd = true := by simp [atEnd, before]

section

variable {c : Char} {cs : List Char} (h : c :: cs <:+ text)

include h

theorem suffix_of_cons : cs <:+ text := (List.suffix_cons c cs).trans h

theorem atEnd_cons : (before text (c :: cs)).atEnd = false := by
  have hlength := h.length_le
  simp only [List.length_cons] at hlength
  refine decide_eq_false ?_
  simp only [before, List.length_cons]
  omega

theorem current_before : (before text (c :: cs)).current = some c := by
  obtain ⟨front, rfl⟩ := h
  simp [current, before]

theorem peek_before : (before text (c :: cs)).peek = cs.head? := by
  obtain ⟨front, rfl⟩ := h
  simp [peek, before, List.head?_eq_getElem?, List.getElem?_append_right]

theorem advance_before : (before text (c :: cs)).advance = before text cs := by
  have hlength := h.length_le
  simp only [List.length_cons] at hlength
  simp only [advance, before, Cursor.mk.injEq, List.length_cons, true_and]
  omega

end

theorem consumeIf_nil (expected : Char) :
    (before text []).consumeIf expected = some (false, before text []) := by
  rw [consumeIf, if_pos atEnd_nil]

theorem consumeIf_cons {c : Char} {cs : List Char} (h : c :: cs <:+ text) (expected : Char) :
    (before text (c :: cs)).consumeIf expected =
      if c = expected then some (true, before text cs)
      else some (false, before text (c :: cs)) := by
  rw [consumeIf, atEnd_cons h, current_before h, advance_before h]
  rfl

section

variable {goesOn : List Char → Char → Bool} {taken : List Char}

theorem takeWhile_nil : (before text []).takeWhile goesOn taken = some (taken, before text []) := by
  unfold takeWhile
  rw [dif_pos atEnd_nil]

theorem takeWhile_cons {c : Char} {cs : List Char} (h : c :: cs <:+ text) :
    (before text (c :: cs)).takeWhile goesOn taken =
      if goesOn taken c then (before text cs).takeWhile goesOn (taken ++ [c])
      else some (taken, before text (c :: cs)) := by
  conv_lhs => unfold takeWhile
  rw [dif_neg (by simp [atEnd_cons h]), current_before h, advance_before h]

end

theorem takeWhile_before (p : Char → Bool) (h : rest <:+ text) (taken : List Char) :
    (before text rest).takeWhile (fun _ => p) taken =
      some (taken ++ rest.takeWhile p, before text (rest.dropWhile p)) := by
  induction rest generalizing taken with
  | nil => simp [takeWhile_nil]
  | cons c cs ih =>
    rw [takeWhile_cons h]
    by_cases hc : p c = true
    · simp [hc, ih (suffix_of_cons h)]
    · simp [hc]

theorem skipBlanks_before (h : rest <:+ text) :
    (before text rest).skipBlanks = some (before text (Text.skipBlanks rest)) := by
  rw [skipBlanks, takeWhile_before Text.isBlank h]
  rfl

theorem readWord_before (h : rest <:+ text) :
    (before text rest).readWord = some ((scanWord rest).1, before text (scanWord rest).2) := by
  rw [readWord, takeWhile_before isWordChar h]
  rfl

theorem goesOnNumber_eq {taken : List Char} {previous : Char}
    (htaken : taken.getLast? = some previous) (c : Char) :
    goesOnNumber taken c = isNumberChar previous c := by
  rw [goesOnNumber, htaken, Option.any_some, isNumberChar]
  simp only [Bool.or_assoc, Bool.or_comm, Bool.or_left_comm]

theorem takeNumber_before (h : rest <:+ text) {taken : List Char} {previous : Char}
    (htaken : taken.getLast? = some previous) :
    (before text rest).takeWhile goesOnNumber taken =
      some (taken ++ (takeNumber previous rest).1, before text (takeNumber previous rest).2) := by
  induction rest generalizing taken previous with
  | nil => simp [takeWhile_nil, takeNumber]
  | cons c cs ih =>
    rw [takeWhile_cons h, goesOnNumber_eq htaken]
    by_cases hc : isNumberChar previous c = true
    · simp [hc, takeNumber, ih (suffix_of_cons h) List.getLast?_concat]
    · simp [hc, takeNumber]

theorem readNumber_before {c : Char} {cs : List Char} (h : c :: cs <:+ text)
    (hc : c = '-' ∨ c.isDigit = true) :
    (before text (c :: cs)).readNumber =
      some ((scanNumber c cs).1, before text (scanNumber c cs).2) := by
  rw [readNumber, current_before h]
  dsimp only
  by_cases hminus : c = '-'
  · subst hminus
    rw [if_pos rfl, advance_before h]
    dsimp only
    rw [takeNumber_before (suffix_of_cons h) rfl]
    rfl
  · rw [if_neg hminus]
    dsimp only
    have hdigit : goesOnNumber [] c = true := by simp [goesOnNumber, hc.resolve_left hminus]
    rw [takeWhile_cons h, if_pos hdigit, takeNumber_before (suffix_of_cons h) rfl]
    rfl

section

variable {mark : Char} {body : List Char}

theorem readQuoted_nil :
    (before text []).readQuoted mark body = some (.error .unterminatedText, before text []) := by
  unfold readQuoted
  rw [dif_pos atEnd_nil]

theorem readQuoted_cons {c : Char} {cs : List Char} (h : c :: cs <:+ text) (hc : c ≠ mark) :
    (before text (c :: cs)).readQuoted mark body =
      (before text cs).readQuoted mark (body ++ [c]) := by
  conv_lhs => unfold readQuoted
  rw [dif_neg (by simp [atEnd_cons h]), current_before h, advance_before h]
  exact if_neg hc

theorem readQuoted_mark {cs : List Char} {c' : Cursor} {found : Bool} (h : mark :: cs <:+ text)
    (hfound : (before text cs).consumeIf mark = some (found, c')) :
    (before text (mark :: cs)).readQuoted mark body =
      if found then c'.readQuoted mark (body ++ [mark])
      else some (.ok (.text (String.ofList body)), c') := by
  conv_lhs => unfold readQuoted
  rw [dif_neg (by simp [atEnd_cons h]), current_before h, advance_before h]
  simp only [reduceIte]
  split <;> rename_i heq <;> cases hfound.symm.trans heq <;> rfl

end

theorem readQuoted_before {mark : Char} (h : rest <:+ text) (body : List Char) :
    (before text rest).readQuoted mark body = some (match takeQuoted mark rest with
      | some (inner, behind) => (.ok (.text (String.ofList (body ++ inner))), before text behind)
      | none => (.error .unterminatedText, before text [])) := by
  fun_induction takeQuoted mark rest generalizing body with
  | case1 => exact readQuoted_nil
  | case2 =>
    rw [readQuoted_mark h (consumeIf_nil mark)]
    simp
  | case3 ds ih =>
    have hds := suffix_of_cons h
    have hfound := consumeIf_cons hds mark
    rw [if_pos rfl] at hfound
    rw [readQuoted_mark h hfound, if_pos rfl, ih (suffix_of_cons hds)]
    cases takeQuoted mark ds <;> simp
  | case4 d ds hd =>
    have hfound := consumeIf_cons (suffix_of_cons h) mark
    rw [if_neg hd] at hfound
    rw [readQuoted_mark h hfound]
    simp
  | case5 c ds hc ih =>
    rw [readQuoted_cons h hc, ih (suffix_of_cons h)]
    cases takeQuoted mark ds <;> simp

theorem readOperator_before {c : Char} {cs : List Char} (h : c :: cs <:+ text)
    (hc : startsOperator c = true) :
    (before text (c :: cs)).readToken =
      some ((scanFrom c cs).1, before text (scanFrom c cs).2) := by
  have hcs := suffix_of_cons h
  obtain rfl | rfl | rfl | rfl := startsOperator_iff.1 hc
  all_goals
    simp only [readToken, current_before h, advance_before h, scanFrom, Char.reduceEq, reduceIte]
    cases cs with
    | nil => simp [consumeIf_nil]
    | cons d ds =>
      simp only [consumeIf_cons hcs]
      by_cases hd : d = '='
      · subst hd
        rfl
      by_cases hg : d = '>'
      · subst hg
        simp [consumeIf_cons hcs]
      · simp [hd, hg, consumeIf_cons hcs]

theorem readToken_before {c : Char} {cs : List Char} (h : c :: cs <:+ text) :
    (before text (c :: cs)).readToken =
      some ((scanFrom c cs).1, before text (scanFrom c cs).2) := by
  have hcs := suffix_of_cons h
  by_cases hc : startsOperator c = true
  · exact readOperator_before h hc
  have hne : c ≠ '=' ∧ c ≠ '!' ∧ c ≠ '<' ∧ c ≠ '>' := by
    simpa only [startsOperator_iff, not_or] using hc
  have hpeek : cs.head?.any Char.isDigit = startsNumber cs := by cases cs <;> rfl
  rw [readToken, current_before h, scanFrom_of_not_startsOperator hc]
  dsimp only
  rw [if_neg hne.1, if_neg hne.2.1, if_neg hne.2.2.1, if_neg hne.2.2.2, peek_before h, hpeek,
    advance_before h]
  split
  · rename_i hminus
    exact readNumber_before h (.inl hminus.1)
  split
  · exact readWord_before h
  split
  · rename_i hdigit
    exact readNumber_before h (.inr hdigit)
  split
  · rw [readQuoted_before hcs, scanQuoted]
    cases takeQuoted c cs <;> rfl
  · rfl

theorem scan_before (h : rest <:+ text) :
    (before text rest).scan = some ((Token.scan rest).1, before text (Token.scan rest).2) := by
  rw [scan, skipBlanks_before h, Token.scan]
  have hskip := (Text.skipBlanks_suffix rest).trans h
  cases hcs : Text.skipBlanks rest with
  | nil => simp [atEnd_nil]
  | cons c cs =>
    rw [hcs] at hskip
    simp only [atEnd_cons hskip, readToken_before hskip]
    rfl

/-- Whatever the scans find, there is a character wherever they look for one. -/
theorem afterScans_before (h : rest <:+ text) (n : Nat) :
    ∃ rest', rest' <:+ rest ∧ afterScans n (before text rest) = some (before text rest') := by
  induction n with
  | zero => exact ⟨rest, List.suffix_rfl, rfl⟩
  | succ n ih =>
    obtain ⟨rest', hrest', hafter⟩ := ih
    refine ⟨(Token.scan rest').2, (scan_suffix rest').trans hrest', ?_⟩
    rw [afterScans, hafter]
    dsimp only
    rw [scan_before (hrest'.trans h)]
    rfl

theorem scan_afterScans_done (h : rest <:+ text) (hdone : ∀ b ∈ rest, Text.isBlank b = true)
    (n : Nat) :
    ∃ c, afterScans n (before text rest) = some c ∧ ∃ c', c.scan = some (.ok .done, c') := by
  obtain ⟨rest', hrest', hafter⟩ := afterScans_before h n
  refine ⟨before text rest', hafter, before text (Token.scan rest').2, ?_⟩
  rw [scan_before (hrest'.trans h), scan_eq_done_iff.2 fun b hb => hdone b (hrest'.mem hb)]

/-- The tokens that scan after scan finds from a cursor on, up to the end or a failure. -/
inductive Tokenizes : Cursor → Except Error (List Token) → Prop
  | error {c c' : Cursor} {e : Error} (h : c.scan = some (.error e, c')) : Tokenizes c (.error e)
  | done {c c' : Cursor} (h : c.scan = some (.ok .done, c')) : Tokenizes c (.ok [.done])
  | more {c c' : Cursor} {t : Token} {ts : Except Error (List Token)}
    (h : c.scan = some (.ok t, c')) (ht : t ≠ .done) (hts : Tokenizes c' ts) :
    Tokenizes c (ts.map (t :: ·))

theorem tokenizes_before (h : rest <:+ text) : Tokenizes (before text rest) (tokens rest) := by
  -- on what is left of the text, which every token but the last makes shorter
  induction hn : rest.length using Nat.strong_induction_on generalizing rest with
  | _ n ih =>
  have hcursor := scan_before h
  have hsuffix := scan_suffix rest
  rcases hscan : Token.scan rest with ⟨e | t, rest'⟩ <;> rw [hscan] at hcursor hsuffix
  · rw [tokens_of_error hscan]
    exact .error hcursor
  by_cases ht : t = .done
  · subst ht
    rw [tokens_of_done hscan]
    exact .done hcursor
  · rw [tokens_of_ok hscan ht]
    exact .more hcursor ht (ih rest'.length (hn ▸ scan_length hscan ht) (hsuffix.trans h) rfl)

/-- The cursor is in the text, and this is the text from there on. -/
structure StandsIn (text rest : List Char) (c : Cursor) : Prop where
  text_eq : c.text = text
  position_le : c.position ≤ text.length
  remainder_eq : c.remainder = some (String.ofList rest)
  suffix : rest <:+ text

theorem standsIn_before (h : rest <:+ text) : (before text rest).StandsIn text rest :=
  ⟨rfl, position_before, remainder_before h, h⟩

end Cursor

/-- What lies between two ends of a text is this token, with nothing but blanks before it. -/
structure Takes (t : Token) (rest rest' : List Char) : Prop where
  length_lt : rest'.length < rest.length
  exists_lexeme : ∃ blanks lexeme, rest = blanks ++ (lexeme ++ rest') ∧
    (∀ b ∈ blanks, Text.isBlank b = true) ∧ tokenize (String.ofList lexeme) = .ok [t, .done]

theorem takes_of_scan {t : Token} {rest rest' : List Char} (h : scan rest = (.ok t, rest'))
    (ht : t ≠ .done) : t.Takes rest rest' := by
  obtain ⟨blanks, lexeme, heq, hblanks, hlexeme⟩ := exists_isLexeme h ht
  refine ⟨scan_length h ht, blanks, lexeme, heq, hblanks, ?_⟩
  rw [tokenize, String.toList_ofList, tokens_of_scan hlexeme.scanned ht]

namespace Cursor

/-- After any number of scans, failed ones too, the cursor is in the text. The next scan takes a
token, or it fails, or only blanks are left, which stays so; and scanning on comes to an end. -/
theorem afterScans_progress (s : String) (n : Nat) :
    ∃ c rest outcome c' rest',
      afterScans n (ofText s) = some c ∧ c.StandsIn s.toList rest ∧
      c.scan = some (outcome, c') ∧ c'.StandsIn s.toList rest' ∧
      Token.scan rest = (outcome, rest') ∧
      (∀ t, outcome = .ok t → t ≠ .done → t.Takes rest rest') ∧
      (outcome = .ok .done ↔ ∀ b ∈ rest, Text.isBlank b = true) ∧
      (outcome = .ok .done → ∀ m, ∃ d, afterScans m c' = some d ∧
        ∃ d', d.scan = some (.ok .done, d')) ∧
      Tokenizes c (tokens rest) := by
  obtain ⟨rest, hrest, hafter⟩ := afterScans_before (List.suffix_refl s.toList) n
  have hnext : (Token.scan rest).2 <:+ s.toList := (scan_suffix rest).trans hrest
  refine ⟨before s.toList rest, rest, (Token.scan rest).1, before s.toList (Token.scan rest).2,
    (Token.scan rest).2, ofText_eq s ▸ hafter, standsIn_before hrest, scan_before hrest,
    standsIn_before hnext, rfl, fun t ht hmore => ?_, scan_eq_done_iff, fun hdone m => ?_,
    tokenizes_before hrest⟩
  · exact takes_of_scan (Prod.ext ht rfl) hmore
  · have hblanks := scan_eq_done_iff.1 hdone
    exact scan_afterScans_done hnext (fun b hb => hblanks b ((scan_suffix rest).mem hb)) m

end Cursor
end Tabular.Token
