import Tabular.Proofs.Text
import Tabular.Proofs.Written

/-!
A comparison in place of a value. The value of a predicate is trimmed and read as tokens once more,
up to its end. It is refused for starting with a comparison only if nothing behind it fails to be a
token, since a value that cannot be read so is plain text. That the value is trimmed makes no
difference: blanks at the end of a text belong to no token.
-/
namespace Tabular

namespace Text

theorem ne_of_isBlank {c d : Char} (hc : isBlank c = true) (hd : isBlank d = false) : c ≠ d := by
  rintro rfl
  rw [hc] at hd
  cases hd

theorem skipBlanks_eq_trimChars_append (cs : List Char) :
    ∃ blanks, (∀ c ∈ blanks, isBlank c = true) ∧ skipBlanks cs = trimChars cs ++ blanks := by
  refine ⟨(skipBlanks cs).rtakeWhile isBlank, fun c hc => List.mem_rtakeWhile_imp hc, ?_⟩
  have htrim : trimChars cs = (skipBlanks cs).rdropWhile isBlank := rfl
  rw [htrim, List.rdropWhile, List.rtakeWhile, ← List.reverse_append,
    List.takeWhile_append_dropWhile, List.reverse_reverse]

theorem isBlank_of_skipBlanks {cs rest : List Char} {c : Char} (h : skipBlanks cs = c :: rest) :
    isBlank c = false := by
  have hhead := List.head?_dropWhile_not isBlank cs
  rw [← skipBlanks, h] at hhead
  simpa using hhead

theorem trimChars_of_skipBlanks {cs rest : List Char} {c : Char} (h : skipBlanks cs = c :: rest) :
    ∃ more, trimChars cs = c :: more := by
  obtain ⟨blanks, hblanks, heq⟩ := skipBlanks_eq_trimChars_append cs
  have hstart := isBlank_of_skipBlanks h
  rw [h] at heq
  cases htrim : trimChars cs with
  | cons first more =>
    rw [htrim] at heq
    exact ⟨more, by rw [(List.cons.inj heq).1]⟩
  | nil =>
    rw [htrim, List.nil_append] at heq
    exact absurd rfl (ne_of_isBlank (hblanks c (heq ▸ List.mem_cons_self)) hstart)

end Text

namespace Token

/-- The second scan finds what the first one finds, and leaves more text behind it. A failure is
the same, wherever it leaves the text. -/
def Continues (behind : List Char) (s s' : Scan) : Prop :=
  match s with
  | (.ok t, rest) => s' = (.ok t, rest ++ behind)
  | (.error e, _) => s'.1 = .error e

theorem isDigit_of_isBlank {c : Char} (h : Text.isBlank c = true) : c.isDigit = false := by
  refine eq_false_of_ne_true fun hc => ?_
  exact absurd rfl (Text.ne_of_isBlank h (Text.isBlank_of_isDigit hc))

theorem isBlank_of_isMark {c : Char} (h : c = '\'' ∨ c = '"') : Text.isBlank c = false := by
  rcases h with rfl | rfl <;> decide

theorem isNumberChar_of_isBlank {c : Char} (h : Text.isBlank c = true) (previous : Char) :
    isNumberChar previous c = false := by
  have hne : ∀ d, Text.isBlank d = false → c ≠ d := fun d => Text.ne_of_isBlank h
  simp [isNumberChar, isExponentMark, isDigit_of_isBlank h, hne '.' (by decide),
    hne 'e' (by decide), hne 'E' (by decide), hne '-' (by decide), hne '+' (by decide)]

def startsOperator (c : Char) : Bool := c = '=' || c = '!' || c = '<' || c = '>'

theorem startsOperator_iff {c : Char} :
    startsOperator c = true ↔ c = '=' ∨ c = '!' ∨ c = '<' ∨ c = '>' := by
  simp [startsOperator, or_assoc]

theorem scanFrom_of_not_startsOperator {c : Char} (h : ¬ startsOperator c = true)
    (cs : List Char) :
    scanFrom c cs =
      if c = '-' ∧ startsNumber cs then scanNumber c cs
      else if Text.isLetter c ∨ c = '_' then scanWord (c :: cs)
      else if c.isDigit then scanNumber c cs
      else if c = '\'' ∨ c = '"' then scanQuoted c cs
      else (.error (.unsupportedCharacter c), c :: cs) := by
  have hne : c ≠ '=' ∧ c ≠ '!' ∧ c ≠ '<' ∧ c ≠ '>' := by
    simpa only [startsOperator_iff, not_or] using h
  unfold scanFrom
  rw [if_neg hne.1, if_neg hne.2.1, if_neg hne.2.2.1, if_neg hne.2.2.2]

theorem tokens_congr {cs ds : List Char} (h : scan cs = scan ds) : tokens cs = tokens ds := by
  rcases hs : scan ds with ⟨e | t, rest⟩ <;> rw [hs] at h
  · rw [tokens_of_error h, tokens_of_error hs]
  by_cases ht : t = .done
  · subst ht
    rw [tokens_of_done h, tokens_of_done hs]
  · rw [tokens_of_ok h ht, tokens_of_ok hs ht]

theorem scan_skipBlanks (cs : List Char) : scan (Text.skipBlanks cs) = scan cs := by
  have hskip : Text.skipBlanks (Text.skipBlanks cs) = Text.skipBlanks cs :=
    List.dropWhile_idempotent Text.isBlank cs
  rw [scan, scan, hskip]

section

variable {behind : List Char} (h : ∀ b ∈ behind.head?, Text.isBlank b = true)

include h

theorem takeNumber_append_of_isBlank (previous : Char) (cs : List Char) :
    takeNumber previous (cs ++ behind) =
      ((takeNumber previous cs).1, (takeNumber previous cs).2 ++ behind) := by
  induction cs generalizing previous with
  | nil =>
    cases behind with
    | nil => rfl
    | cons b bs => simp [takeNumber, isNumberChar_of_isBlank (h b rfl)]
  | cons d ds ih =>
    by_cases hd : isNumberChar previous d = true <;> simp [takeNumber, hd, ih]

theorem startsNumber_append_of_isBlank (cs : List Char) :
    startsNumber (cs ++ behind) = startsNumber cs := by
  cases cs with
  | cons d ds => rfl
  | nil =>
    cases behind with
    | nil => rfl
    | cons b bs => exact isDigit_of_isBlank (h b rfl)

theorem continues_scanWord (cs : List Char) :
    Continues behind (scanWord cs) (scanWord (cs ++ behind)) := by
  have hstop : behind.takeWhile isWordChar = [] ∧ behind.dropWhile isWordChar = behind := by
    cases behind with
    | nil => exact ⟨rfl, rfl⟩
    | cons b bs => simp [isWordChar_of_isBlank (h b rfl)]
  have htake : (cs ++ behind).takeWhile isWordChar = cs.takeWhile isWordChar := by
    rw [List.takeWhile_append, hstop.1, List.append_nil]
    split
    · rename_i hall
      exact ((List.takeWhile_prefix _).eq_of_length hall).symm
    · rfl
  have hdrop : (cs ++ behind).dropWhile isWordChar = cs.dropWhile isWordChar ++ behind := by
    rw [List.dropWhile_append, hstop.2]
    split
    · rename_i hnil
      rw [List.isEmpty_iff.1 hnil, List.nil_append]
    · rfl
  rw [scanWord, scanWord, htake, hdrop]
  rfl

theorem continues_scanNumber (c : Char) (cs : List Char) :
    Continues behind (scanNumber c cs) (scanNumber c (cs ++ behind)) := by
  simp only [Continues, scanNumber, takeNumber_append_of_isBlank h]
  cases ofNumber (c :: (takeNumber c cs).1) <;> rfl

theorem continues_operator (hc : startsOperator c = true) (cs : List Char) :
    Continues behind (scanFrom c cs) (scanFrom c (cs ++ behind)) := by
  obtain rfl | rfl | rfl | rfl := startsOperator_iff.1 hc
  all_goals
    cases cs with
    | nil =>
      cases behind with
      | nil => rfl
      | cons b bs =>
        have hb := h b rfl
        have hne : b ≠ '=' ∧ b ≠ '>' :=
          ⟨Text.ne_of_isBlank hb (by decide), Text.ne_of_isBlank hb (by decide)⟩
        simp [scanFrom, Continues, hne]
    | cons e es =>
      by_cases he : e = '='
      · subst he
        rfl
      by_cases hg : e = '>'
      · subst hg
        rfl
      · simp [scanFrom, Continues, he, hg]

theorem takeQuoted_append {mark : Char} (hmark : Text.isBlank mark = false) {cs : List Char}
    (hnone : takeQuoted mark cs = none → takeQuoted mark behind = none) :
    takeQuoted mark (cs ++ behind) =
      (takeQuoted mark cs).map fun (body, rest) => (body, rest ++ behind) := by
  fun_induction takeQuoted mark cs with
  | case1 => exact hnone rfl
  | case2 =>
    cases behind with
    | nil => simp [takeQuoted]
    | cons b bs => simp [takeQuoted, Text.ne_of_isBlank (h b rfl) hmark]
  | case3 ds ih =>
    simp [takeQuoted, ih fun hds => hnone (by rw [hds]; rfl), Function.comp_def]
  | case4 d ds hd => simp [takeQuoted, hd]
  | case5 d ds hd ih =>
    have hstep : ∀ es, takeQuoted mark (d :: es) =
        (takeQuoted mark es).map fun (body, rest) => (d :: body, rest) := fun es => by
      conv_lhs => unfold takeQuoted
      rw [if_neg hd]
    rw [List.cons_append, hstep, ih fun hds => hnone (by rw [hds]; rfl), Option.map_map,
      Option.map_map]
    rfl

theorem continues_scanQuoted {mark : Char} (hmark : Text.isBlank mark = false) {cs : List Char}
    (hnone : takeQuoted mark cs = none → takeQuoted mark behind = none) :
    Continues behind (scanQuoted mark cs) (scanQuoted mark (cs ++ behind)) := by
  rw [scanQuoted, scanQuoted, takeQuoted_append h hmark hnone]
  cases takeQuoted mark cs <;> rfl

/-- Nothing that is read by looking one character ahead is a blank. A quoted text goes on over
blanks, so what comes behind one that is not closed must not close it. -/
theorem continues_scanFrom {c : Char} {cs : List Char}
    (hnone : c = '\'' ∨ c = '"' → takeQuoted c cs = none → takeQuoted c behind = none) :
    Continues behind (scanFrom c cs) (scanFrom c (cs ++ behind)) := by
  by_cases hc : startsOperator c = true
  · exact continues_operator h hc cs
  rw [scanFrom_of_not_startsOperator hc, scanFrom_of_not_startsOperator hc,
    startsNumber_append_of_isBlank h]
  split
  · exact continues_scanNumber h c cs
  split
  · exact continues_scanWord h (c :: cs)
  split
  · exact continues_scanNumber h c cs
  split
  · rename_i hmark
    exact continues_scanQuoted h (isBlank_of_isMark hmark) (hnone hmark)
  · rfl

theorem continues_scan_of {cs rest : List Char} {c : Char} (hcs : Text.skipBlanks cs = c :: rest)
    (hnone : c = '\'' ∨ c = '"' → takeQuoted c rest = none → takeQuoted c behind = none) :
    Continues behind (scan cs) (scan (cs ++ behind)) := by
  have hskip : Text.skipBlanks (cs ++ behind) = c :: (rest ++ behind) := by
    rw [Text.skipBlanks, List.dropWhile_append, ← Text.skipBlanks, hcs]
    rfl
  simp only [scan, hcs, hskip]
  exact continues_scanFrom h hnone

end

section

variable {blanks : List Char} (h : ∀ b ∈ blanks, Text.isBlank b = true)

include h

theorem takeQuoted_of_isBlank {mark : Char} (hmark : Text.isBlank mark = false) :
    takeQuoted mark blanks = none := by
  induction blanks with
  | nil => rfl
  | cons b bs ih =>
    obtain ⟨hb, hbs⟩ := List.forall_mem_cons.1 h
    unfold takeQuoted
    rw [if_neg (Text.ne_of_isBlank hb hmark), ih hbs]
    rfl

/-- Blanks at the end are not part of the last token, and make no further one. -/
theorem continues_scan {cs rest : List Char} {c : Char} (hcs : Text.skipBlanks cs = c :: rest) :
    Continues blanks (scan cs) (scan (cs ++ blanks)) :=
  continues_scan_of (fun b hb => h b (List.mem_of_mem_head? hb)) hcs fun hmark _ =>
    takeQuoted_of_isBlank h (isBlank_of_isMark hmark)

theorem tokens_append_of_isBlank (cs : List Char) : tokens (cs ++ blanks) = tokens cs := by
  induction hn : cs.length using Nat.strong_induction_on generalizing cs with
  | _ n ih =>
  cases hcs : Text.skipBlanks cs with
  | nil =>
    refine tokens_congr ?_
    have hall : ∀ b ∈ cs ++ blanks, Text.isBlank b = true :=
      List.forall_mem_append.2 ⟨List.dropWhile_eq_nil_iff.1 hcs, h⟩
    have hskip : Text.skipBlanks (cs ++ blanks) = [] := List.dropWhile_eq_nil_iff.2 hall
    rw [scan, scan, hskip, hcs]
  | cons c after =>
    have hcontinues := continues_scan h hcs
    rcases hscan : scan cs with ⟨e | t, rest⟩ <;> rw [hscan] at hcontinues
    · rw [tokens_of_error hscan, tokens_of_error (Prod.ext hcontinues rfl)]
    by_cases ht : t = .done
    · subst ht
      rw [tokens_of_done hscan, tokens_of_done hcontinues]
    · rw [tokens_of_ok hscan ht, tokens_of_ok hcontinues ht,
        ih rest.length (hn ▸ scan_length hscan ht) rest rfl]

end

theorem tokens_trimChars (cs : List Char) : tokens (Text.trimChars cs) = tokens cs := by
  obtain ⟨blanks, hblanks, hskip⟩ := Text.skipBlanks_eq_trimChars_append cs
  rw [← tokens_congr (scan_skipBlanks cs), hskip, tokens_append_of_isBlank hblanks]

theorem exists_literal_of_ofNumber {cs : List Char} {t : Token} (h : ofNumber cs = .ok t) :
    ∃ v, FieldPredicate.literal t = .ok v := by
  unfold ofNumber at h
  dsimp only at h
  split at h
  · split at h <;> cases h
    exact ⟨_, rfl⟩
  split at h
  · cases h
    exact ⟨_, rfl⟩
  split at h <;> cases h

theorem exists_literal_ofWord (s : String) : ∃ v, FieldPredicate.literal (ofWord s) = .ok v := by
  unfold ofWord
  split
  · exact ⟨_, rfl⟩
  split
  · exact ⟨_, rfl⟩
  split <;> exact ⟨_, rfl⟩

theorem exists_literal_of_scanFrom {c : Char} {cs rest : List Char} {t : Token}
    (hc : ¬ startsOperator c = true) (h : scanFrom c cs = (.ok t, rest)) :
    ∃ v, FieldPredicate.literal t = .ok v := by
  have hnumber : scanNumber c cs = (.ok t, rest) → ∃ v, FieldPredicate.literal t = .ok v :=
    fun heq => exists_literal_of_ofNumber (congrArg Prod.fst heq)
  rw [scanFrom_of_not_startsOperator hc] at h
  split at h
  · exact hnumber h
  split at h
  · cases h
    exact exists_literal_ofWord _
  split at h
  · exact hnumber h
  split at h
  · unfold scanQuoted at h
    split at h <;> cases h
    exact ⟨_, rfl⟩
  · cases h

theorem startsOperator_of_scan {cs tail : List Char} {d : Comparison}
    (h : scan cs = (.ok (.comparison d), tail)) :
    ∃ c rest, Text.skipBlanks cs = c :: rest ∧ startsOperator c = true := by
  unfold scan at h
  split at h
  · cases h
  rename_i c rest hcs
  refine ⟨c, rest, hcs, by_contra fun hc => ?_⟩
  obtain ⟨v, hv⟩ := exists_literal_of_scanFrom hc h
  cases hv

end Token

namespace FieldPredicate

open Token (startsOperator)

theorem unquote_of_startsOperator {c : Char} (h : startsOperator c = true) (cs : List Char) :
    unquote (c :: cs) = c :: cs := by
  have hmarks : c ≠ '\'' ∧ c ≠ '"' := by constructor <;> rintro rfl <;> cases h
  simp [unquote, between?, hmarks]

/-- A value that starts with a comparison is refused, unless some text behind it is no token: then
the whole value is taken as plain text. -/
theorem readValue_of_comparison {value tail : List Char} {d : Comparison}
    (h : Token.scan value = (.ok (.comparison d), tail)) :
    (∀ ts, Token.tokens tail = .ok ts →
      readValue value = .error (.expectedValue (.comparison d))) ∧
    ∀ e, Token.tokens tail = .error e →
      readValue value = .ok (.text (String.ofList (Text.trimChars value))) := by
  obtain ⟨c, rest, hskip, hc⟩ := Token.startsOperator_of_scan h
  obtain ⟨cs, htrim⟩ := Text.trimChars_of_skipBlanks hskip
  have htokens : Token.tokens (c :: cs) = (Token.tokens tail).map (.comparison d :: ·) := by
    rw [← htrim, Token.tokens_trimChars, Token.tokens_of_ok h nofun]
  constructor
  · intro ts hts
    simp only [readValue, htrim, htokens, hts]
    -- a comparison is no literal, and with more tokens behind it the value is no plain text either
    cases ts with
    | nil => rfl
    | cons t ts => cases ts <;> rfl
  · intro e he
    simp only [readValue, htrim, htokens, he, unquote_of_startsOperator hc]
    rfl

section

variable {s field : String} {c d : Comparison} {rest value tail : List Char}
  (hfield : Token.scan s.toList = (.ok (.word field), rest))
  (hfirst : Token.scan rest = (.ok (.comparison c), value))

include hfield hfirst

theorem parse_of_scan :
    parse s = (readValue value).map fun v => ⟨field, some (c, v)⟩ := by
  simp only [parse, ofChars, hfield, hfirst]

/-- A field and two comparisons one after the other are refused exactly if the rest of the text
consists of tokens. If it does not, the second comparison starts the text that the field is
compared with. -/
theorem parse_refuses_iff_tokenize (hsecond : Token.scan value = (.ok (.comparison d), tail)) :
    ((∃ e, parse s = .error e ∧ e.kind = .syntaxError) ↔ ∃ ts, Token.tokenize s = .ok ts) ∧
    (∀ ts, Token.tokenize s = .ok ts → parse s = .error (.expectedValue (.comparison d))) ∧
    ∀ e, Token.tokenize s = .error e →
      parse s = .ok ⟨field, some (c, .text (String.ofList (Text.trimChars value)))⟩ := by
  have htokens : Token.tokenize s =
      (Token.tokens tail).map fun ts => .word field :: .comparison c :: .comparison d :: ts := by
    rw [Token.tokenize, Token.tokens_of_ok hfield nofun, Token.tokens_of_ok hfirst nofun,
      Token.tokens_of_ok hsecond nofun]
    cases Token.tokens tail <;> rfl
  obtain ⟨hrefused, htaken⟩ := readValue_of_comparison hsecond
  rw [htokens, parse_of_scan hfield hfirst]
  cases htail : Token.tokens tail with
  | ok ts =>
    rw [hrefused ts htail]
    exact ⟨⟨fun _ => ⟨_, rfl⟩, fun _ => ⟨_, rfl, rfl⟩⟩, fun _ _ => rfl, nofun⟩
  | error e =>
    rw [htaken e htail]
    exact ⟨⟨nofun, nofun⟩, nofun, fun _ _ => rfl⟩

end

/-- A comparison in place of a value. -/
theorem parse_refuses_age :
    Token.scan "age > >".toList = (.ok (.word "age"), " > >".toList) ∧
    Token.scan " > >".toList = (.ok (.comparison .gt), " >".toList) ∧
    Token.scan " >".toList = (.ok (.comparison .gt), []) ∧
    (∃ ts, Token.tokenize "age > >" = .ok ts) ∧
    parse "age > >" = .error (.expectedValue (.comparison .gt)) := by
  have hfield : Token.scan "age > >".toList = (.ok (.word "age"), " > >".toList) := by decide
  have hfirst : Token.scan " > >".toList = (.ok (.comparison .gt), " >".toList) := by decide
  have hsecond : Token.scan " >".toList = (.ok (.comparison .gt), []) := by decide
  have hdone : Token.scan [] = (.ok .done, []) := by decide
  have htokens : ∃ ts, Token.tokenize "age > >" = .ok ts := by
    rw [Token.tokenize, Token.tokens_of_ok hfield nofun, Token.tokens_of_ok hfirst nofun,
      Token.tokens_of_ok hsecond nofun, Token.tokens_of_done hdone]
    exact ⟨_, rfl⟩
  obtain ⟨ts, hts⟩ := htokens
  exact ⟨hfield, hfirst, hsecond, ⟨ts, hts⟩,
    (parse_refuses_iff_tokenize hfield hfirst hsecond).2.1 ts hts⟩

/-- A character that starts no token makes the comparison before it a part of the text. -/
theorem not_parse_refuses_comparison :
    ¬ ∀ (s field : String) (c d : Comparison) (rest value tail : List Char),
      Token.scan s.toList = (.ok (.word field), rest) →
      Token.scan rest = (.ok (.comparison c), value) →
      Token.scan value = (.ok (.comparison d), tail) →
      ∃ e, parse s = .error e ∧ e.kind = .syntaxError := by
  intro h
  have hfield : Token.scan "a = <@".toList = (.ok (.word "a"), " = <@".toList) := by decide
  have hfirst : Token.scan " = <@".toList = (.ok (.comparison .eq), " <@".toList) := by decide
  have hsecond : Token.scan " <@".toList = (.ok (.comparison .lt), ['@']) := by decide
  have hrest : Token.scan ['@'] = (.error (.unsupportedCharacter '@'), ['@']) := by decide
  obtain ⟨e, he, -⟩ := h _ _ _ _ _ _ _ hfield hfirst hsecond
  rw [parse_of_scan hfield hfirst,
    (readValue_of_comparison hsecond).2 _ (Token.tokens_of_error hrest)] at he
  cases he

end FieldPredicate
end Tabular
