import Tabular.Proofs.Identifier
import Tabular.Decimal.Layout

/-!
Predicates that are written as text and read back. NULL and the truth values are written as words,
integers with their digits, and text between marks that are doubled inside. The value of a
predicate is cut out of its text, trimmed and scanned once more, so blanks around the parts, and
blanks, marks or operators inside a text, must not move where it begins and ends.
-/
namespace Tabular

namespace Text

variable {c : Char}

theorem numericRanges_apart_blankRanges : numericRanges.apart blankRanges = true := by
  decide +kernel

theorem toNat_of_isDigit (h : c.isDigit = true) : 48 ≤ c.toNat ∧ c.toNat ≤ 57 :=
  (Bool.and_eq_true_iff.1 h).imp of_decide_eq_true of_decide_eq_true

theorem isBlank_of_isDigit (h : c.isDigit = true) : isBlank c = false := by
  have hbounds := toNat_of_isDigit h
  simp only [isBlank, blankRanges, Ranges.has, List.any_cons, List.any_nil]
  grind

theorem isBlank_of_isLetterOrDigit (h : isLetterOrDigit c = true) : isBlank c = false := by
  unfold isLetterOrDigit at h
  split at h
  · rcases Bool.or_eq_true_iff.1 h with h | h
    · exact isBlank_of_isAlpha h
    · exact isBlank_of_isDigit h
  · rcases Bool.or_eq_true_iff.1 h with h | h
    · exact Ranges.has_eq_false_of_apart apart_blankRanges h
    · exact Ranges.has_eq_false_of_apart numericRanges_apart_blankRanges h

theorem isLetterOrDigit_of_isDigit (h : c.isDigit = true) : isLetterOrDigit c = true := by
  have hbounds := toNat_of_isDigit h
  rw [isLetterOrDigit, if_pos (by omega), Char.isAlphanum, h, Bool.or_true]

theorem isLetter_of_isDigit (h : c.isDigit = true) : isLetter c = false := by
  have hbounds := toNat_of_isDigit h
  rw [isLetter, if_pos (by omega)]
  refine eq_false_of_ne_true fun halpha => ?_
  have hletter := toNat_of_isAlpha halpha
  omega

theorem skipBlanks_append {blanks : List Char} (h : ∀ c ∈ blanks, isBlank c = true)
    (cs : List Char) : skipBlanks (blanks ++ cs) = skipBlanks cs :=
  List.dropWhile_append_of_pos h

theorem skipBlanks_of_head {cs : List Char} (h : ∀ c ∈ cs.head?, isBlank c = false) :
    skipBlanks cs = cs := by
  cases cs with
  | nil => rfl
  | cons c cs => simp [h c rfl]

theorem head_append {P : Char → Prop} {blanks cs : List Char} (hblanks : ∀ c ∈ blanks, P c)
    (hcs : ∀ c ∈ cs.head?, P c) : ∀ c ∈ (blanks ++ cs).head?, P c := by
  intro c hc
  rw [List.head?_append] at hc
  rcases Option.or_eq_some_iff.1 hc with hc | ⟨-, hc⟩
  · exact hblanks c (List.mem_of_mem_head? hc)
  · exact hcs c hc

/-- Trimming removes the blanks around a text, and nothing else if it starts and ends otherwise. -/
theorem trimChars_append {before cs behind : List Char} (hbefore : ∀ c ∈ before, isBlank c = true)
    (hbehind : ∀ c ∈ behind, isBlank c = true) {first last : Char}
    (hfirst : cs.head? = some first) (hlast : cs.getLast? = some last)
    (hblank : isBlank first = false ∧ isBlank last = false) :
    trimChars (before ++ (cs ++ behind)) = cs := by
  have hstart : skipBlanks (cs ++ behind) = cs ++ behind := by
    refine skipBlanks_of_head fun c hc => ?_
    rw [List.head?_append, hfirst] at hc
    cases hc
    exact hblank.1
  have hend : skipBlanks cs.reverse = cs.reverse := by
    refine skipBlanks_of_head fun c hc => ?_
    rw [List.head?_reverse, hlast] at hc
    cases hc
    exact hblank.2
  rw [trimChars, skipBlanks_append hbefore, hstart, List.reverse_append,
    skipBlanks_append (by simpa using hbehind), hend, List.reverse_reverse]

def doubled (mark : Char) (cs : List Char) : List Char :=
  cs.flatMap fun c => if c = mark then [mark, mark] else [c]

/-- A text between two marks. -/
def enclosed (mark : Char) (s : String) : String :=
  String.ofList (mark :: (doubled mark s.toList ++ [mark]))

end Text

namespace Decimal

theorem isDigit_of_mem_digits {n : Nat} {c : Char} (h : c ∈ digits n) : c.isDigit = true :=
  Nat.isDigit_of_mem_toDigits (by omega) (by omega) h

theorem digits_eq_cons (n : Nat) : ∃ d ds, digits n = d :: ds ∧ d.isDigit = true := by
  cases h : digits n with
  | nil => exact absurd h Nat.toDigits_ne_nil
  | cons d ds => exact ⟨d, ds, rfl, isDigit_of_mem_digits (h ▸ List.mem_cons_self)⟩

theorem readNat?_digits (n : Nat) : readNat? (digits n) = some n := by
  have hne : (digits n).isEmpty = false := by
    obtain ⟨d, ds, hds, -⟩ := digits_eq_cons n
    rw [hds]
    rfl
  have hall : (digits n).all Char.isDigit = true :=
    List.all_eq_true.2 fun c hc => isDigit_of_mem_digits hc
  rw [readNat?, hne, hall, digits, ofDigits_toDigits]
  rfl

theorem toList_intText (n : Int) :
    (intText n).toList = if n < 0 then '-' :: digits n.natAbs else digits n.natAbs := by
  unfold intText natText
  split <;> rw [String.toList_ofList]

theorem readInt?_intText (n : Int) : readInt? (intText n).toList = some n := by
  rw [toList_intText]
  split
  · have hread : readInt? ('-' :: digits n.natAbs) = some (-(n.natAbs : Int)) := by
      simp [readInt?, takeSign, readNat?_digits]
    rw [hread]
    congr 1
    omega
  · obtain ⟨d, ds, hds, hd⟩ := digits_eq_cons n.natAbs
    have hsign : takeSign (digits n.natAbs) = (false, digits n.natAbs) := by
      rw [hds]
      unfold takeSign
      split <;> simp_all
    have hread : readInt? (digits n.natAbs) = some (n.natAbs : Int) := by
      simp [readInt?, hsign, readNat?_digits]
    rw [hread]
    congr 1
    omega

end Decimal

def Comparison.spellings : Comparison → List String
  | .eq => ["=", "=="]
  | .ne => ["!=", "<>"]
  | .lt => ["<"]
  | .gt => [">"]
  | .le => ["<="]
  | .ge => [">="]

/-- The literals that a value can be written as. -/
inductive Raw.Written : Raw → String → Prop
  | null {w : String} (hw : Token.isWord w = true) (h : Text.spells w "NULL" = true) :
    Written .null w
  | bool {w : String} (b : Bool) (hw : Token.isWord w = true)
    (h : Text.spells w (if b then "TRUE" else "FALSE") = true) : Written (.bool b) w
  | int (n : Int64) : Written (.int n) (Decimal.intText n.toInt)
  | text (s : String) {mark : Char} (hmark : mark = '\'' ∨ mark = '"') :
    Written (.text s) (Text.enclosed mark s)

namespace Token

variable {c : Char}

theorem isBlank_of_isWordChar (h : isWordChar c = true) : Text.isBlank c = false := by
  simp only [isWordChar, Bool.or_eq_true, decide_eq_true_eq] at h
  rcases h with h | rfl
  · exact Text.isBlank_of_isLetterOrDigit h
  · decide

theorem isWordChar_of_isBlank (h : Text.isBlank c = true) : isWordChar c = false := by
  refine eq_false_of_ne_true fun hc => ?_
  rw [isBlank_of_isWordChar hc] at h
  cases h

theorem isWordChar_of_isDigit (h : c.isDigit = true) : isWordChar c = true := by
  rw [isWordChar, Text.isLetterOrDigit_of_isDigit h, Bool.true_or]

/-- Neither is the character trimmed away, nor does it make a comparison before it longer. -/
def Stands (c : Char) : Prop := Text.isBlank c = false ∧ c ≠ '=' ∧ c ≠ '>'

instance (c : Char) : Decidable (Stands c) := inferInstanceAs (Decidable (_ ∧ _))

theorem stands_of_isWordChar (h : isWordChar c = true) : Stands c := by
  refine ⟨isBlank_of_isWordChar h, ?_, ?_⟩ <;> rintro rfl <;> cases h

def StandsAtEnds (cs : List Char) : Prop :=
  ∃ first last, cs.head? = some first ∧ cs.getLast? = some last ∧ Stands first ∧ Stands last

theorem standsAtEnds_of_forall {cs : List Char} (hne : cs ≠ []) (h : ∀ c ∈ cs, Stands c) :
    StandsAtEnds cs :=
  ⟨cs.head hne, cs.getLast hne, List.head?_eq_some_head hne, List.getLast?_eq_some_getLast hne,
    h _ (List.head_mem hne), h _ (List.getLast_mem hne)⟩

theorem scan_append_of_isBlank {blanks : List Char} (h : ∀ c ∈ blanks, Text.isBlank c = true)
    (cs : List Char) : scan (blanks ++ cs) = scan cs := by
  rw [scan, Text.skipBlanks_append h, scan]

/-- Any spelling of a comparison is read, if what comes next does not make it longer. -/
theorem scan_spelling_append {c : Comparison} {symbol : String} (h : symbol ∈ c.spellings)
    {rest : List Char} (hrest : ∀ d ∈ rest.head?, d ≠ '=' ∧ d ≠ '>') :
    scan (symbol.toList ++ rest) = (.ok (.comparison c), rest) := by
  have heq : ∀ ds, rest ≠ '=' :: ds := fun ds hds => (hrest '=' (by rw [hds]; rfl)).1 rfl
  have hgt : ∀ ds, rest ≠ '>' :: ds := fun ds hds => (hrest '>' (by rw [hds]; rfl)).2 rfl
  have hlone : scanFrom '=' rest = (.ok (.comparison .eq), rest) ∧
      scanFrom '<' rest = (.ok (.comparison .lt), rest) ∧
      scanFrom '>' rest = (.ok (.comparison .gt), rest) := by
    simp only [scanFrom]
    refine ⟨?_, ?_, ?_⟩ <;> split <;> simp_all
  cases c with
  | eq =>
    obtain rfl | rfl : symbol = "=" ∨ symbol = "==" := by simpa [Comparison.spellings] using h
    · exact hlone.1
    · rfl
  | ne =>
    obtain rfl | rfl : symbol = "!=" ∨ symbol = "<>" := by simpa [Comparison.spellings] using h
    · rfl
    · rfl
  | lt =>
    obtain rfl := List.mem_singleton.1 h
    exact hlone.2.1
  | gt =>
    obtain rfl := List.mem_singleton.1 h
    exact hlone.2.2
  | le =>
    obtain rfl := List.mem_singleton.1 h
    rfl
  | ge =>
    obtain rfl := List.mem_singleton.1 h
    rfl

theorem isWordChar_of_spelling {c : Comparison} {symbol : String} (h : symbol ∈ c.spellings)
    (rest : List Char) : ∀ d ∈ (symbol.toList ++ rest).head?, isWordChar d = false := by
  have hsymbols : ∀ symbol ∈ c.spellings, symbol.toList.head?.map isWordChar = some false := by
    cases c <;> decide
  obtain ⟨first, hfirst, hword⟩ := Option.map_eq_some_iff.1 (hsymbols symbol h)
  rw [List.head?_append, hfirst]
  rintro _ ⟨⟩
  exact hword

theorem takeNumber_of_forall_isDigit (previous : Char) {ds : List Char}
    (h : ∀ d ∈ ds, d.isDigit = true) : takeNumber previous ds = (ds, []) := by
  induction ds generalizing previous with
  | nil => rfl
  | cons d ds ih =>
    obtain ⟨hd, hds⟩ := List.forall_mem_cons.1 h
    simp [takeNumber, isNumberChar, hd, ih d hds]

theorem scanNumber_of_forall_isDigit (c : Char) {ds : List Char}
    (h : ∀ d ∈ ds, d.isDigit = true) : scanNumber c ds = (ofNumber (c :: ds), []) := by
  rw [scanNumber, takeNumber_of_forall_isDigit c h]

theorem scanFrom_of_isDigit (h : c.isDigit = true) (cs : List Char) :
    scanFrom c cs = scanNumber c cs := by
  have hne : ∀ d, d.isDigit = false → c ≠ d := by
    rintro d hd rfl
    rw [h] at hd
    cases hd
  have hstart : ¬ (Text.isLetter c = true ∨ c = '_') := by
    rw [Text.isLetter_of_isDigit h]
    simpa using hne '_' (by decide)
  unfold scanFrom
  rw [if_neg (hne '=' (by decide)), if_neg (hne '!' (by decide)), if_neg (hne '<' (by decide)),
    if_neg (hne '>' (by decide)), if_neg (not_and_of_not_left _ (hne '-' (by decide))),
    if_neg hstart, if_pos h]

theorem ofNumber_intText (n : Int64) :
    ofNumber (Decimal.intText n.toInt).toList = .ok (.integer n) := by
  have hplain : (Decimal.intText n.toInt).toList.any (fun c => c = '.' || isExponentMark c) =
      false := by
    have hdigits : ∀ c ∈ Decimal.digits n.toInt.natAbs, c ≠ '.' ∧ c ≠ 'e' ∧ c ≠ 'E' := by
      intro c hc
      have hdigit := Decimal.isDigit_of_mem_digits hc
      refine ⟨?_, ?_, ?_⟩ <;> rintro rfl <;> cases hdigit
    rw [Decimal.toList_intText]
    split <;> simpa [isExponentMark] using hdigits
  rw [ofNumber, hplain, Decimal.readInt?_intText]
  simp

theorem scan_intText (n : Int64) :
    scan (Decimal.intText n.toInt).toList = (.ok (.integer n), []) := by
  have hnumber := ofNumber_intText n
  obtain ⟨d, ds, hds, hd⟩ := Decimal.digits_eq_cons n.toInt.natAbs
  have hall : ∀ e ∈ d :: ds, e.isDigit = true := hds ▸ fun e => Decimal.isDigit_of_mem_digits
  rw [Decimal.toList_intText, hds] at hnumber ⊢
  by_cases hn : n.toInt < 0
  · rw [if_pos hn] at hnumber ⊢
    have hminus : scan ('-' :: d :: ds) = scanNumber '-' (d :: ds) := by
      have hskip : Text.skipBlanks ('-' :: d :: ds) = '-' :: d :: ds :=
        Text.skipBlanks_of_head (by simp; decide)
      simp [scan, hskip, scanFrom, startsNumber, hd]
    rw [hminus, scanNumber_of_forall_isDigit '-' hall, hnumber]
  · rw [if_neg hn] at hnumber ⊢
    have hdigit : scan (d :: ds) = scanNumber d ds := by
      rw [scan, Text.skipBlanks_of_head (by simpa using Text.isBlank_of_isDigit hd)]
      exact scanFrom_of_isDigit hd ds
    rw [hdigit, scanNumber_of_forall_isDigit d (List.forall_mem_cons.1 hall).2, hnumber]

theorem takeQuoted_doubled (mark : Char) (cs : List Char) :
    takeQuoted mark (Text.doubled mark cs ++ [mark]) = some (cs, []) := by
  induction cs with
  | nil => simp [Text.doubled, takeQuoted]
  | cons c cs ih =>
    rw [Text.doubled, List.flatMap_cons, ← Text.doubled]
    by_cases h : c = mark
    · simp [takeQuoted, h, ih]
    · rw [if_neg h, List.singleton_append, List.cons_append]
      unfold takeQuoted
      rw [if_neg h, ih]
      rfl

theorem scan_enclosed {mark : Char} (hmark : mark = '\'' ∨ mark = '"') (s : String) :
    scan (Text.enclosed mark s).toList = (.ok (.text s), []) := by
  have hquoted : scanQuoted mark (Text.doubled mark s.toList ++ [mark]) = (.ok (.text s), []) := by
    rw [scanQuoted, takeQuoted_doubled]
    simp
  rw [Text.enclosed, String.toList_ofList, ← hquoted]
  rcases hmark with rfl | rfl <;> rfl

theorem ofWord_null {w : String} (h : Text.spells w "NULL" = true) : ofWord w = .null := if_pos h

theorem ofWord_bool {b : Bool} {w : String}
    (h : Text.spells w (if b then "TRUE" else "FALSE") = true) : ofWord w = .bool b := by
  cases b <;> simp_all [ofWord, Text.spells]

theorem tokens_of_error {cs rest : List Char} {e : Error} (h : scan cs = (.error e, rest)) :
    tokens cs = .error e := by
  unfold tokens
  split <;> rename_i heq <;> cases h.symm.trans heq
  rfl

theorem tokens_of_done {cs rest : List Char} (h : scan cs = (.ok .done, rest)) :
    tokens cs = .ok [.done] := by
  unfold tokens
  split <;> rename_i heq <;> cases h.symm.trans heq
  rfl

theorem tokens_of_ok {cs rest : List Char} {t : Token} (h : scan cs = (.ok t, rest))
    (ht : t ≠ .done) : tokens cs = (tokens rest).map (t :: ·) := by
  conv => lhs; unfold tokens
  split <;> rename_i heq <;> cases h.symm.trans heq
  exact dif_neg ht

theorem tokens_of_scan {cs : List Char} {t : Token} (h : scan cs = (.ok t, []))
    (ht : t ≠ .done) : tokens cs = .ok [t, .done] := by
  rw [tokens_of_ok h ht, tokens_of_done rfl]
  rfl

end Token

namespace Raw.Written

variable {v : Raw} {w : String}

theorem exists_scan (h : v.Written w) :
    ∃ t, Token.scan w.toList = (.ok t, []) ∧ t ≠ .done ∧ FieldPredicate.literal t = .ok v := by
  cases h with
  | null hw h => exact ⟨.null, Token.ofWord_null h ▸ Token.scan_of_isWord hw, nofun, rfl⟩
  | bool b hw h => exact ⟨.bool b, Token.ofWord_bool h ▸ Token.scan_of_isWord hw, nofun, rfl⟩
  | int n => exact ⟨.integer n, Token.scan_intText n, nofun, rfl⟩
  | text s hmark => exact ⟨.text s, Token.scan_enclosed hmark s, nofun, rfl⟩

theorem standsAtEnds (h : v.Written w) : Token.StandsAtEnds w.toList := by
  have hword : ∀ {w}, Token.isWord w = true → Token.StandsAtEnds w.toList := fun hw => by
    obtain ⟨c, cs, hcs, -, hchars⟩ := Token.isWord_iff.1 hw
    exact Token.standsAtEnds_of_forall (by simp [hcs]) fun d hd =>
      Token.stands_of_isWordChar (hchars d hd)
  cases h with
  | null hw _ => exact hword hw
  | bool _ hw _ => exact hword hw
  | int n =>
    have hdigits : ∀ c ∈ Decimal.digits n.toInt.natAbs, Token.Stands c := fun c hc =>
      Token.stands_of_isWordChar (Token.isWordChar_of_isDigit (Decimal.isDigit_of_mem_digits hc))
    rw [Decimal.toList_intText]
    split
    · exact Token.standsAtEnds_of_forall (List.cons_ne_nil _ _)
        (List.forall_mem_cons.2 ⟨by decide, hdigits⟩)
    · exact Token.standsAtEnds_of_forall Nat.toDigits_ne_nil hdigits
  | @text s mark hmark =>
    have hstands : Token.Stands mark := by rcases hmark with rfl | rfl <;> decide
    rw [Text.enclosed, String.toList_ofList]
    exact ⟨mark, mark, rfl, by rw [← List.cons_append, List.getLast?_concat], hstands, hstands⟩

end Raw.Written

namespace FieldPredicate

theorem readValue_written {v : Raw} {w : String} (h : v.Written w) {before behind : List Char}
    (hbefore : ∀ c ∈ before, Text.isBlank c = true)
    (hbehind : ∀ c ∈ behind, Text.isBlank c = true) :
    readValue (before ++ (w.toList ++ behind)) = .ok v := by
  obtain ⟨first, last, hfirst, hlast, hstart, hend⟩ := h.standsAtEnds
  obtain ⟨t, hscan, hdone, hliteral⟩ := h.exists_scan
  have hne : w.toList.isEmpty = false := by
    cases hw : w.toList with
    | nil => rw [hw] at hfirst; cases hfirst
    | cons c cs => rfl
  rw [readValue, Text.trimChars_append hbefore hbehind hfirst hlast ⟨hstart.1, hend.1⟩]
  simp [hne, Token.tokens_of_scan hscan hdone, hliteral]

/-- A predicate is read as the field, the comparison and the value that it is written from, with
any blanks around these three, or none. -/
theorem parse_written {field : String} (hfield : Token.isIdentifier field = true) {c : Comparison}
    {symbol : String} (hsymbol : symbol ∈ c.spellings) {v : Raw} {w : String} (hw : v.Written w)
    {b₀ b₁ b₂ b₃ : String} (hb : ∀ b ∈ [b₀, b₁, b₂, b₃], Text.isBlankText b = true) :
    parse (b₀ ++ field ++ b₁ ++ symbol ++ b₂ ++ w ++ b₃) = .ok ⟨field, some (c, v)⟩ := by
  have hblanks : ∀ b ∈ [b₀, b₁, b₂, b₃], ∀ d ∈ b.toList, Text.isBlank d = true :=
    fun b hbs => List.all_eq_true.1 (hb b hbs)
  simp only [List.forall_mem_cons] at hblanks
  obtain ⟨h₀, h₁, h₂, h₃, -⟩ := hblanks
  obtain ⟨hword, hsame⟩ := Token.isIdentifier_iff.1 hfield
  obtain ⟨first, -, hfirst, -, hstart, -⟩ := hw.standsAtEnds
  have hvalue : ∀ d ∈ (b₂.toList ++ (w.toList ++ b₃.toList)).head?, d ≠ '=' ∧ d ≠ '>' := by
    refine Text.head_append (fun d hd => ?_) fun d hd => ?_
    · constructor <;> rintro rfl <;> cases h₂ _ hd
    · rw [List.head?_append, hfirst] at hd
      cases hd
      exact hstart.2
  have hrest : ∀ d ∈ (b₁.toList ++ (symbol.toList ++
      (b₂.toList ++ (w.toList ++ b₃.toList)))).head?, Token.isWordChar d = false := by
    refine Text.head_append (fun d hd => ?_) (Token.isWordChar_of_spelling hsymbol _)
    exact Token.isWordChar_of_isBlank (h₁ d hd)
  simp only [parse, ofChars, String.toList_append, List.append_assoc]
  rw [Token.scan_append_of_isBlank h₀, Token.scan_word_append hword hrest, hsame]
  simp only []
  rw [Token.scan_append_of_isBlank h₁, Token.scan_spelling_append hsymbol hvalue]
  simp only [readValue_written hw h₂ h₃]
  rfl

/-- Blanks, marks and an operator inside the text stay in it. -/
theorem parse_written_title :
    Token.isIdentifier "title" = true ∧ "<>" ∈ Comparison.ne.spellings ∧
      (Raw.text "it's >= 5 ").Written "'it''s >= 5 '" ∧
      (∀ b ∈ ["\t", "", " ", "\n"], Text.isBlankText b = true) ∧
      parse "\ttitle<> 'it''s >= 5 '\n" = .ok ⟨"title", some (.ne, .text "it's >= 5 ")⟩ := by
  have hfield : Token.isIdentifier "title" = true := by decide
  have hsymbol : "<>" ∈ Comparison.ne.spellings := by decide
  have hw : (Raw.text "it's >= 5 ").Written "'it''s >= 5 '" := .text "it's >= 5 " (.inl rfl)
  have hblank : ∀ b ∈ ["\t", "", " ", "\n"], Text.isBlankText b = true := by decide
  have htext : "\t" ++ "title" ++ "" ++ "<>" ++ " " ++ "'it''s >= 5 '" ++ "\n" =
      "\ttitle<> 'it''s >= 5 '\n" := by decide
  exact ⟨hfield, hsymbol, hw, hblank, htext ▸ parse_written hfield hsymbol hw hblank⟩

end FieldPredicate
end Tabular
