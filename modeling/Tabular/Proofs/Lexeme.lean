import Tabular.Proofs.Comparand

/-!
Lexemes: texts that are one token and no more. A scan takes blanks and then the lexeme of the token
that it finds, and a lexeme is read the same with a blank behind it. So tokens that are written with
blanks between them are read back one by one, whatever marks, signs and operators are in them.
-/
namespace Tabular.Token

structure IsLexeme (t : Token) (cs : List Char) : Prop where
  more : t ≠ .done
  scanned : scan cs = (.ok t, [])

section

variable {c mark : Char} {t : Token} {cs rest : List Char}

theorem takeNumber_takeNumber (previous : Char) (cs : List Char) :
    takeNumber previous (takeNumber previous cs).1 = ((takeNumber previous cs).1, []) := by
  induction cs generalizing previous with
  | nil => rfl
  | cons c cs ih => by_cases h : isNumberChar previous c = true <;> simp [takeNumber, h, ih]

theorem startsNumber_takeNumber (previous : Char) (cs : List Char) :
    startsNumber (takeNumber previous cs).1 = startsNumber cs := by
  cases cs with
  | nil => rfl
  | cons c cs =>
    by_cases h : isNumberChar previous c = true
    · simp [takeNumber, h, startsNumber]
    · have hdigit : c.isDigit = false := by
        refine eq_false_of_ne_true fun hdigit => h ?_
        simp [isNumberChar, hdigit]
      simp [takeNumber, h, startsNumber, hdigit]

theorem takeQuoted_split {body : List Char} (h : takeQuoted mark cs = some (body, rest)) :
    ∃ taken, cs = taken ++ rest ∧ takeQuoted mark taken = some (body, []) := by
  fun_induction takeQuoted mark cs generalizing body rest with
  | case1 => cases h
  | case2 =>
    cases h
    exact ⟨[mark], rfl, by simp [takeQuoted]⟩
  | case3 ds ih =>
    obtain ⟨⟨inner, _⟩, hinner, ⟨⟩⟩ := Option.map_eq_some_iff.1 h
    obtain ⟨taken, rfl, htaken⟩ := ih hinner
    exact ⟨mark :: mark :: taken, rfl, by simp [takeQuoted, htaken]⟩
  | case4 d ds hd =>
    cases h
    exact ⟨[mark], rfl, by simp [takeQuoted]⟩
  | case5 c ds hc ih =>
    obtain ⟨⟨inner, _⟩, hinner, ⟨⟩⟩ := Option.map_eq_some_iff.1 h
    obtain ⟨taken, rfl, htaken⟩ := ih hinner
    refine ⟨c :: taken, rfl, ?_⟩
    unfold takeQuoted
    rw [if_neg hc, htaken]
    rfl

theorem scanQuoted_split (h : scanQuoted mark cs = (.ok t, rest)) :
    ∃ body, cs = body ++ rest ∧ scanQuoted mark body = (.ok t, []) := by
  unfold scanQuoted at h
  split at h
  · rename_i inner _ hinner
    cases h
    obtain ⟨body, rfl, hbody⟩ := takeQuoted_split hinner
    exact ⟨body, rfl, by rw [scanQuoted, hbody]⟩
  · cases h

theorem scanFrom_of_isMark (hmark : mark = '\'' ∨ mark = '"') (cs : List Char) :
    scanFrom mark cs = scanQuoted mark cs := by
  rcases hmark with rfl | rfl <;> rfl

theorem scanNumber_split (c : Char) (cs : List Char) :
    cs = (takeNumber c cs).1 ++ (scanNumber c cs).2 ∧
      scanNumber c (takeNumber c cs).1 = ((scanNumber c cs).1, []) := by
  refine ⟨(takeNumber_append c cs).symm, ?_⟩
  rw [scanNumber, takeNumber_takeNumber]
  rfl

theorem scanOperator_split (hc : startsOperator c = true) (h : scanFrom c cs = (.ok t, rest)) :
    ∃ body, cs = body ++ rest ∧ scanFrom c body = (.ok t, []) := by
  obtain rfl | rfl | rfl | rfl := startsOperator_iff.1 hc
  all_goals
    simp only [scanFrom, Char.reduceEq, reduceIte] at h
    split at h <;> cases h
  · exact ⟨['='], rfl, rfl⟩
  · exact ⟨[], rfl, rfl⟩
  · exact ⟨['='], rfl, rfl⟩
  · exact ⟨['='], rfl, rfl⟩
  · exact ⟨['>'], rfl, rfl⟩
  · exact ⟨[], rfl, rfl⟩
  · exact ⟨['='], rfl, rfl⟩
  · exact ⟨[], rfl, rfl⟩

theorem scanWord_split (hc : isWordChar c = true) (cs : List Char) :
    cs = cs.takeWhile isWordChar ++ (scanWord (c :: cs)).2 ∧
      scanWord (c :: cs.takeWhile isWordChar) = ((scanWord (c :: cs)).1, []) := by
  have hrest : (scanWord (c :: cs)).2 = cs.dropWhile isWordChar := List.dropWhile_cons_of_pos hc
  have hall : ∀ d ∈ c :: cs.takeWhile isWordChar, isWordChar d = true :=
    List.forall_mem_cons.2 ⟨hc, fun d hd => List.mem_takeWhile_imp hd⟩
  refine ⟨by rw [hrest, List.takeWhile_append_dropWhile], ?_⟩
  rw [scanWord, scanWord, List.takeWhile_eq_self_iff.2 hall, List.dropWhile_eq_nil_iff.2 hall,
    List.takeWhile_cons_of_pos hc]

/-- What follows a token plays no part in reading it. -/
theorem scanFrom_split (h : scanFrom c cs = (.ok t, rest)) :
    ∃ body, cs = body ++ rest ∧ scanFrom c body = (.ok t, []) := by
  by_cases hc : startsOperator c = true
  · exact scanOperator_split hc h
  have hnumber : scanNumber c cs = (.ok t, rest) →
      cs = (takeNumber c cs).1 ++ rest ∧ scanNumber c (takeNumber c cs).1 = (.ok t, []) := by
    intro hnumber
    have hsplit := scanNumber_split c cs
    rwa [hnumber] at hsplit
  rw [scanFrom_of_not_startsOperator hc] at h
  split at h
  · rename_i hminus
    obtain ⟨hcs, hbody⟩ := hnumber h
    refine ⟨_, hcs, ?_⟩
    rwa [scanFrom_of_not_startsOperator hc, startsNumber_takeNumber, if_pos hminus]
  split at h
  · rename_i hstart
    have hword : startsWord c = true := by simpa [startsWord] using hstart
    obtain ⟨hcs, hbody⟩ := scanWord_split (isWordChar_of_startsWord hword) cs
    rw [h] at hcs hbody
    exact ⟨_, hcs, (scanFrom_of_startsWord hword _).trans hbody⟩
  split at h
  · rename_i hdigit
    obtain ⟨hcs, hbody⟩ := hnumber h
    exact ⟨_, hcs, (scanFrom_of_isDigit hdigit _).trans hbody⟩
  split at h
  · rename_i hmark
    obtain ⟨body, rfl, hbody⟩ := scanQuoted_split h
    exact ⟨body, rfl, (scanFrom_of_isMark hmark _).trans hbody⟩
  · cases h

theorem scanFrom_ne_done (c : Char) (cs rest : List Char) : scanFrom c cs ≠ (.ok .done, rest) := by
  intro h
  by_cases hc : startsOperator c = true
  · obtain rfl | rfl | rfl | rfl := startsOperator_iff.1 hc
    all_goals
      simp only [scanFrom, Char.reduceEq, reduceIte] at h
      split at h <;> cases h
  · obtain ⟨v, hv⟩ := exists_literal_of_scanFrom hc h
    cases hv

theorem scan_eq_done_iff : (scan cs).1 = .ok .done ↔ ∀ b ∈ cs, Text.isBlank b = true := by
  rw [← List.dropWhile_eq_nil_iff, ← Text.skipBlanks]
  cases hcs : Text.skipBlanks cs with
  | nil => simp [scan, hcs]
  | cons c after =>
    rw [scan, hcs]
    exact iff_of_false (fun h => scanFrom_ne_done c after _ (Prod.ext h rfl)) (List.cons_ne_nil _ _)

theorem scanFrom_suffix (c : Char) (cs : List Char) : (scanFrom c cs).2 <:+ c :: cs := by
  have hnumber : (scanNumber c cs).2 <:+ c :: cs :=
    ⟨c :: (takeNumber c cs).1, congrArg (c :: ·) (takeNumber_append c cs)⟩
  by_cases hc : startsOperator c = true
  · obtain rfl | rfl | rfl | rfl := startsOperator_iff.1 hc
    all_goals
      simp only [scanFrom, Char.reduceEq, reduceIte]
      split
    all_goals first | exact List.suffix_cons _ _ | exact ⟨[_, _], rfl⟩
  rw [scanFrom_of_not_startsOperator hc]
  split
  · exact hnumber
  split
  · exact List.dropWhile_suffix _
  split
  · exact hnumber
  split
  · unfold scanQuoted
    split
    · rename_i htake
      obtain ⟨taken, rfl, -⟩ := takeQuoted_split htake
      exact ⟨c :: taken, rfl⟩
    · exact List.nil_suffix
  · exact List.suffix_rfl

theorem scan_suffix (cs : List Char) : (scan cs).2 <:+ cs := by
  unfold scan
  split
  · exact List.nil_suffix
  · rename_i c rest hcs
    exact (scanFrom_suffix c rest).trans (hcs ▸ Text.skipBlanks_suffix cs)

theorem exists_isLexeme (h : scan cs = (.ok t, rest)) (ht : t ≠ .done) :
    ∃ blanks lexeme, cs = blanks ++ (lexeme ++ rest) ∧
      (∀ b ∈ blanks, Text.isBlank b = true) ∧ IsLexeme t lexeme := by
  have hblanks : cs = cs.takeWhile Text.isBlank ++ Text.skipBlanks cs :=
    List.takeWhile_append_dropWhile.symm
  unfold scan at h
  split at h
  · cases h
    exact absurd rfl ht
  rename_i c after hskip
  obtain ⟨body, rfl, hbody⟩ := scanFrom_split h
  refine ⟨cs.takeWhile Text.isBlank, c :: body, ?_, fun b hb => List.mem_takeWhile_imp hb, ht, ?_⟩
  · rwa [hskip] at hblanks
  · have hhead : ∀ d ∈ (c :: body).head?, Text.isBlank d = false := by
      rintro _ ⟨⟩
      exact Text.isBlank_of_skipBlanks hskip
    rw [scan, Text.skipBlanks_of_head hhead]
    exact hbody

end

section

variable {t : Token} {cs behind : List Char} (h : ∀ b ∈ behind.head?, Text.isBlank b = true)

include h

end

/-- The ways to write a token. -/
inductive Written : Token → String → Prop
  | word {w : String} (h : isIdentifier w = true) : Written (.word w) w
  | null {w : String} (hw : isWord w = true) (h : Text.spells w "NULL" = true) : Written .null w
  | bool {w : String} (b : Bool) (hw : isWord w = true)
    (h : Text.spells w (if b then "TRUE" else "FALSE") = true) : Written (.bool b) w
  | integer (n : Int64) : Written (.integer n) (Decimal.intText n.toInt)
  | text (s : String) {mark : Char} (hmark : mark = '\'' ∨ mark = '"') :
    Written (.text s) (Text.enclosed mark s)
  | comparison {c : Comparison} {symbol : String} (h : symbol ∈ c.spellings) :
    Written (.comparison c) symbol

/-- A token as it is written in a text, with the blanks before it. -/
structure Piece where
  gap : String
  token : Token
  form : String
  isBlankText_gap : Text.isBlankText gap = true
  written : token.Written form

namespace Piece

def text : List Piece → String
  | [] => ""
  | p :: ps => p.gap ++ p.form ++ text ps

end Piece

end Tabular.Token
