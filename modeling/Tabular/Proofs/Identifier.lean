import Tabular.Query.Build
import Mathlib.Data.List.TakeWhile

/-!
Identifiers: names that the lexer reads as one word. As a predicate such a name is a bare field.
-/
namespace Tabular

namespace Text

def Ranges.apart (rs ss : Ranges) : Bool :=
  rs.all fun r => ss.all fun s => decide (r.2 < s.1) || decide (s.2 < r.1)

theorem Ranges.has_eq_false_of_apart {rs ss : Ranges} (h : rs.apart ss = true) {c : Char}
    (hc : rs.has c = true) : ss.has c = false := by
  refine eq_false_of_ne_true fun hs => ?_
  obtain ⟨r, hr, hr₁, hr₂⟩ := (rs.has_iff c).1 hc
  obtain ⟨s, hs, hs₁, hs₂⟩ := (ss.has_iff c).1 hs
  have hapart := List.all_eq_true.1 (List.all_eq_true.1 h r hr) s hs
  simp only [Bool.or_eq_true, decide_eq_true_eq] at hapart
  omega

theorem apart_blankRanges : alphabeticRanges.apart blankRanges = true := by decide +kernel

theorem toNat_of_isAlpha {c : Char} (h : c.isAlpha = true) :
    (65 ≤ c.toNat ∧ c.toNat ≤ 90) ∨ (97 ≤ c.toNat ∧ c.toNat ≤ 122) := by
  rcases Bool.or_eq_true_iff.1 h with h | h
  · exact .inl (of_decide_eq_true h)
  · exact .inr ((Bool.and_eq_true_iff.1 h).imp of_decide_eq_true of_decide_eq_true)

theorem isBlank_of_isAlpha {c : Char} (h : c.isAlpha = true) : isBlank c = false := by
  have hbounds := toNat_of_isAlpha h
  simp only [isBlank, blankRanges, Ranges.has, List.any_cons, List.any_nil]
  grind

theorem isBlank_of_isLetter {c : Char} (h : isLetter c = true) : isBlank c = false := by
  unfold isLetter at h
  split at h
  · exact isBlank_of_isAlpha h
  · exact Ranges.has_eq_false_of_apart apart_blankRanges h

end Text

namespace Token

def startsWord (c : Char) : Bool := Text.isLetter c || c = '_'

/-- A text that starts and goes on like a word, and is none of the words that are literals. -/
def isIdentifier (s : String) : Bool :=
  match s.toList with
  | [] => false
  | c :: cs => startsWord c && cs.all isWordChar && ofWord s == .word s

variable {c : Char}

theorem isBlank_of_startsWord (h : startsWord c = true) : Text.isBlank c = false := by
  simp only [startsWord, Bool.or_eq_true, decide_eq_true_eq] at h
  rcases h with h | rfl
  · exact Text.isBlank_of_isLetter h
  · decide

theorem isWordChar_of_startsWord (h : startsWord c = true) : isWordChar c = true := by
  simp only [startsWord, isWordChar, Bool.or_eq_true] at h ⊢
  exact h.imp_left Text.isLetterOrDigit_of_isLetter

theorem scanFrom_of_startsWord (h : startsWord c = true) (cs : List Char) :
    scanFrom c cs = scanWord (c :: cs) := by
  have hne : ∀ d, startsWord d = false → c ≠ d := by
    rintro d hd rfl
    rw [h] at hd
    cases hd
  have hstart : Text.isLetter c = true ∨ c = '_' := by simpa [startsWord] using h
  unfold scanFrom
  rw [if_neg (hne '=' (by decide)), if_neg (hne '!' (by decide)), if_neg (hne '<' (by decide)),
    if_neg (hne '>' (by decide)), if_neg (not_and_of_not_left _ (hne '-' (by decide))),
    if_pos hstart]

def isWord (s : String) : Bool :=
  match s.toList with
  | [] => false
  | c :: cs => startsWord c && cs.all isWordChar

theorem isIdentifier_iff {s : String} :
    isIdentifier s = true ↔ isWord s = true ∧ ofWord s = .word s := by
  unfold isIdentifier isWord
  split <;> simp [beq_iff_eq]

theorem isWord_iff {s : String} :
    isWord s = true ↔ ∃ c cs, s.toList = c :: cs ∧ startsWord c = true ∧
      ∀ d ∈ s.toList, isWordChar d = true := by
  unfold isWord
  cases s.toList with
  | nil => simp
  | cons c cs =>
    simp only [Bool.and_eq_true, List.all_eq_true, List.forall_mem_cons]
    constructor
    · rintro ⟨hstart, hrest⟩
      exact ⟨c, cs, rfl, hstart, isWordChar_of_startsWord hstart, hrest⟩
    · rintro ⟨_, _, ⟨rfl, rfl⟩, hstart, -, hrest⟩
      exact ⟨hstart, hrest⟩

theorem scan_word_append {s : String} (h : isWord s = true) {rest : List Char}
    (hrest : ∀ d ∈ rest.head?, isWordChar d = false) :
    scan (s.toList ++ rest) = (.ok (ofWord s), rest) := by
  obtain ⟨c, cs, hs, hstart, hall⟩ := isWord_iff.1 h
  have hstop : rest.takeWhile isWordChar = [] ∧ rest.dropWhile isWordChar = rest := by
    cases rest with
    | nil => exact ⟨rfl, rfl⟩
    | cons d ds => simp [hrest d rfl]
  have hscan : scan (s.toList ++ rest) = scanWord (s.toList ++ rest) := by
    rw [hs, List.cons_append, scan, Text.skipBlanks_cons, isBlank_of_startsWord hstart]
    exact scanFrom_of_startsWord hstart _
  rw [hscan, scanWord, List.takeWhile_append_of_pos hall, List.dropWhile_append_of_pos hall,
    hstop.1, hstop.2, List.append_nil, String.ofList_toList]

theorem scan_of_isWord {s : String} (h : isWord s = true) :
    scan s.toList = (.ok (ofWord s), []) := by
  rw [← List.append_nil s.toList, scan_word_append h (by simp)]

theorem scan_of_isIdentifier {s : String} (h : isIdentifier s = true) :
    scan s.toList = (.ok (.word s), []) := by
  obtain ⟨hs, hword⟩ := isIdentifier_iff.1 h
  rw [scan_of_isWord hs, hword]

end Token

theorem FieldPredicate.parse_of_isIdentifier {s : String} (h : Token.isIdentifier s = true) :
    parse s = .ok ⟨s, none⟩ := by
  rw [parse, ofChars, Token.scan_of_isIdentifier h]
  rfl

theorem Predicate.parse_of_isIdentifier {s : String} (h : Token.isIdentifier s = true) :
    parse s = .ok (.bare s) := by
  rw [parse, FieldPredicate.parse_of_isIdentifier h]
  rfl

end Tabular
