import Tabular.Query.Evaluate
import Mathlib.Data.List.Forall2
import Mathlib.Data.List.Infix

/-!
What it means that a text is like a pattern: it can be split along the pattern, with a run of
characters for each percent sign, one character for each underscore, and every other character of
the pattern for itself. Patterns are matched against all ends of a text at once, so this is shown of
an end from what is known of the next shorter one.
-/
namespace Tabular

namespace Wildcard

def Stands (c : Char) (part : List Char) : Prop :=
  if c = '%' then True else if c = '_' then part.length = 1 else part = [c]

/-- The text in parts, one for each character of the pattern. -/
def Splits (pattern text : List Char) : Prop :=
  ∃ parts, parts.flatten = text ∧ List.Forall₂ Stands pattern parts

variable {c d : Char} {pattern text : List Char}

theorem splits_nil : Splits [] text ↔ text = [] := by
  simp [Splits, eq_comm]

theorem splits_cons : Splits (c :: pattern) text ↔
    ∃ part rest, part ++ rest = text ∧ Stands c part ∧ Splits pattern rest := by
  constructor
  · rintro ⟨_, rfl, hall⟩
    obtain ⟨part, parts, hpart, hparts, rfl⟩ := List.forall₂_cons_left_iff.1 hall
    exact ⟨part, parts.flatten, rfl, hpart, parts, rfl, hparts⟩
  · rintro ⟨part, _, rfl, hpart, parts, rfl, hparts⟩
    exact ⟨part :: parts, rfl, .cons hpart hparts⟩

theorem splits_percent :
    Splits ('%' :: pattern) text ↔ ∃ rest, rest <:+ text ∧ Splits pattern rest := by
  rw [splits_cons]
  constructor
  · rintro ⟨part, rest, rfl, -, hrest⟩
    exact ⟨rest, List.suffix_append part rest, hrest⟩
  · rintro ⟨rest, ⟨part, hpart⟩, hrest⟩
    exact ⟨part, rest, hpart, trivial, hrest⟩

theorem stands_iff (hc : c ≠ '%') {part : List Char} :
    Stands c part ↔ ∃ d, part = [d] ∧ (c = '_' ∨ c = d) := by
  rw [Stands, if_neg hc]
  by_cases hone : c = '_'
  · simp [hone, List.length_eq_one_iff]
  · simp [hone]

theorem not_splits_nil (hc : c ≠ '%') : ¬ Splits (c :: pattern) [] := by
  rw [splits_cons]
  rintro ⟨part, rest, happend, hpart, -⟩
  obtain ⟨d, rfl, -⟩ := (stands_iff hc).1 hpart
  cases happend

theorem splits_cons_cons (hc : c ≠ '%') :
    Splits (c :: pattern) (d :: text) ↔ (c = '_' ∨ c = d) ∧ Splits pattern text := by
  rw [splits_cons]
  constructor
  · rintro ⟨part, rest, happend, hpart, hrest⟩
    obtain ⟨d', rfl, hd⟩ := (stands_iff hc).1 hpart
    cases happend
    exact ⟨hd, hrest⟩
  · rintro ⟨hd, hrest⟩
    exact ⟨[d], text, rfl, (stands_iff hc).2 ⟨d, rfl, hd⟩, hrest⟩

theorem exists_covers (pattern text : List Char) :
    ∃ later, covers pattern text = accepts pattern text :: later := by
  cases h : covers pattern text with
  | nil =>
    have hlength := length_covers pattern text
    rw [h] at hlength
    cases hlength
  | cons hit later => exact ⟨later, by rw [accepts, h, List.headD_cons]⟩

theorem covers_percent (pattern text : List Char) :
    covers ('%' :: pattern) text = anyFrom (covers pattern text) := rfl

theorem covers_of_ne (hc : c ≠ '%') (pattern text : List Char) :
    covers (c :: pattern) text =
      List.zipWith (fun d hit => (c = '_' || c = d) && hit) text (covers pattern text).tail ++
        [false] := by
  rw [covers, if_neg hc]

/-- With one more character in front of the text there is one more end, and the answers for the
other ends stay. -/
theorem covers_cons (pattern : List Char) (d : Char) (text : List Char) :
    covers pattern (d :: text) = accepts pattern (d :: text) :: covers pattern text := by
  induction pattern with
  | nil => rfl
  | cons c pattern ih =>
    by_cases hc : c = '%'
    · subst hc
      rw [accepts, covers_percent, covers_percent, ih]
      rfl
    · obtain ⟨later, hlater⟩ := exists_covers pattern text
      rw [accepts, covers_of_ne hc, covers_of_ne hc, ih, hlater]
      rfl

theorem accepts_nil (text : List Char) : accepts [] text = text.isEmpty := by
  cases text <;> rfl

theorem accepts_percent_nil (pattern : List Char) :
    accepts ('%' :: pattern) [] = accepts pattern [] := by
  obtain ⟨later, hlater⟩ := exists_covers pattern []
  have hlength := length_covers pattern []
  rw [hlater, List.length_cons, List.length_nil, Nat.zero_add, Nat.add_eq_right,
    List.length_eq_zero_iff] at hlength
  rw [accepts, covers_percent, hlater, hlength]
  simp [anyFrom]

theorem accepts_percent_cons (pattern : List Char) (d : Char) (text : List Char) :
    accepts ('%' :: pattern) (d :: text) =
      (accepts pattern (d :: text) || accepts ('%' :: pattern) text) := by
  rw [accepts, covers_percent, covers_cons]
  rfl

theorem accepts_cons_nil (hc : c ≠ '%') : accepts (c :: pattern) [] = false := by
  rw [accepts, covers_of_ne hc]
  rfl

theorem accepts_cons_cons (hc : c ≠ '%') :
    accepts (c :: pattern) (d :: text) = ((c = '_' || c = d) && accepts pattern text) := by
  obtain ⟨later, hlater⟩ := exists_covers pattern text
  rw [accepts, covers_of_ne hc, covers_cons, hlater]
  rfl

theorem splits_percent_cons : Splits ('%' :: pattern) (d :: text) ↔
    Splits pattern (d :: text) ∨ Splits ('%' :: pattern) text := by
  simp only [splits_percent, List.suffix_cons_iff, or_and_right, exists_or, exists_eq_left]

/-- Matching decides whether the text splits along the pattern. The induction is on the pattern, and
for a percent sign on the text. -/
theorem accepts_iff : accepts pattern text = true ↔ Splits pattern text := by
  induction pattern generalizing text with
  | nil => rw [accepts_nil, splits_nil, List.isEmpty_iff]
  | cons c pattern ih =>
    by_cases hc : c = '%'
    · subst hc
      induction text with
      | nil => rw [accepts_percent_nil, ih, splits_percent]; simp
      | cons d text ih' =>
        rw [accepts_percent_cons, splits_percent_cons, Bool.or_eq_true, ih, ih']
    · cases text with
      | nil => simp [accepts_cons_nil hc, not_splits_nil hc]
      | cons d text =>
        rw [accepts_cons_cons hc, splits_cons_cons hc, Bool.and_eq_true, ih]
        simp

/-- The bits of a mask tell which values have a text that splits along the pattern, or of which
values with a text this is not so. -/
def Marks (negated : Bool) (pattern : String) (vs : List Value) (mask : List Bool) : Prop :=
  List.Forall₂ (fun v bit => bit = true ↔ ∃ s, textOf? v = some s ∧
    (Splits pattern.toList s.toList ↔ negated = false)) vs mask

theorem marks_test (negated : Bool) (pattern : String) (vs : List Value) :
    Marks negated pattern vs (vs.map (test negated pattern.toList)) := by
  refine List.forall₂_map_right_iff.2 (List.forall₂_same.2 fun v _ => ?_)
  unfold test
  cases textOf? v with
  | none => simp
  | some s => cases negated <;> simp [← accepts_iff]

/-- A filter and a condition with a pattern hold of exactly those values whose text can be split
along the pattern, and no pattern makes them fail. A limit on the size of a pattern, beyond which it
would be refused as a syntax error, is assumed away. -/
theorem mask_iff_splits (db : Database) (negated : Bool) (pattern : String) :
    (∀ column cells, ∃ mask, (FieldTest.like negated pattern).mask db column cells = .ok mask ∧
      Marks negated pattern cells mask) ∧
    ∀ (left : Operand) (vs : List Value) (raw : Raw) (label : Option String),
      left.values db = .ok vs → raw.store = .ok (.text pattern) →
      ∃ mask, (Condition.mk left (.like negated) (.literal raw) label).mask db = .ok mask ∧
        Marks negated pattern vs mask := by
  refine ⟨fun column cells => ⟨_, rfl, marks_test negated pattern cells⟩, ?_⟩
  intro left vs raw label hleft hraw
  have hpattern : (Operand.literal raw).pattern = .ok pattern :=
    Except.bind_eq_ok_iff.2 ⟨.text pattern, hraw, rfl⟩
  have hmask : (Condition.mk left (.like negated) (.literal raw) label).mask db =
      .ok (vs.map (test negated pattern.toList)) :=
    Except.bind_eq_ok_iff.2 ⟨pattern, hpattern, Except.bind_eq_ok_iff.2 ⟨vs, hleft, rfl⟩⟩
  exact ⟨_, hmask, marks_test negated pattern vs⟩

/-- A run may hold a line break, a byte that is no text stands for one character, and neither a
point nor the case of a letter is passed over. -/
theorem mask_iff_splits_words :
    let db : Database := { name := "main" }
    let words : List Value := [.text "ba\n1x.", .blob [0x61, 0xff, 0x2e], .text "a1!", .text "A1.",
      .integer 5]
    let pattern : Raw := .tagged .any (.text "%a%_.")
    (Operand.series ⟨words, none⟩).values db = .ok words ∧
      pattern.store = .ok (.text "%a%_.") ∧
      (Condition.mk (.series ⟨words, none⟩) (.like false) (.literal pattern) none).mask db =
        .ok [true, true, false, false, false] ∧
      Marks false "%a%_." words [true, true, false, false, false] := by
  intro db words pattern
  have hmask : (Condition.mk (.series ⟨words, none⟩) (.like false) (.literal pattern) none).mask
      db = .ok [true, true, false, false, false] := by decide
  obtain ⟨mask, hmask', hmarks⟩ := (mask_iff_splits db false "%a%_.").2
    (.series ⟨words, none⟩) words pattern none rfl rfl
  obtain rfl := Except.ok.inj (hmask'.symm.trans hmask)
  exact ⟨rfl, rfl, hmask, hmarks⟩

end Wildcard

end Tabular
