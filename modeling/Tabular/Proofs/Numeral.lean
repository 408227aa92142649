import Tabular.Proofs.Binary64.Integer
import Tabular.Proofs.Text

/-!
Text that spells an integer, and what an integer column stores of it. Where the integer is no word
the text is read once more as a real number, and the rounding may lead back to the least word.
-/
namespace Tabular

namespace Decimal

/-- The characters of a decimal integer: digits, with or without a sign. -/
inductive Numeral : List Char → Int → Prop
  | plain {ds : List Char} (nonempty : ds ≠ []) (digits : ∀ c ∈ ds, c.isDigit = true) :
      Numeral ds (ofDigits ds)
  | plus {ds : List Char} (nonempty : ds ≠ []) (digits : ∀ c ∈ ds, c.isDigit = true) :
      Numeral ('+' :: ds) (ofDigits ds)
  | minus {ds : List Char} (nonempty : ds ≠ []) (digits : ∀ c ∈ ds, c.isDigit = true) :
      Numeral ('-' :: ds) (-(ofDigits ds : Int))

variable {cs ds : List Char} {n : Int}

theorem takeSign_of_isDigit (digits : ∀ c ∈ ds, c.isDigit = true) : takeSign ds = (false, ds) := by
  unfold takeSign
  split
  · cases digits _ List.mem_cons_self
  · cases digits _ List.mem_cons_self
  · rfl

theorem Numeral.exists_digits (h : Numeral cs n) :
    ∃ negative ds, takeSign cs = (negative, ds) ∧ ds ≠ [] ∧ (∀ c ∈ ds, c.isDigit = true) ∧
      n = if negative then -(ofDigits ds : Int) else ofDigits ds := by
  cases h with
  | plain nonempty digits => exact ⟨false, cs, takeSign_of_isDigit digits, nonempty, digits, rfl⟩
  | plus nonempty digits => exact ⟨false, _, rfl, nonempty, digits, rfl⟩
  | minus nonempty digits => exact ⟨true, _, rfl, nonempty, digits, rfl⟩

theorem readNat?_eq_some_iff {n : Nat} :
    readNat? ds = some n ↔ ds ≠ [] ∧ (∀ c ∈ ds, c.isDigit = true) ∧ ofDigits ds = n := by
  simp [readNat?, and_assoc]

/-- Integers are read from numerals, and from nothing else. -/
theorem readInt?_eq_some_iff : readInt? cs = some n ↔ Numeral cs n := by
  constructor
  · intro h
    unfold readInt? takeSign at h
    split at h
    rename_i negative ds hsign
    obtain ⟨_, hm, rfl⟩ := Option.map_eq_some_iff.1 h
    obtain ⟨k, hk, hkm⟩ := Option.bind_eq_some_iff.1 hm
    obtain ⟨hne, hdigits, rfl⟩ := readNat?_eq_some_iff.1 hk
    cases hkm
    split at hsign <;> cases hsign
    · exact .minus hne hdigits
    · exact .plus hne hdigits
    · exact .plain hne hdigits
  · intro h
    obtain ⟨negative, ds, hsign, hne, hdigits, rfl⟩ := h.exists_digits
    simp [readInt?, hsign, readNat?_eq_some_iff.2 ⟨hne, hdigits, rfl⟩]

theorem readScaled?_of_isDigit (nonempty : ds ≠ []) (digits : ∀ c ∈ ds, c.isDigit = true) :
    readScaled? ds = some (ofDigits ds, 0) := by
  have hwhole : ds.takeWhile Char.isDigit = ds := List.takeWhile_eq_self_iff.2 digits
  have hrest : ds.dropWhile Char.isDigit = [] := List.dropWhile_eq_nil_iff.2 digits
  simp [readScaled?, hwhole, hrest, takeFraction, readExponent?, nonempty]

/-- As a real number a numeral is the integer rounded, but that zero keeps its sign. -/
theorem Numeral.readReal? (h : Numeral cs n) (hn : n ≠ 0) :
    readReal? cs = some (Binary64.ofInt n) := by
  obtain ⟨negative, ds, hsign, hne, hdigits, rfl⟩ := h.exists_digits
  have hnat : ofDigits ds ≠ 0 := by
    rintro hzero
    simp [hzero] at hn
  have hlog : ¬ (0 + ((ofDigits ds).log2 : Int) < -400) := by omega
  have hnearest : Binary64.nearestDecimal negative (ofDigits ds) 0 =
      Binary64.nearestRatio negative (ofDigits ds) 1 := by
    rw [Binary64.nearestDecimal, if_neg hnat, if_neg (by decide), if_neg hlog, Int.neg_zero,
      raise_zero, Nat.mul_one]
  have hread : Decimal.readReal? cs = some (Binary64.nearestRatio negative (ofDigits ds) 1) := by
    simp only [Decimal.readReal?, hsign, readScaled?_of_isDigit hne hdigits, hnearest]
  rw [hread, Binary64.ofInt]
  cases negative with
  | false =>
    have hpositive : ¬ ((ofDigits ds : Int) < 0) := by omega
    simp [hpositive]
  | true =>
    have hnegative : 0 < ofDigits ds := Nat.pos_of_ne_zero hnat
    simp [hnegative]

end Decimal

variable {s : String} {n : Int}

theorem integerOfText?_of_numeral (h : Decimal.Numeral (Text.trimChars s.toList) n) :
    integerOfText? s = (toWord? n).or
      (if -2 ^ 63 - 1024 ≤ n ∧ n < 0 then some Int64.minValue else none) := by
  dsimp only [integerOfText?, readWord?]
  rw [Decimal.readInt?_eq_some_iff.2 h, Option.bind_eq_bind, Option.bind_some]
  cases hword : toWord? n with
  | some w => rfl
  | none =>
    have hne : n ≠ 0 := by
      rintro rfl
      cases hword
    rw [h.readReal? hne, Option.bind_eq_bind, Option.bind_some, integral?_ofInt_of_not_word hword]

namespace StorageClass

theorem coerce_integer_text (s : String) :
    integer.coerce (.text s) =
      match integerOfText? s with
      | some w => .ok (.integer w)
      | none => .error (.notStorable (.text s) .integer) := by
  cases h : integerOfText? s <;> simp [coerce, form?, Raw.untagged, h]

/-- Text that spells an integer is stored as that integer or not at all, but for the 1024 integers
before the least word, which are all stored as the least word. -/
theorem coerce_integer_numeral (h : Decimal.Numeral (Text.trimChars s.toList) n) :
    (-2 ^ 63 ≤ n ∧ n < 2 ^ 63 →
        ∃ w : Int64, w.toInt = n ∧ integer.coerce (.text s) = .ok (.integer w)) ∧
      (-2 ^ 63 - 1024 ≤ n ∧ n < -2 ^ 63 →
        integer.coerce (.text s) = .ok (.integer Int64.minValue)) ∧
      (n < -2 ^ 63 - 1024 ∨ 2 ^ 63 ≤ n →
        ∃ e, integer.coerce (.text s) = .error e ∧ e.kind = .typeMismatch) := by
  rw [coerce_integer_text, integerOfText?_of_numeral h]
  refine ⟨fun hword => ?_, fun hstrip => ?_, fun hfar => ?_⟩
  · obtain ⟨w, hw⟩ : ∃ w, toWord? n = some w := by
      rw [← Option.ne_none_iff_exists', ne_eq, toWord?_eq_none_iff]
      omega
    rw [hw, Option.some_or]
    exact ⟨w, toWord?_eq_some_iff.1 hw, rfl⟩
  · rw [toWord?_eq_none_iff.2 (.inl hstrip.2), Option.none_or, if_pos (by omega)]
  · rw [toWord?_eq_none_iff.2 (by omega), Option.none_or, if_neg (by omega)]
    exact ⟨_, rfl, rfl⟩

/-- The last of these integers, with blanks around it, and the one before it. -/
theorem coerce_integer_numeral_least :
    let least : String := "\t-9223372036854776832 "
    let tooSmall : String := "-09223372036854776833"
    Decimal.Numeral (Text.trimChars least.toList) (-2 ^ 63 - 1024) ∧
      integer.coerce (.text least) = .ok (.integer Int64.minValue) ∧
      Decimal.Numeral (Text.trimChars tooSmall.toList) (-2 ^ 63 - 1025) ∧
      ∃ e, integer.coerce (.text tooSmall) = .error e ∧ e.kind = .typeMismatch := by
  intro least tooSmall
  have hleast : Decimal.Numeral (Text.trimChars least.toList) (-2 ^ 63 - 1024) :=
    Decimal.readInt?_eq_some_iff.1 (by decide +kernel)
  have hsmall : Decimal.Numeral (Text.trimChars tooSmall.toList) (-2 ^ 63 - 1025) :=
    Decimal.readInt?_eq_some_iff.1 (by decide +kernel)
  exact ⟨hleast, (coerce_integer_numeral hleast).2.1 (by decide), hsmall,
    (coerce_integer_numeral hsmall).2.2 (by decide)⟩

/-- The integer before the least word is stored, as another one. -/
theorem not_coerce_integer_numeral :
    Decimal.Numeral (Text.trimChars "-9223372036854775809".toList) (-2 ^ 63 - 1) ∧
      integer.coerce (.text "-9223372036854775809") = .ok (.integer Int64.minValue) ∧
      Int64.minValue.toInt ≠ -2 ^ 63 - 1 :=
  ⟨Decimal.readInt?_eq_some_iff.1 (by decide +kernel), by decide +kernel, by decide⟩

end StorageClass

end Tabular
