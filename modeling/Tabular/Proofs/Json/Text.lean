import Tabular.Json.Reader
import Tabular.Json.Writer
import Mathlib.Data.List.Basic

/-! Texts in documents: what the writer escapes, the reader restores. -/
namespace Tabular.Json

def TextState.reading (done : List Char) : TextState := ⟨done, none, false, .plain⟩

theorem hexValue?_hexDigit {n : Nat} (h : n < 16) : hexValue? (hexDigit n) = some n := by
  revert n
  decide

section

/- A text is a value or the name of one. In either place it is read in the same steps, and only its
end is different. -/
variable {wrap : TextState → Reading} {finish : Option String → Reading}
  (hstep : ∀ t c, step? (wrap t) c =
    match t.step c with
    | .more t => some (wrap t)
    | .closed s => some (finish s)
    | .refused => none)

include hstep

theorem step?_text_of_plain {c : Char} (hquote : c ≠ '"') (hslash : c ≠ '\\')
    (hcontrol : ¬ c.toNat < 0x20) (done : List Char) :
    step? (wrap (.reading done)) c = some (wrap (.reading (c :: done))) := by
  rw [hstep]
  simp [TextState.step, TextState.reading, hquote, hslash, hcontrol, TextState.add]

theorem foldlM_text_of_letter {c letter : Char} (hletter : unescape? letter = some c)
    (hunicode : letter ≠ 'u') (done rest : List Char) :
    (['\\', letter] ++ rest).foldlM step? (wrap (.reading done)) =
      rest.foldlM step? (wrap (.reading (c :: done))) := by
  simp [hstep, TextState.step, TextState.reading, TextState.add, hletter, hunicode]

theorem foldlM_text_of_control {c : Char} (hcontrol : c.toNat < 0x20) (done rest : List Char) :
    (['\\', 'u', '0', '0', hexDigit (c.toNat / 16), hexDigit (c.toNat % 16)] ++ rest).foldlM step?
        (wrap (.reading done)) =
      rest.foldlM step? (wrap (.reading (c :: done))) := by
  have hhigh := hexValue?_hexDigit (n := c.toNat / 16) (by omega)
  have hlow := hexValue?_hexDigit (n := c.toNat % 16) (by omega)
  have hzero : hexValue? '0' = some 0 := by decide
  have hvalue : c.toNat / 16 * 16 + c.toNat % 16 = c.toNat := by omega
  have hpair : ¬ (0xD800 ≤ c.toNat ∧ c.toNat < 0xDC00) := by omega
  have hpair' : ¬ (0xDC00 ≤ c.toNat ∧ c.toNat < 0xE000) := by omega
  simp [hstep, TextState.step, TextState.reading, TextState.add, TextState.addUnit, hhigh, hlow,
    hzero, hvalue, hpair, hpair', Char.ofNat_toNat]

theorem foldlM_text_escape (c : Char) (done rest : List Char) :
    (escape c ++ rest).foldlM step? (wrap (.reading done)) =
      rest.foldlM step? (wrap (.reading (c :: done))) := by
  unfold escape
  split
  · exact foldlM_text_of_letter hstep rfl (by decide) done rest
  · exact foldlM_text_of_letter hstep rfl (by decide) done rest
  · exact foldlM_text_of_letter hstep rfl (by decide) done rest
  · exact foldlM_text_of_letter hstep rfl (by decide) done rest
  · exact foldlM_text_of_letter hstep rfl (by decide) done rest
  · exact foldlM_text_of_letter hstep rfl (by decide) done rest
  · exact foldlM_text_of_letter hstep rfl (by decide) done rest
  rename_i hquote hslash _ _ _ _ _
  split
  · rename_i hcontrol
    exact foldlM_text_of_control hstep hcontrol done rest
  · rename_i hcontrol
    rw [List.singleton_append, List.foldlM_cons,
      step?_text_of_plain hstep hquote hslash hcontrol]
    rfl

theorem foldlM_text_flatMap_escape (cs done rest : List Char) :
    (cs.flatMap escape ++ rest).foldlM step? (wrap (.reading done)) =
      rest.foldlM step? (wrap (.reading (cs.reverse ++ done))) := by
  induction cs generalizing done with
  | nil => rfl
  | cons c cs ih =>
    rw [List.flatMap_cons, List.append_assoc, foldlM_text_escape hstep, ih]
    simp

variable (wrap finish)

/-- What follows a text is read as if the text had just been put in its place. -/
theorem foldlM_text (s : String) (rest : List Char) :
    (s.toList.flatMap escape ++ '"' :: rest).foldlM step? (wrap .start) =
      rest.foldlM step? (finish (some s)) := by
  have hclose : step? (wrap (.reading (s.toList.reverse ++ []))) '"' = some (finish (some s)) := by
    rw [hstep]
    simp [TextState.step, TextState.reading]
  rw [show TextState.start = .reading [] from rfl, foldlM_text_flatMap_escape hstep,
    List.foldlM_cons, hclose]
  rfl

end

end Tabular.Json
