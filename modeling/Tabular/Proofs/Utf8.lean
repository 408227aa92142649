import Tabular.Text.Utf8
import Mathlib.Data.List.Basic

/-! Text that is written as bytes is read again as it was. -/
namespace Tabular.Text.Utf8

theorem decodeFrom_cons (s : State) (b : UInt8) (bytes : List UInt8) :
    decodeFrom s (b :: bytes) =
      (advance s b.toNat).1 ++ decodeFrom (advance s b.toNat).2 bytes := by
  cases s <;> rfl

section

variable {n : Nat} (bytes : List UInt8)

theorem decodeFrom_owing {count low high bits : Nat} (hn : n < 256) (hlow : low ≤ n)
    (hhigh : n ≤ high) :
    decodeFrom (.owing count low high bits) (UInt8.ofNat n :: bytes) =
      if count = 1 then some (Char.ofNat (bits * 64 + (n - 0x80))) :: decodeFrom .boundary bytes
      else decodeFrom (.owing (count - 1) 0x80 0xBF (bits * 64 + (n - 0x80))) bytes := by
  have htoNat : (UInt8.ofNat n).toNat = n := by simp; omega
  rw [decodeFrom_cons, htoNat, advance, if_pos ⟨hlow, hhigh⟩]
  split <;> rfl

theorem decodeFrom_one (h : n < 0x80) :
    decodeFrom .boundary (UInt8.ofNat n :: bytes) =
      some (Char.ofNat n) :: decodeFrom .boundary bytes := by
  have htoNat : (UInt8.ofNat n).toNat = n := by simp; omega
  rw [decodeFrom_cons, htoNat, advance, lead, if_pos h]
  rfl

theorem decodeFrom_two (h : 0xC2 ≤ n) (h' : n ≤ 0xDF) :
    decodeFrom .boundary (UInt8.ofNat n :: bytes) =
      decodeFrom (.owing 1 0x80 0xBF (n - 0xC0)) bytes := by
  have htoNat : (UInt8.ofNat n).toNat = n := by simp; omega
  rw [decodeFrom_cons, htoNat, advance, lead, if_neg (by omega), if_pos ⟨h, h'⟩]
  rfl

theorem decodeFrom_three (h : 0xE0 ≤ n) (h' : n ≤ 0xEF) :
    decodeFrom .boundary (UInt8.ofNat n :: bytes) =
      decodeFrom (.owing 2 (if n = 0xE0 then 0xA0 else 0x80) (if n = 0xED then 0x9F else 0xBF)
        (n - 0xE0)) bytes := by
  have htoNat : (UInt8.ofNat n).toNat = n := by simp; omega
  rw [decodeFrom_cons, htoNat, advance, lead, if_neg (by omega), if_neg (by omega),
    if_pos ⟨h, h'⟩]
  rfl

theorem decodeFrom_four (h : 0xF0 ≤ n) (h' : n ≤ 0xF4) :
    decodeFrom .boundary (UInt8.ofNat n :: bytes) =
      decodeFrom (.owing 3 (if n = 0xF0 then 0x90 else 0x80) (if n = 0xF4 then 0x8F else 0xBF)
        (n - 0xF0)) bytes := by
  have htoNat : (UInt8.ofNat n).toNat = n := by simp; omega
  rw [decodeFrom_cons, htoNat, advance, lead, if_neg (by omega), if_neg (by omega),
    if_neg (by omega), if_pos ⟨h, h'⟩]
  rfl

end

/-- The bytes of one character leave the decoder where it was, with the character read. The cases
are those of the number of bytes. -/
theorem decodeFrom_utf8EncodeChar (c : Char) (bytes : List UInt8) :
    decodeFrom .boundary (String.utf8EncodeChar c ++ bytes) =
      some c :: decodeFrom .boundary bytes := by
  have hvalid : c.val.toNat < 0xD800 ∨ 0xDFFF < c.val.toNat ∧ c.val.toNat < 0x110000 := c.valid
  have hc : Char.ofNat c.val.toNat = c := Char.ofNat_toNat c
  unfold String.utf8EncodeChar
  generalize c.val.toNat = n at hvalid hc
  dsimp only
  split
  · rw [List.cons_append, List.nil_append, decodeFrom_one _ (by omega), hc]
  split
  · rw [List.cons_append, List.cons_append, List.nil_append,
      decodeFrom_two _ (by omega) (by omega),
      decodeFrom_owing _ (by omega) (by omega) (by omega), if_pos rfl]
    rw [show (n / 64 % 32 + 192 - 0xC0) * 64 + (n % 64 + 128 - 0x80) = n by omega, hc]
  split
  · rw [List.cons_append, List.cons_append, List.cons_append, List.nil_append,
      decodeFrom_three _ (by omega) (by omega),
      decodeFrom_owing _ (by omega) (by split <;> omega) (by split <;> omega), if_neg (by decide),
      decodeFrom_owing _ (by omega) (by omega) (by omega), if_pos rfl]
    rw [show ((n / 4096 % 16 + 224 - 0xE0) * 64 + (n / 64 % 64 + 128 - 0x80)) * 64 +
      (n % 64 + 128 - 0x80) = n by omega, hc]
  · rw [List.cons_append, List.cons_append, List.cons_append, List.cons_append, List.nil_append,
      decodeFrom_four _ (by omega) (by omega),
      decodeFrom_owing _ (by omega) (by split <;> omega) (by split <;> omega), if_neg (by decide),
      decodeFrom_owing _ (by omega) (by omega) (by omega), if_neg (by decide),
      decodeFrom_owing _ (by omega) (by omega) (by omega), if_pos rfl]
    rw [show (((n / 262144 % 8 + 240 - 0xF0) * 64 + (n / 4096 % 64 + 128 - 0x80)) * 64 +
      (n / 64 % 64 + 128 - 0x80)) * 64 + (n % 64 + 128 - 0x80) = n by omega, hc]

theorem decode_encodeChars (cs : List Char) : decode (encodeChars cs) = cs.map some := by
  induction cs with
  | nil => rfl
  | cons c cs ih =>
    rw [encodeChars, List.flatMap_cons, decode, decodeFrom_utf8EncodeChar, List.map_cons, ← ih]
    rfl

theorem decode?_encodeChars (cs : List Char) : decode? (encodeChars cs) = some cs := by
  rw [decode?, decode_encodeChars]
  induction cs with
  | nil => rfl
  | cons c cs ih => rw [List.map_cons, List.mapM_cons, ih]; rfl

end Tabular.Text.Utf8
