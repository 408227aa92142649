import Tabular.Text.Basic
import Mathlib.Data.List.DropRight

/-! Trimming and lower-casing, in either order and once more. -/
namespace Tabular.Text

theorem toNat_toLower (c : Char) :
    c.toLower.toNat = if 65 ≤ c.toNat ∧ c.toNat ≤ 90 then c.toNat + 32 else c.toNat := by
  have hupper : (c.val ≥ 'A'.val ∧ c.val ≤ 'Z'.val) ↔ 65 ≤ c.toNat ∧ c.toNat ≤ 90 := by
    simp [UInt32.le_iff_toNat_le]
  unfold Char.toLower
  split
  · rename_i h
    have hc := hupper.1 h
    have hadd : (c.val + ('a'.val - 'A'.val)).toNat = (c.toNat + 32) % 4294967296 :=
      UInt32.toNat_add c.val ('a'.val - 'A'.val)
    rw [if_pos hc, ← Char.toNat_val, hadd]
    omega
  · rename_i h
    rw [if_neg (mt hupper.2 h)]

theorem isBlank_toLower (c : Char) : isBlank c.toLower = isBlank c := by
  simp only [isBlank, blankRanges, Ranges.has, List.any_cons, List.any_nil, toNat_toLower]
  grind

theorem toLower_toLower (c : Char) : c.toLower.toLower = c.toLower := by
  refine Char.toNat_inj.1 ?_
  simp only [toNat_toLower]
  grind

theorem lowerAscii_lowerAscii (cs : List Char) : lowerAscii (lowerAscii cs) = lowerAscii cs := by
  rw [lowerAscii, lowerAscii, List.map_map]
  exact List.map_congr_left fun c _ => toLower_toLower c

theorem skipBlanks_lowerAscii (cs : List Char) :
    skipBlanks (lowerAscii cs) = lowerAscii (skipBlanks cs) := by
  have hblank : isBlank ∘ Char.toLower = isBlank := funext isBlank_toLower
  rw [skipBlanks, lowerAscii, List.dropWhile_map, hblank]
  rfl

theorem trimChars_lowerAscii (cs : List Char) :
    trimChars (lowerAscii cs) = lowerAscii (trimChars cs) := by
  have hreverse : ∀ cs, (lowerAscii cs).reverse = lowerAscii cs.reverse :=
    fun cs => (List.map_reverse).symm
  simp only [trimChars, skipBlanks_lowerAscii, hreverse]

theorem trimChars_trimChars (cs : List Char) : trimChars (trimChars cs) = trimChars cs := by
  have htrim : ∀ cs, trimChars cs = (cs.dropWhile isBlank).rdropWhile isBlank := fun _ => rfl
  have hskip : (trimChars cs).dropWhile isBlank = trimChars cs := by
    have hstart : trimChars cs <+: cs.dropWhile isBlank := by
      rw [htrim]
      exact List.rdropWhile_prefix _ _
    refine List.dropWhile_eq_self_iff.2 fun hl => ?_
    rw [hstart.getElem hl]
    exact List.dropWhile_get_zero_not _ _ (hstart.length_le.trans_lt' hl)
  rw [htrim (trimChars cs), hskip, htrim, List.rdropWhile_idempotent]

end Tabular.Text
