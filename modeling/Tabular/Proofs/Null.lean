import Tabular.Proofs.Coercion
import Tabular.Proofs.Text

/-!
Cells that are stored as NULL. A value that is not NULL becomes NULL only where it is converted to a
number: then text that stands for NULL is read as NULL. The check for NULL comes before that.
-/
namespace Tabular

/-- Neither letter case nor blanks around it decide whether a text stands for NULL. -/
theorem isNullText_lower_trim (s : String) :
    isNullText (String.ofList (Text.lowerAscii (Text.trimChars s.toList))) = isNullText s := by
  simp only [isNullText, String.toList_ofList, Text.trimChars_lowerAscii, Text.trimChars_trimChars,
    Text.lowerAscii_lowerAscii]

theorem numericOfText_eq_null_iff {s : String} :
    numericOfText s = .null ↔ isNullText s = true := by
  unfold numericOfText
  simp only [isNullText_lower_trim]
  grind

theorem Value.isNull_toRaw_of_ne {v : Value} (hv : v ≠ .null) : v.toRaw.isNull = false := by
  rw [isNull_toRaw]
  exact eq_false_of_ne_true (mt v.isNull_iff.1 hv)

namespace StorageClass

theorem coerce_ne_null {c : StorageClass} (hc : c ≠ .null) (raw : Raw) :
    c.coerce raw ≠ .ok .null := by
  intro h
  exact hc (storageClass_of_coerce h).symm

end StorageClass

namespace Raw

/-- The affinity that decides in which form a value is stored: the outermost with a preference. -/
def decider : Raw → Affinity
  | .tagged .any inner => inner.decider
  | .tagged a _ => a
  | _ => .any

/-- Text that stands for NULL, whether or not it is tagged. -/
def spellsNull (raw : Raw) : Bool :=
  match raw.untagged with
  | .text s => isNullText s
  | _ => false

@[simp] theorem spellsNull_tagged (a : Affinity) (v : Raw) :
    (tagged a v).spellsNull = v.spellsNull := rfl

end Raw

theorem coerceNumeric_eq_null_iff {raw : Raw} (present : raw.isNull = false) :
    coerceNumeric raw = .ok .null ↔ raw.spellsNull = true := by
  unfold Raw.isNull at present
  unfold coerceNumeric Raw.spellsNull
  cases h : raw.untagged <;> simp_all [numericOfText_eq_null_iff]

theorem Raw.store_eq_null_iff {raw : Raw} (present : raw.isNull = false) :
    raw.store = .ok .null ↔ raw.decider = .numeric ∧ raw.spellsNull = true := by
  induction raw with
  | null => cases present
  | tagged a inner ih =>
    rw [isNull_tagged] at present
    cases a with
    | any => exact ih present
    | numeric => simpa [decider] using coerceNumeric_eq_null_iff present
    | _ => simp [decider, StorageClass.coerce_ne_null]
  | _ => simp [store, decider, StorageClass.coerce_ne_null]

namespace Column

variable {c : Column} {raw : Raw} {v : Value}

/-- A value that is not NULL but is stored as NULL in the column. -/
def erases (c : Column) (raw : Raw) : Bool :=
  (if c.strict then raw.decider else (Raw.tagged c.affinity raw).decider) == .numeric &&
    raw.spellsNull

theorem store_eq_null_iff (h : c.store raw = .ok v) :
    v = .null ↔ raw.isNull = true ∨ c.erases raw = true := by
  unfold store at h
  cases present : raw.isNull with
  | true =>
    rw [present, if_pos rfl] at h
    simp [(Except.ok.inj h).symm]
  | false =>
    simp only [present, Bool.false_eq_true, if_false] at h
    have hstore : (if c.strict then raw else .tagged c.affinity raw).store = .ok v := by
      cases strict : c.strict with
      | true =>
        simp only [strict, if_true] at h ⊢
        split at h
        · exact h
        · cases h
      | false => simpa [strict] using h
    have hnull := @Raw.store_eq_null_iff (if c.strict then raw else .tagged c.affinity raw)
      (by split <;> simpa using present)
    rw [hstore, Except.ok.injEq] at hnull
    rw [hnull, erases]
    cases c.strict <;> simp

theorem erases_toRaw (h : c.store raw = .ok v) (hv : v ≠ .null) : c.erases v.toRaw = false := by
  have present := Value.isNull_toRaw_of_ne hv
  have hagain : c.strict = false → c.store v.toRaw = .ok v := by
    intro lax
    have hraw : raw.isNull = false := by
      refine eq_false_of_ne_true fun hnull => hv ?_
      rw [store, if_pos hnull] at h
      exact (Except.ok.inj h).symm
    have hc : c.affinity.coerce raw = .ok v := by simpa [store, hraw, lax] using h
    simpa [store, present, lax] using Affinity.coerce_toRaw hc
  cases strict : c.strict with
  | true =>
    have hany : v.toRaw.decider = .any := by cases v <;> rfl
    simp [erases, strict, hany]
  | false =>
    have hnull := mt (store_eq_null_iff (hagain strict)).2 hv
    simpa [present] using hnull

/-- A cell that leaves a column without a value, though it must have one: it is erased, or the value
is awaited from elsewhere. -/
def leavesNull (c : Column) (raw : Raw) : Bool :=
  c.erases (c.fill raw) || c.autoincrement && (c.fill raw).isNull

theorem resolve_eq_ok_iff {deferred : Bool} : c.resolve raw deferred = .ok v ↔
    ((c.fill raw).isNull = true → c.nullable = false → deferred = true) ∧
      c.store (c.fill raw) = .ok v := by
  unfold resolve
  cases hnull : (c.fill raw).isNull <;> cases c.nullable <;> cases deferred <;> simp [hnull]

/-- A column that is not nullable takes NULL only where it awaits a value. -/
theorem resolve_eq_null_iff (required : c.nullable = false)
    (h : c.resolve raw c.autoincrement = .ok v) : v = .null ↔ c.leavesNull raw = true := by
  obtain ⟨hcheck, hstore⟩ := resolve_eq_ok_iff.1 h
  have hawaited : (c.fill raw).isNull = true → c.autoincrement = true :=
    fun hnull => hcheck hnull required
  rw [store_eq_null_iff hstore, leavesNull, Bool.or_eq_true, Bool.and_eq_true]
  tauto

theorem resolve_of_not_isNull (present : raw.isNull = false) (deferred : Bool) :
    c.resolve raw deferred = c.store raw := by
  simp [resolve, fill, present]

end Column
end Tabular
