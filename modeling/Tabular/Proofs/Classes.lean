import Tabular.Proofs.Literal

/-!
The classes of the values that a column stores. A lax column stores only values of the class of its
affinity. A strict column looks at a value below its tags, but then stores it by them, so that a tag
can divert a value to a class that the column does not admit. That is the only way to one.
-/
namespace Tabular

/-- A value is stored by the affinity that decides, and the tags below it play no part. -/
theorem Raw.store_eq (raw : Raw) : raw.store = raw.decider.coerce raw.untagged := by
  induction raw with
  | tagged a inner ih =>
    cases a with
    | any => exact ih
    | numeric => simp [decider, coerceNumeric, untagged_untagged]
    | _ => simp [decider, StorageClass.coerce, untagged_untagged]
  | _ => rfl

theorem Raw.kind_of_store_error {raw : Raw} {e : Error} (h : raw.store = .error e) :
    e.kind = .typeMismatch := by
  have hclass : ∀ {c : StorageClass} {raw : Raw}, c.coerce raw = .error e →
      e.kind = .typeMismatch := by
    intro c raw h
    unfold StorageClass.coerce at h
    split at h
    · cases h
    · cases h
      rfl
  induction raw with
  | null => cases h
  | tagged a inner ih =>
    cases a with
    | any => exact ih h
    | numeric =>
      simp only [store_tagged, Affinity.coerce_numeric, coerceNumeric] at h
      split at h <;> cases h
      rfl
    | _ => exact hclass h
  | _ => exact hclass h

theorem coerceNumeric_cases {raw : Raw} {v : Value} (h : coerceNumeric raw = .ok v) :
    v = .null ∨ (∃ n, v = .integer n) ∨ (∃ x, v = .real x) ∨ ∃ s, v = .text s := by
  unfold coerceNumeric at h
  split at h
  · rename_i s _
    obtain rfl := Except.ok.inj h
    rcases numericOfText_cases s with h | h | h | h
    · exact .inl h
    · exact .inr (.inl h)
    · exact .inr (.inr (.inl h))
    · exact .inr (.inr (.inr ⟨s, h⟩))
  · cases h
    exact .inr (.inr (.inl ⟨_, rfl⟩))
  · cases h
    exact .inl rfl
  · cases h
    exact .inr (.inl ⟨_, rfl⟩)
  · cases h
    exact .inr (.inl ⟨_, rfl⟩)
  · cases h

def Raw.spellsNumber (raw : Raw) : Bool :=
  match raw.untagged with
  | .text s => (numericOfText s).number?.isSome
  | _ => false

namespace Affinity

variable {a : Affinity} {raw : Raw}

theorem bytes_of_accepts (h : blob.accepts raw = true) : ∃ b, raw.untagged = .bytes b := by
  unfold accepts at h
  cases hu : raw.untagged <;> simp_all

theorem text_of_accepts (h : text.accepts raw = true) : ∃ s, raw.untagged = .text s := by
  unfold accepts at h
  cases hu : raw.untagged <;> simp_all

theorem form?_text_of_accepts (ha : a = .integer ∨ a = .real) (h : a.accepts raw = true) :
    StorageClass.text.form? raw.untagged = none := by
  unfold accepts at h
  rcases ha with rfl | rfl <;> cases hu : raw.untagged <;> simp_all [StorageClass.form?]

theorem coerceNumeric_of_accepts (ha : a = .integer ∨ a = .real) (h : a.accepts raw = true) :
    coerceNumeric raw.untagged = raw.untagged.store := by
  unfold accepts at h
  rcases ha with rfl | rfl <;> cases hu : raw.untagged <;> simp [hu] at h <;> rfl

end Affinity

namespace Column

/-- NULL, or a value of a class that belongs in the column: that of its affinity, and in a strict
column also what needs no conversion. -/
def admits (c : Column) (v : Value) : Bool :=
  match c.affinity, v with
  | .any, _ => true
  | .integer, .integer _ => true
  | .real, .real _ => true
  | .real, .integer _ => c.strict
  | .text, .text _ => true
  | .blob, .blob _ => true
  | .blob, .object _ => !c.strict
  | .numeric, .integer _ | .numeric, .real _ | .numeric, .text _ => true
  | _, .null => true
  | _, _ => false

/-- The tag that decides takes the value out of the classes of a strict column. -/
def diverts (c : Column) (raw : Raw) : Bool :=
  c.strict && !raw.isNull &&
    match c.affinity, raw.decider with
    | .integer, .real => true
    | .text, .integer | .text, .real => true
    | .text, .numeric => raw.spellsNumber
    | .blob, .text => true
    | .integer, .blob | .real, .blob | .text, .blob | .numeric, .blob => true
    | _, _ => false

variable {c : Column} {raw : Raw} {v : Value}

theorem diverts_of_lax (lax : c.strict = false) (raw : Raw) : c.diverts raw = false := by
  simp [diverts, lax]

theorem diverts_toRaw (c : Column) (v : Value) : c.diverts v.toRaw = false := by
  have hany : v.toRaw.decider = .any := by cases v <;> rfl
  unfold diverts
  rw [hany]
  cases c.affinity <;> simp

theorem admits_null (c : Column) : c.admits .null = true := by
  unfold admits
  cases c.affinity <;> rfl

theorem admits_integer (integer : c.affinity = .integer) (n : Int64) :
    c.admits (.integer n) = true := by simp [admits, integer]

theorem admits_congr {d : Column} (h : c.equals d = true) (v : Value) :
    c.admits v = d.admits v := by
  simp only [equals, Bool.and_eq_true, beq_iff_eq] at h
  unfold admits
  rw [h.1.1.1.2, h.1.1.2]

theorem admits_of_coerce (lax : c.strict = false) (h : c.affinity.coerce raw = .ok v) :
    c.admits v = true := by
  unfold admits
  cases ha : c.affinity with
  | any => cases v <;> rfl
  | numeric =>
    rw [ha, Affinity.coerce_numeric] at h
    rcases coerceNumeric_cases h with rfl | ⟨n, rfl⟩ | ⟨x, rfl⟩ | ⟨s, rfl⟩ <;> rfl
  | _ =>
    rw [ha] at h
    have hv := StorageClass.storageClass_of_coerce h
    cases v <;> simp_all [Value.storageClass]

theorem admits_of_accepts (strict : c.strict = true) (accepts : c.affinity.accepts raw = true)
    (stored : raw.untagged.store = .ok v) : c.admits v = true := by
  unfold Affinity.accepts at accepts
  unfold admits
  cases hu : raw.untagged with
  | tagged a inner => exact absurd hu (Raw.untagged_ne_tagged _ a inner)
  | _ =>
    rw [hu] at stored accepts
    cases stored
    cases ha : c.affinity <;> simp_all

theorem admits_iff_of_numeric (strict : c.strict = true) (present : raw.isNull = false)
    (accepts : c.affinity.accepts raw = true) (decider : raw.decider = .numeric)
    (stored : coerceNumeric raw.untagged = .ok v) :
    c.admits v = true ↔ c.diverts raw = false := by
  cases ha : c.affinity with
  | text =>
    obtain ⟨s, hs⟩ := Affinity.text_of_accepts (ha ▸ accepts)
    have hspells : raw.spellsNumber = (numericOfText s).number?.isSome := by
      simp [Raw.spellsNumber, hs]
    rw [hs] at stored
    obtain rfl : numericOfText s = v := Except.ok.inj stored
    rcases numericOfText_cases s with h | ⟨n, h⟩ | ⟨x, h⟩ | h <;>
      simp [admits, diverts, ha, decider, strict, present, hspells, h, Value.number?]
  | blob =>
    obtain ⟨b, hb⟩ := Affinity.bytes_of_accepts (ha ▸ accepts)
    rw [hb] at stored
    cases stored
  | numeric =>
    rcases coerceNumeric_cases stored with rfl | ⟨n, rfl⟩ | ⟨x, rfl⟩ | ⟨s, rfl⟩ <;>
      simp [admits, diverts, ha, decider]
  | any => simp [admits, diverts, ha]
  | _ =>
    have hnumber : coerceNumeric raw.untagged = raw.untagged.store :=
      Affinity.coerceNumeric_of_accepts (by simp [ha]) accepts
    rw [admits_of_accepts strict accepts (hnumber ▸ stored)]
    simp [diverts, ha, decider]

/-- A tag that asks for a number leads out of columns of text, and one that asks for a real number
out of columns of integers. Bytes have no form as a number. -/
theorem admits_iff_of_number (strict : c.strict = true) (present : raw.isNull = false)
    (accepts : c.affinity.accepts raw = true) {k : StorageClass}
    (decider : k = .integer ∧ raw.decider = .integer ∨ k = .real ∧ raw.decider = .real)
    (form : k.form? raw.untagged = some v) : c.admits v = true ↔ c.diverts raw = false := by
  have hv := StorageClass.storageClass_of_form? form
  cases ha : c.affinity with
  | blob =>
    obtain ⟨b, hb⟩ := Affinity.bytes_of_accepts (ha ▸ accepts)
    rcases decider with ⟨rfl, -⟩ | ⟨rfl, -⟩ <;> simp [hb, StorageClass.form?] at form
  | _ =>
    rcases decider with ⟨rfl, hd⟩ | ⟨rfl, hd⟩ <;> cases v <;> cases hv <;>
      simp [admits, diverts, ha, hd, strict, present]

theorem admits_iff_of_strict (strict : c.strict = true) (present : raw.isNull = false)
    (accepts : c.affinity.accepts raw = true) (stored : raw.store = .ok v) :
    c.admits v = true ↔ c.diverts raw = false := by
  rw [Raw.store_eq] at stored
  have hform : ∀ {k : StorageClass}, k.coerce raw.untagged = .ok v →
      k.form? raw.untagged = some v := by
    intro k h
    simpa [Raw.untagged_untagged] using StorageClass.coerce_eq_ok_iff.1 h
  cases decider : raw.decider with
  | any =>
    rw [decider] at stored
    simp [admits_of_accepts strict accepts stored, diverts, decider]
  | numeric =>
    rw [decider] at stored
    exact admits_iff_of_numeric strict present accepts decider stored
  | integer =>
    rw [decider] at stored
    exact admits_iff_of_number strict present accepts (.inl ⟨rfl, decider⟩) (hform stored)
  | real =>
    rw [decider] at stored
    exact admits_iff_of_number strict present accepts (.inr ⟨rfl, decider⟩) (hform stored)
  | text =>
    rw [decider] at stored
    have h := hform (k := .text) stored
    have hv := StorageClass.storageClass_of_form? h
    cases v with
    | text s =>
      cases ha : c.affinity with
      | integer | real =>
        simp [Affinity.form?_text_of_accepts (by simp [ha]) accepts] at h
      | _ => simp [admits, diverts, ha, decider, strict, present]
    | _ => cases hv
  | blob =>
    rw [decider] at stored
    have h := hform (k := .blob) stored
    cases ha : c.affinity with
    | blob =>
      obtain ⟨b, hb⟩ := Affinity.bytes_of_accepts (ha ▸ accepts)
      rw [hb] at h
      cases h
      simp [admits, diverts, ha, decider]
    | _ =>
      have hv := StorageClass.storageClass_of_form? h
      cases v <;> cases hv <;> simp [admits, diverts, ha, decider, strict, present]

/-- What a column stores it admits, unless a tag diverts it. -/
theorem admits_iff (h : c.store raw = .ok v) : c.admits v = true ↔ c.diverts raw = false := by
  cases hnull : raw.isNull with
  | true =>
    obtain rfl : v = .null := (store_eq_null_iff h).2 (.inl hnull)
    simp [admits_null, diverts, hnull]
  | false =>
    cases strict : c.strict with
    | true =>
      obtain ⟨haccepts, hstored⟩ := (store_strict_eq_ok_iff strict hnull).1 h
      exact admits_iff_of_strict strict hnull haccepts hstored
    | false =>
      rw [store_lax strict hnull] at h
      simp [admits_of_coerce strict h, diverts_of_lax strict]

theorem accepts_toRaw_eq_admits (strict : c.strict = true) (hv : v ≠ .null) :
    c.affinity.accepts v.toRaw = c.admits v := by
  unfold Affinity.accepts admits
  rw [Value.untagged_toRaw]
  cases c.affinity <;> cases v <;> simp_all [Value.toRaw]

/-- What a column stores it stores again as it is, and where a tag diverted it, not at all. -/
theorem store_toRaw_cases (h : c.store raw = .ok v) :
    c.diverts raw = false ∧ c.store v.toRaw = .ok v ∨
      c.diverts raw = true ∧ v ≠ .null ∧ ∃ e, c.store v.toRaw = .error e := by
  have hadmits := admits_iff h
  by_cases hv : v = .null
  · subst hv
    exact .inl ⟨hadmits.1 c.admits_null, rfl⟩
  have present : raw.isNull = false :=
    eq_false_of_ne_true fun hnull => hv ((store_eq_null_iff h).2 (.inl hnull))
  have hagain := Value.isNull_toRaw_of_ne hv
  cases strict : c.strict with
  | false =>
    rw [store_lax strict present] at h
    refine .inl ⟨diverts_of_lax strict raw, ?_⟩
    rw [store_lax strict hagain]
    exact Affinity.coerce_toRaw h
  | true =>
    have haccepts := accepts_toRaw_eq_admits strict hv
    cases hd : c.diverts raw with
    | false =>
      rw [hadmits.2 hd] at haccepts
      exact .inl ⟨rfl, (store_strict_eq_ok_iff strict hagain).2 ⟨haccepts, v.store_toRaw⟩⟩
    | true =>
      refine .inr ⟨rfl, hv, ?_⟩
      have hrefused : c.affinity.accepts v.toRaw = false := by
        rw [haccepts]
        refine eq_false_of_ne_true fun hadmitted => ?_
        rw [hadmits.1 hadmitted] at hd
        cases hd
      exact ⟨.strictColumn c.name c.affinity v.toRaw, by simp [store, hagain, strict, hrefused]⟩

theorem kind_of_store_error {e : Error} (h : c.store raw = .error e) : e.kind = .typeMismatch := by
  unfold store at h
  split at h
  · cases h
  split at h
  · split at h
    · exact Raw.kind_of_store_error h
    · cases h
      rfl
  · have hcoerce : (Raw.tagged c.affinity raw).store = .error e := h
    exact Raw.kind_of_store_error hcoerce

theorem isNull_of_store_eq_error {e : Error} (h : c.store raw = .error e) :
    raw.isNull = false := by
  refine eq_false_of_ne_true fun hnull => ?_
  rw [store, if_pos hnull] at h
  cases h

theorem resolve_eq_error {e : Error} (h : c.store (c.fill raw) = .error e) (deferred : Bool) :
    c.resolve raw deferred = .error e := by
  simp [resolve, isNull_of_store_eq_error h, h]

end Column

end Tabular
