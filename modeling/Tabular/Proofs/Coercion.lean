import Tabular.Column
import Mathlib.Order.Basic

/-! What an affinity or a storage class has made of a value, it keeps. -/
namespace Tabular

theorem StorageClass.coerce_eq_ok_iff {c : StorageClass} {raw : Raw} {v : Value} :
    c.coerce raw = .ok v ↔ c.form? raw.untagged = some v := by
  unfold coerce
  split <;> simp_all

theorem StorageClass.storageClass_of_form? {c : StorageClass} {raw : Raw} {v : Value}
    (h : c.form? raw = some v) : v.storageClass = c := by
  cases c <;> cases raw <;>
    simp only [form?, Option.map_eq_some_iff, Option.some.injEq, reduceCtorEq,
      Option.ite_none_right_eq_some] at h <;>
    grind [Value.storageClass]

theorem StorageClass.storageClass_of_coerce {c : StorageClass} {raw : Raw} {v : Value}
    (h : c.coerce raw = .ok v) : v.storageClass = c :=
  storageClass_of_form? (coerce_eq_ok_iff.1 h)

theorem Value.form?_toRaw (v : Value) : v.storageClass.form? v.toRaw = some v := by
  cases v <;> rfl

theorem StorageClass.coerce_toRaw {c : StorageClass} {raw : Raw} {v : Value}
    (h : c.coerce raw = .ok v) : c.coerce v.toRaw = .ok v := by
  rw [coerce_eq_ok_iff] at h ⊢
  obtain rfl := storageClass_of_form? h
  rw [Value.untagged_toRaw]
  exact v.form?_toRaw

theorem numericOfText_cases (s : String) :
    numericOfText s = .null ∨ (∃ n, numericOfText s = .integer n) ∨
      (∃ x, numericOfText s = .real x) ∨ numericOfText s = .text s := by
  unfold numericOfText
  dsimp only
  split
  · exact .inl rfl
  split
  · exact .inr (.inl ⟨_, rfl⟩)
  split
  · exact .inr (.inl ⟨_, rfl⟩)
  split
  · exact .inr (.inl ⟨_, rfl⟩)
  · exact .inr (.inr (.inl ⟨_, rfl⟩))
  · exact .inr (.inr (.inr rfl))

theorem coerceNumeric_numericOfText (s : String) :
    coerceNumeric (numericOfText s).toRaw = .ok (numericOfText s) := by
  rcases numericOfText_cases s with h | ⟨n, h⟩ | ⟨x, h⟩ | h <;> rw [h]
  · rfl
  · rfl
  · rfl
  · simp [coerceNumeric, Value.toRaw, Raw.untagged, h]

theorem coerceNumeric_toRaw {raw : Raw} {v : Value} (h : coerceNumeric raw = .ok v) :
    coerceNumeric v.toRaw = .ok v := by
  unfold coerceNumeric at h
  split at h
  · obtain rfl := Except.ok.inj h
    exact coerceNumeric_numericOfText _
  · cases h
    rfl
  · cases h
    rfl
  · cases h
    rfl
  · cases h
    rfl
  · cases h

/-- Coercing a coerced value gives the same value. -/
theorem Affinity.coerce_toRaw {a : Affinity} {raw : Raw} {v : Value} (h : a.coerce raw = .ok v) :
    a.coerce v.toRaw = .ok v := by
  cases a with
  | numeric => exact coerceNumeric_toRaw h
  | any => exact Value.store_toRaw v
  | _ => exact StorageClass.coerce_toRaw h

/-- What an affinity, a storage class or the tags of a value make of it, they leave as it is. -/
theorem coerced_toRaw {raw : Raw} {v : Value} :
    (∀ a : Affinity, a.coerce raw = .ok v → a.coerce v.toRaw = .ok v) ∧
      (∀ c : StorageClass, c.coerce raw = .ok v → c.coerce v.toRaw = .ok v) ∧
      (raw.store = .ok v → v.toRaw.store = .ok v) :=
  ⟨fun _ => Affinity.coerce_toRaw, fun _ => StorageClass.coerce_toRaw, fun _ => v.store_toRaw⟩

/-- Text under two tags, read as a real number. -/
theorem coerced_toRaw_thousand :
    let raw : Raw := .tagged .any (.tagged .numeric (.text " 1e3 "))
    let v : Value := .real ⟨0x408F400000000000⟩
    (Affinity.numeric.coerce raw = .ok v ∧ Affinity.numeric.coerce v.toRaw = .ok v) ∧
      (StorageClass.real.coerce raw = .ok v ∧ StorageClass.real.coerce v.toRaw = .ok v) ∧
      raw.store = .ok v ∧ v.toRaw.store = .ok v := by
  intro raw v
  have hnumeric : Affinity.numeric.coerce raw = .ok v := by decide +kernel
  have hreal : StorageClass.real.coerce raw = .ok v := by decide +kernel
  have hstore : raw.store = .ok v := by decide +kernel
  exact ⟨⟨hnumeric, coerced_toRaw.1 _ hnumeric⟩, ⟨hreal, coerced_toRaw.2.1 _ hreal⟩, hstore,
    coerced_toRaw.2.2 hstore⟩

theorem Column.coerce_of_resolve {c : Column} {raw : Raw} {deferred : Bool} {v : Value}
    (lax : c.strict = false) (present : raw.isNull = false) (h : c.resolve raw deferred = .ok v) :
    c.affinity.coerce raw = .ok v := by
  simpa [resolve, fill, store, present, lax] using h

end Tabular
