import Tabular.Query.Evaluate
import Tabular.Proofs.Null

/-!
Literals and stored values. A column stores a value and turns it into a literal on different ways: a
literal always takes the form that the affinity prefers, but a strict column stores values as they
are. The two forms are equal to conditions, but for text in strict numeric columns.
-/
namespace Tabular

theorem Binary64.isNaN_ofInt (n : Int) : (ofInt n).isNaN = false := by
  have hle := nearestMagnitude_le n.natAbs 1
  have hlt : nearestMagnitude n.natAbs 1 < 0x8000000000000000 :=
    Nat.lt_of_le_of_lt hle (by decide)
  unfold isNaN ofInt nearestRatio
  rw [magnitude_ofMagnitude _ hlt]
  simpa using hle

theorem Binary64.sameNumber_self {x : Binary64} : x.sameNumber x = !x.isNaN := by
  simp [sameNumber]

namespace Value

def isNaN : Value → Bool
  | .real x => x.isNaN
  | _ => false

theorem matches?_self (v : Value) : v.matches? v = !v.isNaN := by
  cases v <;> simp [matches?, isNaN, Binary64.sameNumber_self]

theorem matches?_text (s : String) (v : Value) : (text s).matches? v = (text s == v) := by
  cases v <;> rfl

end Value

/-- Affinities turn what they accept into something equal. Only text is not left as text by the
numeric affinity. -/
theorem Affinity.exists_coerce_of_accepts {a : Affinity} {raw : Raw} {v : Value}
    (untagged : raw.untagged = raw) (accepts : a.accepts raw = true) (hv : raw.store = .ok v)
    (number : v.isNaN = false) (htext : ¬ (a = .numeric ∧ ∃ s, raw = .text s)) :
    ∃ w, a.coerce raw = .ok w ∧ v.matches? w = true := by
  have hsame : a.coerce raw = .ok v → ∃ w, a.coerce raw = .ok w ∧ v.matches? w = true := fun h =>
    ⟨v, h, by rw [Value.matches?_self, number, Bool.not_false]⟩
  cases raw with
  | tagged b inner => exact absurd untagged (Raw.untagged_ne_tagged _ b inner)
  | bool b =>
    cases hv
    cases a with
    | text | blob => cases accepts
    | real => exact ⟨_, rfl, by cases b <;> decide⟩
    | _ => exact hsame rfl
  | int n =>
    cases hv
    cases a with
    | text | blob => cases accepts
    | real =>
      exact ⟨_, rfl, by simp [Value.matches?, Binary64.sameNumber_self, Binary64.isNaN_ofInt]⟩
    | _ => exact hsame rfl
  | real x =>
    cases hv
    cases a with
    | real | numeric | any => exact hsame rfl
    | _ => cases accepts
  | text s =>
    cases hv
    cases a with
    | text | any => exact hsame rfl
    | numeric => exact absurd ⟨rfl, s, rfl⟩ htext
    | _ => cases accepts
  | bytes b =>
    cases hv
    cases a with
    | blob | any => exact hsame rfl
    | _ => cases accepts
  | null =>
    cases hv
    cases a with
    | numeric | any => exact hsame rfl
    | _ => cases accepts
  | object d =>
    cases hv
    cases a with
    | any => exact hsame rfl
    | _ => cases accepts

namespace Column

variable {c : Column} {raw : Raw} {v : Value}

theorem store_strict_eq_ok_iff (strict : c.strict = true) (present : raw.isNull = false) :
    c.store raw = .ok v ↔ c.affinity.accepts raw = true ∧ raw.store = .ok v := by
  simp only [store, present, strict, Bool.false_eq_true, if_false, if_true]
  split <;> simp_all

theorem store_lax (lax : c.strict = false) (present : raw.isNull = false) :
    c.store raw = c.affinity.coerce raw := by
  simp [store, present, lax]

theorem erases_of_untagged (keeps : c.strict = true ∨ c.affinity ≠ .numeric)
    (untagged : raw.untagged = raw) : c.erases raw = false := by
  have hany : raw.decider = .any := by
    cases raw with
    | tagged a inner => exact absurd untagged (Raw.untagged_ne_tagged _ a inner)
    | _ => rfl
  unfold erases
  rcases keeps with strict | hne
  · simp [strict, hany]
  · have htagged : (Raw.tagged c.affinity raw).decider = c.affinity := by
      cases ha : c.affinity with
      | any => exact hany
      | _ => rfl
    cases c.strict <;> simp [hany, htagged, hne]

theorem erases_of_integer (untagged : raw.untagged = raw) (integer : c.affinity = .integer) :
    c.erases raw = false := erases_of_untagged (.inr (by simp [integer])) untagged

theorem accepts_toRaw {a : Affinity} (untagged : raw.untagged = raw) (h : a.accepts raw = true)
    (hv : raw.store = .ok v) : a.accepts v.toRaw = true := by
  cases raw with
  | tagged b inner => exact absurd untagged (Raw.untagged_ne_tagged _ b inner)
  | bool b =>
    cases hv
    cases a <;> exact h
  | _ =>
    cases hv
    exact h

theorem store_toRaw (untagged : raw.untagged = raw) (h : c.store raw = .ok v) :
    c.store v.toRaw = .ok v := by
  cases hv : v.isNull with
  | true =>
    obtain rfl := v.isNull_iff.1 hv
    rfl
  | false =>
    have present : raw.isNull = false := by
      refine eq_false_of_ne_true fun hnull => ?_
      rw [(store_eq_null_iff h).2 (.inl hnull)] at hv
      cases hv
    have hagain : v.toRaw.isNull = false := by rwa [Value.isNull_toRaw]
    cases strict : c.strict with
    | true =>
      rw [store_strict_eq_ok_iff strict present] at h
      exact (store_strict_eq_ok_iff strict hagain).2
        ⟨accepts_toRaw untagged h.1 h.2, v.store_toRaw⟩
    | false =>
      rw [store_lax strict present] at h
      rw [store_lax strict hagain]
      exact Affinity.coerce_toRaw h

/-- Text that a strict numeric column stores as it is, while a literal is the number, the truth
value or the NULL that it spells. -/
def misreads (c : Column) (raw : Raw) : Bool :=
  c.strict && c.affinity == .numeric &&
    match raw with
    | .text s => numericOfText s != .text s
    | _ => false

theorem store_literal (present : raw.isNull = false) {u : Value}
    (h : c.affinity.coerce raw = .ok u) : (c.literal raw).store = .ok u := by
  simp [literal, present, h]

/-- A literal is equal to what the column stores of the same value, unless the column misreads
it. -/
theorem matches?_literal (untagged : raw.untagged = raw) (present : raw.isNull = false)
    (h : c.store raw = .ok v) (number : v.isNaN = false) {u : Value}
    (hu : (c.literal raw).store = .ok u) : v.matches? u = !c.misreads raw := by
  have hliteral : ∀ w, c.affinity.coerce raw = .ok w → u = w := fun w hw =>
    Except.ok.inj (hu.symm.trans (store_literal present hw))
  cases strict : c.strict with
  | false =>
    rw [store_lax strict present] at h
    rw [hliteral v h]
    simp [Value.matches?_self, number, misreads, strict]
  | true =>
    obtain ⟨haccepts, hv⟩ := (store_strict_eq_ok_iff strict present).1 h
    by_cases htext : c.affinity = .numeric ∧ ∃ s, raw = .text s
    · obtain ⟨hnumeric, s, rfl⟩ := htext
      cases hv
      have hnumber : u = numericOfText s := hliteral _ (by rw [hnumeric]; rfl)
      rw [hnumber, Value.matches?_text]
      simp [misreads, strict, hnumeric]
      rw [bne, Bool.not_not, BEq.comm]
    · obtain ⟨w, hw, hmatches⟩ :=
        Affinity.exists_coerce_of_accepts untagged haccepts hv number htext
      rw [hliteral w hw, hmatches]
      cases raw <;> simp_all [misreads]

end Column
end Tabular
