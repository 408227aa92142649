import Tabular.Row
import Tabular.Proofs.Query.Broadcast

/-!
Vectors that hold what is computed row by row, and the steps of evaluation under which they stay
so.
-/
namespace Tabular

variable {α β γ : Type} {rows : List Row}

/-- The vector has the value of every row, in order, or it is a scalar that is the value of each. -/
inductive Columnar (rows : List Row) (f : Row → Option α) : List α → Prop
  | column {vs : List α} (h : List.Forall₂ (fun row v => f row = some v) rows vs) :
      Columnar rows f vs
  | scalar {v : α} (h : ∀ row ∈ rows, f row = some v) : Columnar rows f [v]

namespace Columnar

variable {f : Row → Option α} {g : Row → Option β} {as : List α} {bs : List β}

theorem eq_some_of_singleton {a : α} (h : Columnar rows f [a]) : ∀ row ∈ rows, f row = some a := by
  cases h with
  | column h =>
    obtain ⟨row, rest, hrow, hrest, rfl⟩ := List.forall₂_cons_right_iff.1 h
    cases hrest
    simpa using hrow
  | scalar h => exact h

theorem map (h : Columnar rows f as) (m : α → β) :
    Columnar rows (fun row => do return m (← f row)) (as.map m) := by
  cases h with
  | column h =>
    refine .column (List.forall₂_map_right_iff.2 (h.imp fun row a ha => ?_))
    simp [ha]
  | scalar h =>
    refine .scalar fun row hrow => ?_
    simp [h row hrow]

theorem mapM (h : Columnar rows f as) {m : α → Except Error β} (hm : as.mapM m = .ok bs) :
    Columnar rows (fun row => do (m (← f row)).toOption) bs := by
  rw [Except.mapM_eq_ok_iff] at hm
  cases h with
  | column h =>
    refine .column ?_
    induction h generalizing bs with
    | nil =>
      cases hm
      exact .nil
    | cons hrow _ ih =>
      obtain ⟨b, bs', hb, hbs, rfl⟩ := List.forall₂_cons_left_iff.1 hm
      exact .cons (by simp [hrow, hb, Except.toOption]) (ih hbs)
  | scalar h =>
    obtain ⟨b, bs', hb, hbs, rfl⟩ := List.forall₂_cons_left_iff.1 hm
    cases hbs
    exact .scalar fun row hrow => by simp [h row hrow, hb, Except.toOption]

theorem paired (ha : Columnar rows f as) (hb : Columnar rows g bs) {ps : List (α × β)}
    (h : Broadcast.paired as bs = .ok ps) :
    Columnar rows (fun row => do return (← f row, ← g row)) ps := by
  cases ha with
  | column ha =>
    cases hb with
    | column hb =>
      rw [Broadcast.paired_of_length_eq (ha.length_eq.symm.trans hb.length_eq)] at h
      obtain rfl := Except.ok.inj h
      refine .column ?_
      clear h
      induction ha generalizing bs with
      | nil => exact .nil
      | cons hrow _ ih =>
        obtain ⟨b, bs', hb', hbs, rfl⟩ := List.forall₂_cons_left_iff.1 hb
        exact .cons (by simp [hrow, hb']) (ih hbs)
    | scalar hb =>
      rw [Broadcast.paired_singleton_right] at h
      obtain rfl := Except.ok.inj h
      refine .column (List.forall₂_map_right_iff.2 ?_)
      refine ((List.forall₂_and_left _ _).2 ⟨hb, ha⟩).imp fun row a hrow => ?_
      simp [hrow.1, hrow.2]
  | scalar ha =>
    cases hb with
    | column hb =>
      rw [Broadcast.paired_singleton_left] at h
      obtain rfl := Except.ok.inj h
      refine .column (List.forall₂_map_right_iff.2 ?_)
      refine ((List.forall₂_and_left _ _).2 ⟨ha, hb⟩).imp fun row b hrow => ?_
      simp [hrow.1, hrow.2]
    | scalar hb =>
      rw [Broadcast.paired_singleton_left] at h
      obtain rfl := Except.ok.inj h
      exact .scalar fun row hrow => by simp [ha row hrow, hb row hrow]

theorem tripled {k : Row → Option γ} {cs : List γ} (ha : Columnar rows f as)
    (hb : Columnar rows g bs) (hc : Columnar rows k cs) {ts : List (α × β × γ)}
    (h : Broadcast.tripled as bs cs = .ok ts) :
    Columnar rows (fun row => do return (← f row, ← g row, ← k row)) ts := by
  rw [Broadcast.tripled_eq] at h
  obtain ⟨ps, hps, h⟩ := Except.bind_eq_ok_iff.1 h
  obtain ⟨qs, hqs, h⟩ := Except.bind_eq_ok_iff.1 h
  obtain rfl := Except.pure_eq_ok_iff.1 h
  simpa [Option.bind_assoc] using
    ((ha.paired hb hps).paired hc hqs).map fun p => (p.1.1, p.1.2, p.2)

theorem fit {f : Row → Option Bool} {mask : List Bool} (h : Columnar rows f mask) :
    ∃ bits, Broadcast.fit rows.length mask = .ok bits ∧
      List.Forall₂ (fun row bit => f row = some bit) rows bits := by
  cases h with
  | column h => exact ⟨mask, if_pos h.length_eq.symm, h⟩
  | @scalar bit h =>
    refine ⟨List.replicate rows.length bit, Broadcast.fit_singleton _ _, ?_⟩
    exact Broadcast.forall₂_replicate_right.2 h

end Columnar

end Tabular
