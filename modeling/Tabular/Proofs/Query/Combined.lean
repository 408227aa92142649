import Tabular.Proofs.Query.Chain
import Tabular.Proofs.Query.Select

/-!
Conditions that are chained in a filter, beside the one condition that they make when they are
combined. A chain fits every mask to the table before it joins it to the others. In a combined
condition the masks meet each other first, and only what comes of them is fitted to the table.
-/
namespace Tabular

namespace Broadcast

theorem stretch_map {α β : Type} (f : α → β) (n : Nat) (as : List α) :
    stretch n (as.map f) = (stretch n as).map f := by
  unfold stretch
  split
  · rename_i b h
    obtain ⟨a, rfl, rfl⟩ := List.map_eq_singleton_iff.1 h
    simp
  · rename_i h
    split
    · exact absurd rfl (h _)
    · rfl

theorem fit_eq_ok_iff {n : Nat} {mask bits : List Bool} :
    fit n mask = .ok bits ↔ (mask.length = n ∨ mask.length = 1) ∧ bits = stretch n mask := by
  unfold fit
  split
  · rename_i hn
    simp [hn, stretch_of_length_eq hn, eq_comm]
  split
  · rename_i hn hone
    simp [hone, eq_comm]
  · rename_i hn hone
    simp [hn, hone]

/-- Masks that have met can be fitted exactly if each of them can. A mask of any other length meets
no mask that fits, and nothing brings it back to a length that does. -/
theorem fit_combine_eq_ok_iff {n : Nat} {c : Connective} {as bs bits : List Bool} :
    (∃ mask, combine c as bs = .ok mask ∧ fit n mask = .ok bits) ↔
      ∃ as' bs', fit n as = .ok as' ∧ fit n bs = .ok bs' ∧ bits = List.zipWith c.apply as' bs' := by
  have hstretch : ∀ m, commonLength as.length bs.length = .ok m → m = n ∨ m = 1 →
      stretch n (((stretch m as).zip (stretch m bs)).map fun p => c.apply p.1 p.2) =
        List.zipWith c.apply (stretch n as) (stretch n bs) := by
    intro m hm hmn
    rw [stretch_map, stretch_zip_stretch hm hmn, List.zip, List.map_zipWith]
  simp only [combine_eq_ok_iff, fit_eq_ok_iff]
  constructor
  · rintro ⟨mask, ⟨m, hm, rfl⟩, hlength, rfl⟩
    rw [List.length_map, length_zip_stretch hm] at hlength
    have hlengths := commonLength_eq_ok_iff.1 hm
    exact ⟨_, _, ⟨by omega, rfl⟩, ⟨by omega, rfl⟩, hstretch m hm hlength⟩
  · rintro ⟨as', bs', ⟨ha, rfl⟩, ⟨hb, rfl⟩, rfl⟩
    obtain ⟨m, hm, hmn⟩ : ∃ m, commonLength as.length bs.length = .ok m ∧ (m = n ∨ m = 1) := by
      rcases ha with ha | ha <;> rcases hb with hb | hb <;> simp [ha, hb]
    refine ⟨_, ⟨m, hm, rfl⟩, ?_, (hstretch m hm hmn).symm⟩
    rwa [List.length_map, length_zip_stretch hm]

end Broadcast

/-- The condition that conditions make when they are combined from left to right. -/
def Condition.joinAll (first : Condition) (others : List (Connective × Condition)) : Condition :=
  others.foldl (fun c next => .join next.1 c next.2) first

section

variable {db : Database} {t : Table}

theorem Predicate.mask_join_eq_ok_iff {a b : Condition} {c : Connective} {bits : List Bool} :
    (condition (.join c a b)).mask db t = .ok bits ↔
      ∃ as bs, (condition a).mask db t = .ok as ∧ (condition b).mask db t = .ok bs ∧
        bits = List.zipWith c.apply as bs := by
  simp only [Predicate.mask, Condition.join, Condition.mask, Operand.mask,
    Except.bind_eq_ok_iff]
  constructor
  · rintro ⟨mask, ⟨as, ha, bs, hb, hcombine⟩, hfit⟩
    obtain ⟨as', bs', ha', hb', rfl⟩ := Broadcast.fit_combine_eq_ok_iff.1 ⟨mask, hcombine, hfit⟩
    exact ⟨as', bs', ⟨as, ha, ha'⟩, ⟨bs, hb, hb'⟩, rfl⟩
  · rintro ⟨as', bs', ⟨as, ha, ha'⟩, ⟨bs, hb, hb'⟩, rfl⟩
    obtain ⟨mask, hcombine, hfit⟩ := Broadcast.fit_combine_eq_ok_iff.2 ⟨as', bs', ha', hb', rfl⟩
    exact ⟨mask, ⟨as, ha, bs, hb, hcombine⟩, hfit⟩

/-- A tree that agrees with a condition still does when the next condition is pushed to the one and
combined with the other. -/
theorem PredicateTree.mask_push_condition {root : PredicateTree} {a : Condition}
    (h : (root.mask db t).toOption = ((Predicate.condition a).mask db t).toOption)
    (c : Connective) (b : Condition) :
    ((root.push c (.condition b)).mask db t).toOption =
      ((Predicate.condition (.join c a b)).mask db t).toOption := by
  rw [Except.toOption_eq_iff] at h ⊢
  intro bits
  rw [mask_push, Predicate.mask_join_eq_ok_iff]
  simp only [Except.bind_eq_ok_iff, Except.pure_eq_ok_iff, h, exists_and_left, @eq_comm _ bits]

theorem PredicateTree.mask_foldl_push_condition {root : PredicateTree} {a : Condition}
    (h : (root.mask db t).toOption = ((Predicate.condition a).mask db t).toOption)
    (others : List (Connective × Condition)) :
    (((others.map fun next => (next.1, Predicate.condition next.2)).foldl
      (fun root p => root.push p.1 p.2) root).mask db t).toOption =
      ((Predicate.condition (a.joinAll others)).mask db t).toOption := by
  induction others generalizing root a with
  | nil => exact h
  | cons next others ih => exact ih (mask_push_condition h next.1 next.2)

/-- The filter of a chain marks the rows that the combined condition marks. -/
theorem Filter.mask_joinAll_conditions (c : Connective) (first : Condition)
    (others : List (Connective × Condition)) :
    ((all.joinAll (((c, first) :: others).map fun next =>
      (next.1, .condition next.2))).mask db t).toOption =
      ((Predicate.condition (first.joinAll others)).mask db t).toOption := by
  have hstart : all.joinAll (((c, first) :: others).map fun next => (next.1, .condition next.2)) =
      (tree (.leaf (.condition first))).joinAll
        (others.map fun next => (next.1, .condition next.2)) := rfl
  rw [hstart, joinAll_tree, mask]
  exact PredicateTree.mask_foldl_push_condition (by rw [PredicateTree.mask]) others

end

def Clause.chain (conditions : List (Connective × Condition)) : List Clause :=
  conditions.map fun next => .condition next.1 next.2

theorem Filter.build_chain (conditions : List (Connective × Condition)) :
    build (Clause.chain conditions) =
      .ok (all.joinAll (conditions.map fun next => (next.1, .condition next.2))) := by
  unfold build Clause.chain
  generalize all = f
  induction conditions generalizing f with
  | nil => rfl
  | cons next conditions ih => exact ih (f.extend next.1 (.condition next.2))

/-- A query that chains conditions and the same query with the conditions combined from left to
right both fail, or they answer the same, whatever the lengths of the masks are. -/
theorem Plan.run_chain_eq_run_joinAll (db : Database) (selection : Selection) (table : String)
    (order : Option (String × Direction)) (limit : Option Nat) (c : Connective) (first : Condition)
    (others : List (Connective × Condition)) :
    ∃ chained combined, Filter.build (Clause.chain ((c, first) :: others)) = .ok chained ∧
      Filter.build (Clause.chain [(c, first.joinAll others)]) = .ok combined ∧
      ((Plan.mk selection table chained order limit).run db).toOption =
        ((Plan.mk selection table combined order limit).run db).toOption := by
  refine ⟨_, _, Filter.build_chain _, Filter.build_chain _, ?_⟩
  have hmask := fun t => Except.toOption_eq_iff.1
    ((@Filter.mask_joinAll_conditions db t c first others).trans
      (Filter.mask_joinAll_conditions c (first.joinAll others) []).symm)
  rw [Except.toOption_eq_iff]
  intro answer
  simp only [run_eq_ok_iff, hmask]

def grainKeys (conditions : List (Connective × Condition)) : Option Answer := do
  let filter ← (Filter.build (Clause.chain conditions)).toOption
  ((Plan.mk (.columns [.column "rowid"]) "notes" filter none none).run grainbook).toOption

def lateGrain : Condition :=
  ⟨.field ⟨"notes", "rowid"⟩, .compare .gt, .literal (.int 2), none⟩

/-- One truth value for all rows. -/
def equalLiterals (m n : Int64) : Condition :=
  ⟨.literal (.int m), .compare .eq, .literal (.int n), none⟩

example :
    grainKeys [(.and, equalLiterals 1 2), (.or, lateGrain), (.and, equalLiterals 1 1)] =
        some (.rows ["rowid"] [[.integer 3], [.integer 4]]) ∧
      grainKeys [(.and, (equalLiterals 1 2).joinAll [(.or, lateGrain),
        (.and, equalLiterals 1 1)])] = some (.rows ["rowid"] [[.integer 3], [.integer 4]]) := by
  decide

example :
    grainKeys [(.and, lateGrain), (.and, equalLiterals 1 2)] = some (.rows ["rowid"] []) ∧
      grainKeys [(.and, lateGrain.joinAll [(.and, equalLiterals 1 2)])] =
        some (.rows ["rowid"] []) := by
  decide

/-- Three truth values for four rows. -/
example :
    let three : Condition :=
      ⟨.series ⟨[.integer 1, .integer 2, .integer 3], none⟩, .compare .eq, .literal (.int 1), none⟩
    grainKeys [(.and, equalLiterals 1 1), (.or, three)] = none ∧
      grainKeys [(.and, (equalLiterals 1 1).joinAll [(.or, three)])] = none := by
  decide

end Tabular
