import Tabular.Proofs.Query.Order

/-!
What is promised of a stable sort. A comparison that is a total order of the elements leaves one
result to the sort, and insertion arrives at it. Where the comparison contradicts itself, the sort
may leave the elements in any order, and it may also give up.
-/
namespace Tabular.Sorting

/-- How sorting a list where it stands can end. -/
inductive Ending where
  | done
  | failed (e : Error)
  /-- The sort has given up on a comparison that contradicts itself. -/
  | abandoned

section

variable {α : Type} (cmp : α → α → Ordering)

structure TotalOn (xs : List α) : Prop where
  swap : ∀ a ∈ xs, ∀ b ∈ xs, cmp b a = (cmp a b).swap
  trans : ∀ a ∈ xs, ∀ b ∈ xs, ∀ c ∈ xs, (cmp a b).isLE → (cmp b c).isLE → (cmp a c).isLE

/-- The second list is in order, and elements that are equal stand in it as they do in the first. -/
structure StablySorted (xs ys : List α) : Prop where
  sorted : ys.Pairwise fun a b => (cmp a b).isLE
  stable : ∀ a ∈ xs, ys.filter (cmp a · == .eq) = xs.filter (cmp a · == .eq)

/-- The ways in which a stable sort of a list may end, and the lists that it may leave. -/
inductive Sorts (xs : List α) : Ending → List α → Prop where
  | done {ys : List α} (perm : ys.Perm xs) (sorted : TotalOn cmp xs → StablySorted cmp xs ys) :
    Sorts xs .done ys
  | abandoned {ys : List α} (perm : ys.Perm xs) (contradictory : ¬ TotalOn cmp xs) :
    Sorts xs .abandoned ys

end

section

variable {α : Type} {cmp : α → α → Ordering} {before : α → α → Bool} {xs ys zs : List α}

theorem Sorts.perm {ending : Ending} (h : Sorts cmp xs ending ys) : ys.Perm xs := by
  cases h <;> assumption

theorem Sorts.ne_failed {ending : Ending} (h : Sorts cmp xs ending ys) (e : Error) :
    ending ≠ .failed e := by
  cases h <;> nofun

theorem exists_sorts_abandoned_iff :
    (∃ ys, Sorts cmp xs .abandoned ys) ↔ ¬ TotalOn cmp xs := by
  constructor
  · rintro ⟨ys, _ | ⟨-, contradictory⟩⟩
    exact contradictory
  · exact fun h => ⟨xs, .abandoned (.refl xs) h⟩

theorem filter_insertBehind {p : α → Bool} {x : α}
    (h : ∀ y ∈ ys, p x = true → p y = true → before x y = false) :
    (insertBehind before x ys).filter p = (x :: ys).filter p := by
  induction ys with
  | nil => rfl
  | cons y ys ih =>
    obtain ⟨hy, hys⟩ := List.forall_mem_cons.1 h
    unfold insertBehind
    split
    case isTrue hbefore =>
      rw [List.filter_cons, ih hys]
      cases hx : p x <;> cases hpy : p y <;> simp_all
    case isFalse => rfl

theorem filter_foldl_insertBehind {p : α → Bool}
    (h : ∀ x ∈ xs, ∀ y ∈ xs ++ ys, p x = true → p y = true → before x y = false) :
    (xs.foldl (fun sorted x => insertBehind before x sorted) ys).filter p =
      (xs.reverse ++ ys).filter p := by
  induction xs generalizing ys with
  | nil => rfl
  | cons x xs ih =>
    obtain ⟨hx, hxs⟩ := List.forall_mem_cons.1 h
    rw [List.foldl_cons, ih, List.filter_append, filter_insertBehind]
    · simp
    · exact fun y hy => hx y (by simp [hy])
    · intro z hz y hy
      rw [List.mem_append, (insertBehind_perm before x ys).mem_iff] at hy
      exact hxs z hz y (by simpa [or_left_comm] using hy)

/-- Insertion keeps the order of elements that do not come before each other. -/
theorem filter_sort {p : α → Bool}
    (h : ∀ x ∈ xs, ∀ y ∈ xs, p x = true → p y = true → before x y = false) :
    (sort before xs).filter p = xs.filter p := by
  rw [sort, List.filter_reverse, filter_foldl_insertBehind (by simpa using h)]
  simp

namespace TotalOn

theorem self (total : TotalOn cmp xs) {a : α} (ha : a ∈ xs) : cmp a a = .eq := by
  have hswap := total.swap a ha a ha
  cases h : cmp a a <;> simp [h] at hswap ⊢

theorem mono (total : TotalOn cmp xs) (h : ys ⊆ xs) : TotalOn cmp ys where
  swap a ha b hb := total.swap a (h ha) b (h hb)
  trans a ha b hb c hc := total.trans a (h ha) b (h hb) c (h hc)

theorem weak (total : TotalOn cmp xs) : Weak (cmp · · == .lt) (· ∈ xs) where
  asymm {a b} ha hb h := by
    rw [beq_iff_eq] at h
    rw [total.swap a ha b hb, h]
    rfl
  trans {a b c} ha hb hc hab hbc := by
    have hle : ∀ {a b}, a ∈ xs → b ∈ xs → ((cmp a b == .lt) = false ↔ (cmp b a).isLE) := by
      intro a b ha hb
      rw [beq_eq_false_iff_ne, total.swap a ha b hb, Ordering.isLE_swap, Ordering.isGE_iff_ne_lt]
    rw [hle ha hb] at hab
    rw [hle hb hc] at hbc
    exact (hle ha hc).2 (total.trans c hc b hb a ha hbc hab)

theorem eq_of_eq (total : TotalOn cmp xs) {a b c : α} (ha : a ∈ xs) (hb : b ∈ xs) (hc : c ∈ xs)
    (hab : cmp a b = .eq) (hac : cmp a c = .eq) : cmp b c = .eq := by
  have hba : cmp b a = .eq := by rw [total.swap a ha b hb, hab]; rfl
  have hca : cmp c a = .eq := by rw [total.swap a ha c hc, hac]; rfl
  have hbc := total.trans b hb a ha c hc (by rw [hba]; rfl) (by rw [hac]; rfl)
  have hcb := total.trans c hc a ha b hb (by rw [hca]; rfl) (by rw [hab]; rfl)
  rw [total.swap b hb c hc] at hcb
  cases h : cmp b c <;> simp_all

theorem stablySorted_sort (total : TotalOn cmp xs) :
    StablySorted cmp xs (sort (cmp · · == .lt) xs) where
  sorted := by
    have hstood : xs.Pairwise fun _ _ => True := List.pairwise_iff_forall_sublist.2 fun _ => trivial
    have hpairwise := pairwise_sort total.weak (fun _ h => h) hstood
    refine hpairwise.imp_of_mem fun {a b} ha hb hab => ?_
    have hnot : cmp b a ≠ .lt := beq_eq_false_iff_ne.1 hab.1
    rw [(sort_perm _ xs).mem_iff] at ha hb
    rw [total.swap b hb a ha, Ordering.isLE_swap, Ordering.isGE_iff_ne_lt]
    exact hnot
  stable a ha := filter_sort fun x hx y hy hax hay => by
    rw [beq_iff_eq] at hax hay
    rw [total.eq_of_eq ha hx hy hax hay]
    rfl

/-- Two lists with the same elements in order are the same, if elements that are equal stand in the
same order in both. -/
theorem eq_of_perm (total : TotalOn cmp ys) (perm : ys.Perm zs)
    (hys : ys.Pairwise fun a b => (cmp a b).isLE) (hzs : zs.Pairwise fun a b => (cmp a b).isLE)
    (h : ∀ a ∈ ys, ys.filter (cmp a · == .eq) = zs.filter (cmp a · == .eq)) : ys = zs := by
  induction ys generalizing zs with
  | nil => exact perm.nil_eq
  | cons y ys ih =>
    cases zs with
    | nil => exact perm.eq_nil
    | cons z zs =>
      have hz : z ∈ y :: ys := perm.mem_iff.2 List.mem_cons_self
      have hself := total.self List.mem_cons_self
      obtain ⟨hyfirst, hytail⟩ := List.pairwise_cons.1 hys
      obtain ⟨hzfirst, hztail⟩ := List.pairwise_cons.1 hzs
      -- each of the first elements is in the other list, so they are equal in the order
      have hyz : (cmp y z).isLE := by
        rcases List.mem_cons.1 hz with rfl | hz
        · rw [hself]
          rfl
        · exact hyfirst z hz
      have hzy : (cmp z y).isLE := by
        rcases List.mem_cons.1 (perm.mem_iff.1 List.mem_cons_self : y ∈ z :: zs) with rfl | hy
        · rw [hself]
          rfl
        · exact hzfirst y hy
      have heq : cmp y z = .eq := by
        rw [total.swap y List.mem_cons_self z hz] at hzy
        cases hcmp : cmp y z <;> simp_all
      have hfirst := h y List.mem_cons_self
      rw [List.filter_cons_of_pos (by simp [hself]), List.filter_cons_of_pos (by simp [heq])]
        at hfirst
      obtain ⟨rfl, -⟩ := List.cons.inj hfirst
      refine congrArg (y :: ·) (ih (total.mono (List.subset_cons_self y ys)) perm.cons_inv hytail
        hztail fun a ha => ?_)
      have ha := h a (List.mem_cons_of_mem y ha)
      rw [List.filter_cons, List.filter_cons] at ha
      split at ha
      · exact (List.cons.inj ha).2
      · exact ha

end TotalOn

theorem sorts_sort (cmp : α → α → Ordering) (xs : List α) :
    Sorts cmp xs .done (sort (cmp · · == .lt) xs) :=
  .done (sort_perm _ xs) TotalOn.stablySorted_sort

/-- A total order leaves nothing open. -/
theorem TotalOn.sorts_iff (total : TotalOn cmp xs) {ending : Ending} :
    Sorts cmp xs ending ys ↔ ending = .done ∧ ys = sort (cmp · · == .lt) xs := by
  constructor
  · rintro (⟨perm, sorted⟩ | ⟨-, contradictory⟩)
    · have hys := sorted total
      have hsort := total.stablySorted_sort
      refine ⟨rfl, (total.mono perm.subset).eq_of_perm (perm.trans (sort_perm _ xs).symm) hys.sorted
        hsort.sorted fun a ha => ?_⟩
      rw [hys.stable a (perm.subset ha), hsort.stable a (perm.subset ha)]
    · exact absurd total contradictory
  · rintro ⟨rfl, rfl⟩
    exact sorts_sort cmp xs

end

end Tabular.Sorting
