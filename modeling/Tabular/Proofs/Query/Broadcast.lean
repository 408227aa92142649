import Tabular.Query.Broadcast
import Tabular.Proofs.Except

/-! Vectors that meet: what becomes of scalars, and in which order vectors may be put together. -/
namespace Tabular.Broadcast

variable {α β γ : Type}

theorem commonLength_eq_ok_iff {m n p : Nat} :
    commonLength m n = .ok p ↔ m = p ∧ (n = p ∨ n = 1) ∨ m = 1 ∧ n = p := by
  unfold commonLength
  split
  · rw [Except.ok.injEq]
    omega
  split
  · rw [Except.ok.injEq]
    omega
  split
  · rw [Except.ok.injEq]
    omega
  · simp only [reduceCtorEq, false_iff]
    omega

theorem stretch_of_length_eq {n : Nat} {as : List α} (h : as.length = n) : stretch n as = as := by
  subst h
  unfold stretch
  split <;> rfl

theorem stretch_self (as : List α) : stretch as.length as = as := stretch_of_length_eq rfl

theorem length_stretch {n : Nat} {as : List α} (h : as.length = n ∨ as.length = 1) :
    (stretch n as).length = n := by
  rcases h with h | h
  · rw [stretch_of_length_eq h, h]
  · obtain ⟨a, rfl⟩ := List.length_eq_one_iff.1 h
    simp

@[simp] theorem commonLength_self (n : Nat) : commonLength n n = .ok n := if_pos rfl

@[simp] theorem commonLength_one_left (n : Nat) : commonLength 1 n = .ok n :=
  commonLength_eq_ok_iff.2 (.inr ⟨rfl, rfl⟩)

@[simp] theorem commonLength_one_right (n : Nat) : commonLength n 1 = .ok n :=
  commonLength_eq_ok_iff.2 (.inl ⟨rfl, .inr rfl⟩)

theorem zip_replicate_left (a : α) (bs : List β) :
    (List.replicate bs.length a).zip bs = bs.map fun b => (a, b) := by
  induction bs with
  | nil => rfl
  | cons b bs ih => simp [List.replicate_succ, ih]

theorem zip_replicate_right (as : List α) (b : β) :
    as.zip (List.replicate as.length b) = as.map fun a => (a, b) := by
  induction as with
  | nil => rfl
  | cons a as ih => simp [List.replicate_succ, ih]

theorem paired_eq_ok_iff {as : List α} {bs : List β} {ps : List (α × β)} :
    paired as bs = .ok ps ↔
      ∃ n, commonLength as.length bs.length = .ok n ∧ ps = (stretch n as).zip (stretch n bs) := by
  unfold paired
  simp only [Except.bind_eq_ok_iff, Except.pure_eq_ok_iff, @eq_comm _ ps]

theorem paired_of_length_eq {as : List α} {bs : List β} (h : as.length = bs.length) :
    paired as bs = .ok (as.zip bs) := by
  refine paired_eq_ok_iff.2 ⟨as.length, by simp [h], ?_⟩
  rw [stretch_self, h, stretch_self]

theorem paired_singleton_left (a : α) (bs : List β) :
    paired [a] bs = .ok (bs.map fun b => (a, b)) := by
  refine paired_eq_ok_iff.2 ⟨bs.length, by simp, ?_⟩
  rw [stretch_self, stretch_singleton, zip_replicate_left]

theorem paired_singleton_right (as : List α) (b : β) :
    paired as [b] = .ok (as.map fun a => (a, b)) := by
  refine paired_eq_ok_iff.2 ⟨as.length, by simp, ?_⟩
  rw [stretch_self, stretch_singleton, zip_replicate_right]

theorem mem_stretch {n : Nat} {as : List α} {a : α} (h : a ∈ stretch n as) : a ∈ as := by
  match as with
  | [] => exact h
  | [b] => exact List.mem_singleton.2 (List.eq_of_mem_replicate h)
  | b :: c :: as => exact h

theorem mem_of_mem_paired {as : List α} {bs : List β} {ps : List (α × β)}
    (h : paired as bs = .ok ps) {p : α × β} (hp : p ∈ ps) : p.1 ∈ as ∧ p.2 ∈ bs := by
  obtain ⟨n, -, rfl⟩ := paired_eq_ok_iff.1 h
  obtain ⟨ha, hb⟩ := List.of_mem_zip (a := p.1) (b := p.2) hp
  exact ⟨mem_stretch ha, mem_stretch hb⟩

theorem length_zip_stretch {n : Nat} {as : List α} {bs : List β}
    (h : commonLength as.length bs.length = .ok n) :
    ((stretch n as).zip (stretch n bs)).length = n := by
  have ha : as.length = n ∨ as.length = 1 := by
    have := commonLength_eq_ok_iff.1 h
    omega
  have hb : bs.length = n ∨ bs.length = 1 := by
    have := commonLength_eq_ok_iff.1 h
    omega
  rw [List.length_zip, length_stretch ha, length_stretch hb, Nat.min_self]

theorem stretch_zip_stretch {m n : Nat} {as : List α} {bs : List β}
    (h : commonLength as.length bs.length = .ok m) (hmn : m = n ∨ m = 1) :
    stretch n ((stretch m as).zip (stretch m bs)) = (stretch n as).zip (stretch n bs) := by
  rcases hmn with rfl | rfl
  · exact stretch_of_length_eq (length_zip_stretch h)
  · have hlength : as.length = 1 ∧ bs.length = 1 := by
      have := commonLength_eq_ok_iff.1 h
      omega
    obtain ⟨a, rfl⟩ := List.length_eq_one_iff.1 hlength.1
    obtain ⟨b, rfl⟩ := List.length_eq_one_iff.1 hlength.2
    simp

theorem map_zip_zip (as : List α) (bs : List β) (cs : List γ) :
    ((as.zip bs).zip cs).map (fun ((a, b), c) => (a, b, c)) = as.zip (bs.zip cs) := by
  induction as generalizing bs cs with
  | nil => rfl
  | cons a as ih =>
    cases bs with
    | nil => rfl
    | cons b bs =>
      cases cs with
      | nil => rfl
      | cons c cs => simp [ih]

theorem tripled_eq (as : List α) (bs : List β) (cs : List γ) :
    tripled as bs cs = (do
      let ps ← paired as bs
      let qs ← paired ps cs
      return qs.map fun ((a, b), c) => (a, b, c)) := by
  unfold tripled paired
  cases h : commonLength as.length bs.length with
  | error e => rfl
  | ok m =>
    have hm := length_zip_stretch h
    cases hn : commonLength m cs.length with
    | error e => simp [bind, Except.bind, pure, Except.pure, hm, hn]
    | ok n =>
      have hmn : m = n ∨ m = 1 := by
        have := commonLength_eq_ok_iff.1 hn
        omega
      have hs := stretch_zip_stretch h hmn
      simp [bind, Except.bind, pure, Except.pure, hm, hn, hs, map_zip_zip]

theorem tripled_singletons (as : List α) (b : β) (c : γ) :
    tripled as [b] [c] = .ok (as.map fun a => (a, b, c)) := by
  rw [tripled_eq, paired_singleton_right]
  simp [bind, Except.bind, paired_singleton_right, pure, Except.pure, Function.comp_def]

/-- A test of a whole list succeeds like a computation that stops at the first failure. -/
theorem testAll_eq_ok_iff {test : α → Except Error β} {as : List α} {bs : List β} :
    testAll test as = .ok bs ↔ as.mapM test = .ok bs := by
  induction as generalizing bs with
  | nil => rfl
  | cons a as ih =>
    simp only [testAll_cons_eq_ok_iff, List.mapM_cons, Except.bind_eq_ok_iff,
      Except.pure_eq_ok_iff, ih]
    constructor
    · rintro ⟨b, bs', hb, hbs, rfl⟩
      exact ⟨b, hb, bs', hbs, rfl⟩
    · rintro ⟨b, hb, bs', hbs, rfl⟩
      exact ⟨b, bs', hb, hbs, rfl⟩

/-- The entry of a vector for a row. A scalar has its value for every row. -/
def valueAt? (i : Nat) : List α → Option α
  | [a] => some a
  | as => as[i]?

theorem getElem?_stretch {i n : Nat} (hi : i < n) (as : List α) :
    (stretch n as)[i]? = valueAt? i as := by
  match as with
  | [] => rfl
  | [a] => simp [valueAt?, hi]
  | a :: b :: as => rfl

theorem valueAt?_of_getElem? {as : List α} {i : Nat} {a : α} (h : as[i]? = some a) :
    valueAt? i as = some a := by
  match as with
  | [] => exact h
  | [b] => cases i <;> simp_all [valueAt?]
  | b :: c :: as => exact h

/-- The length that vectors have in common: each of them has it or is a scalar, and one has it. -/
def Common (columns : List (List α)) (n : Nat) : Prop :=
  (∀ column ∈ columns, column.length = n ∨ column.length = 1) ∧
    ∃ column ∈ columns, column.length = n

theorem common_pair_iff {as bs : List α} {n : Nat} :
    Common [as, bs] n ↔ commonLength as.length bs.length = .ok n := by
  simp only [commonLength_eq_ok_iff, Common, List.forall_mem_cons, List.exists_mem_cons_iff,
    List.not_mem_nil, false_implies, implies_true, false_and, exists_false, or_false, and_true]
  omega

theorem common_of_paired {as bs : List α} {ps : List (α × α)} (h : paired as bs = .ok ps) :
    Common [as, bs] ps.length := by
  obtain ⟨n, hn, rfl⟩ := paired_eq_ok_iff.1 h
  rw [length_zip_stretch hn]
  exact common_pair_iff.2 hn

theorem paired_of_common {as bs : List α} {n : Nat} (h : Common [as, bs] n) :
    ∃ ps, paired as bs = .ok ps ∧ ps.length = n := by
  have hn := common_pair_iff.1 h
  exact ⟨_, paired_eq_ok_iff.2 ⟨n, hn, rfl⟩, length_zip_stretch hn⟩

theorem tripled_eq_ok_iff {as : List α} {bs : List β} {cs : List γ} {ts : List (α × β × γ)} :
    tripled as bs cs = .ok ts ↔ ∃ m n, commonLength as.length bs.length = .ok m ∧
      commonLength m cs.length = .ok n ∧
      ts = (stretch n as).zip ((stretch n bs).zip (stretch n cs)) := by
  unfold tripled
  simp only [Except.bind_eq_ok_iff, Except.pure_eq_ok_iff, @eq_comm _ ts, exists_and_left]

theorem length_tripled {as : List α} {bs : List β} {cs : List γ} {m n : Nat}
    (hm : commonLength as.length bs.length = .ok m) (hn : commonLength m cs.length = .ok n) :
    ((stretch n as).zip ((stretch n bs).zip (stretch n cs))).length = n := by
  have hlengths := commonLength_eq_ok_iff.1 hm
  have hlengths' := commonLength_eq_ok_iff.1 hn
  rw [List.length_zip, List.length_zip, length_stretch (by omega), length_stretch (by omega),
    length_stretch (by omega), Nat.min_self, Nat.min_self]

theorem common_of_tripled {as bs cs : List α} {ts : List (α × α × α)}
    (h : tripled as bs cs = .ok ts) : Common [as, bs, cs] ts.length := by
  obtain ⟨m, n, hm, hn, rfl⟩ := tripled_eq_ok_iff.1 h
  have hlengths := commonLength_eq_ok_iff.1 hm
  have hlengths' := commonLength_eq_ok_iff.1 hn
  rw [length_tripled hm hn]
  simp only [Common, List.forall_mem_cons, List.exists_mem_cons_iff, List.not_mem_nil,
    false_implies, implies_true, false_and, exists_false, or_false, and_true]
  omega

theorem valueAt?_of_paired {as : List α} {bs : List β} {ps : List (α × β)}
    (h : paired as bs = .ok ps) {i : Nat} {p : α × β} (hp : ps[i]? = some p) :
    valueAt? i as = some p.1 ∧ valueAt? i bs = some p.2 := by
  obtain ⟨n, hn, rfl⟩ := paired_eq_ok_iff.1 h
  have hi : i < n := by
    rw [← length_zip_stretch hn]
    exact (List.getElem?_eq_some_iff.1 hp).1
  simpa only [List.getElem?_zip_eq_some, getElem?_stretch hi] using hp

theorem valueAt?_of_tripled {as : List α} {bs : List β} {cs : List γ} {ts : List (α × β × γ)}
    (h : tripled as bs cs = .ok ts) {i : Nat} {t : α × β × γ} (ht : ts[i]? = some t) :
    valueAt? i as = some t.1 ∧ valueAt? i bs = some t.2.1 ∧ valueAt? i cs = some t.2.2 := by
  obtain ⟨m, n, hm, hn, rfl⟩ := tripled_eq_ok_iff.1 h
  have hi : i < n := by
    rw [← length_tripled hm hn]
    exact (List.getElem?_eq_some_iff.1 ht).1
  simpa only [List.getElem?_zip_eq_some, getElem?_stretch hi] using ht

theorem testAll_ok (f : α → β) (as : List α) :
    testAll (fun a => .ok (f a)) as = .ok (as.map f) := by
  induction as with
  | nil => rfl
  | cons a as ih => simp [testAll, ih, Except.map]

theorem failure?_comp (test : β → Except Error γ) (f : α → β) (as : List α) :
    failure? test (as.map f) = failure? (fun a => test (f a)) as := by
  induction as with
  | nil => rfl
  | cons a as ih => simp only [List.map_cons, failure?, ih]

theorem testAll_comp (test : β → Except Error γ) (f : α → β) (as : List α) :
    testAll test (as.map f) = testAll (fun a => test (f a)) as := by
  induction as with
  | nil => rfl
  | cons a as ih => simp only [List.map_cons, testAll, ih, failure?_comp]

theorem failure?_map (g : α → β → γ) (test : α → Except Error β) (as : List α) :
    failure? (fun a => (test a).map (g a)) as = failure? test as := by
  induction as with
  | nil => rfl
  | cons a as ih =>
    cases h : test a with
    | error e => simp only [failure?, h, Except.map]
    | ok b =>
      simp only [failure?, h]
      exact ih

theorem testAll_zipWith (g : α → β → γ) (test : α → Except Error β) (as : List α) :
    testAll (fun a => (test a).map (g a)) as = (testAll test as).map (List.zipWith g as) := by
  induction as with
  | nil => rfl
  | cons a as ih =>
    cases h : test a with
    | error e =>
      simp only [testAll, h]
      exact congrArg (fun o : Option Error => Except.error (o.getD e)) (failure?_map g test as)
    | ok b =>
      simp only [testAll, h]
      refine (congrArg (Except.map (g a b :: ·)) ih).trans ?_
      cases testAll test as <;> rfl

theorem testAll_stretch {test : α → Except Error β} {as : List α} {bs : List β}
    (h : testAll test as = .ok bs) (n : Nat) :
    testAll test (stretch n as) = .ok (stretch n bs) := by
  match as with
  | [] =>
    cases h
    rfl
  | [a] =>
    obtain ⟨b, bs', hb, hbs, rfl⟩ := testAll_cons_eq_ok_iff.1 h
    cases hbs
    simp only [stretch_singleton]
    induction n with
    | zero => rfl
    | succ n ih => exact testAll_cons_eq_ok_iff.2 ⟨b, _, hb, ih, rfl⟩
  | a :: a' :: as =>
    have hlength := length_testAll h
    match bs with
    | [b] => simp at hlength
    | [] => exact h
    | b :: b' :: bs => exact h

theorem combine_eq_ok_iff {c : Connective} {as bs mask : List Bool} :
    combine c as bs = .ok mask ↔ ∃ n, commonLength as.length bs.length = .ok n ∧
      mask = ((stretch n as).zip (stretch n bs)).map fun p => c.apply p.1 p.2 := by
  simp only [combine, Except.bind_eq_ok_iff, Except.pure_eq_ok_iff, paired_eq_ok_iff]
  constructor
  · rintro ⟨ps, ⟨n, hn, rfl⟩, rfl⟩
    exact ⟨n, hn, rfl⟩
  · rintro ⟨n, hn, rfl⟩
    exact ⟨_, ⟨n, hn, rfl⟩, rfl⟩

theorem fit_singleton (n : Nat) (bit : Bool) :
    fit n [bit] = .ok (List.replicate n bit) := by
  unfold fit
  split
  · rename_i hn
    rw [← hn]
    rfl
  · rfl

theorem forall₂_replicate_right {r : α → β → Prop} {as : List α} {b : β} :
    List.Forall₂ r as (List.replicate as.length b) ↔ ∀ a ∈ as, r a b := by
  induction as with
  | nil => simp
  | cons a as ih => simp [List.replicate_succ, ih]

end Tabular.Broadcast
