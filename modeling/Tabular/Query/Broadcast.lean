import Tabular.Error

/-!
Vectors of values, one for each row. A vector of one value is a scalar, and is stretched to the
length of the vector that it meets.
-/
namespace Tabular.Broadcast

def commonLength (m n : Nat) : Except Error Nat :=
  if m = n then .ok m
  else if m = 1 then .ok n
  else if n = 1 then .ok m
  else .error (.arityMismatch m n)

/-- A scalar repeated `n` times; any other vector as it is. -/
def stretch {α : Type} (n : Nat) : List α → List α
  | [a] => List.replicate n a
  | as => as

@[simp] theorem stretch_singleton {α : Type} (n : Nat) (a : α) :
    stretch n [a] = List.replicate n a := rfl

def paired {α β : Type} (as : List α) (bs : List β) : Except Error (List (α × β)) := do
  let n ← commonLength as.length bs.length
  return (stretch n as).zip (stretch n bs)

def tripled {α β γ : Type} (as : List α) (bs : List β) (cs : List γ) :
    Except Error (List (α × β × γ)) := do
  let m ← commonLength as.length bs.length
  let n ← commonLength m cs.length
  return (stretch n as).zip ((stretch n bs).zip (stretch n cs))

def failure? {α β : Type} (test : α → Except Error β) : List α → Option Error
  | [] => none
  | a :: as =>
    match test a with
    | .ok _ => failure? test as
    | .error e => some e

/-- The results of a test over a list. A failed test does not end the pass at once: the cells after
it are tested up to the next failure, and that one is the error of the whole. So the error is the
second failure where there are two, and else the only one. -/
def testAll {α β : Type} (test : α → Except Error β) : List α → Except Error (List β)
  | [] => .ok []
  | a :: as =>
    match test a with
    | .ok b => (testAll test as).map (b :: ·)
    | .error e => .error ((failure? test as).getD e)

theorem testAll_cons_eq_ok_iff {α β : Type} {test : α → Except Error β} {a : α} {as : List α}
    {bs : List β} :
    testAll test (a :: as) = .ok bs ↔
      ∃ b bs', test a = .ok b ∧ testAll test as = .ok bs' ∧ bs = b :: bs' := by
  cases hb : test a with
  | error e => simp [testAll, hb]
  | ok b =>
    cases hs : testAll test as with
    | error e => simp [testAll, hb, hs, Except.map]
    | ok bs' => simp [testAll, hb, hs, Except.map, eq_comm]

theorem length_testAll {α β : Type} {test : α → Except Error β} {as : List α} {bs : List β}
    (h : testAll test as = .ok bs) : bs.length = as.length := by
  induction as generalizing bs with
  | nil => cases h; rfl
  | cons a as ih =>
    obtain ⟨b, bs', -, hs, rfl⟩ := testAll_cons_eq_ok_iff.1 h
    simp [ih hs]

theorem testAll_isOk_iff {α β : Type} {test : α → Except Error β} {as : List α} :
    (∃ bs, testAll test as = .ok bs) ↔ failure? test as = none := by
  induction as with
  | nil => simp [testAll, failure?]
  | cons a as ih =>
    cases hb : test a with
    | error e => simp [testAll, failure?, hb]
    | ok b =>
      simp only [failure?, hb, ← ih]
      constructor
      · rintro ⟨bs, h⟩
        obtain ⟨-, bs', -, hs, -⟩ := testAll_cons_eq_ok_iff.1 h
        exact ⟨bs', hs⟩
      · rintro ⟨bs, h⟩
        exact ⟨b :: bs, testAll_cons_eq_ok_iff.2 ⟨b, bs, hb, h, rfl⟩⟩

def fit (n : Nat) (mask : List Bool) : Except Error (List Bool) :=
  if mask.length = n then .ok mask
  else if mask.length = 1 then .ok (stretch n mask)
  else .error (.arityMismatch mask.length n)

def combine (c : Connective) (as bs : List Bool) : Except Error (List Bool) := do
  let ps ← paired as bs
  return ps.map fun (a, b) => c.apply a b

def ofBool (b : Bool) : Value := .integer (if b then 1 else 0)

def places (mask : List Bool) : List Nat :=
  (List.range mask.length).filter fun i => mask[i]?.getD false

def gather (vs : List Value) (is : List Nat) : List Value := is.map fun i => vs[i]?.getD .null

end Tabular.Broadcast
