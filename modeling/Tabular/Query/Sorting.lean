import Tabular.Storage

/-!
Sorting rows by one key. NULL comes before every value, equal keys stay in their order, and the
descending order reverses the comparison, not the rows. Insertion is one stable sort of many. They
agree wherever the comparison is a total order, and rounding may keep it from being one.
-/
namespace Tabular.Sorting

/-- Puts an element behind all that it does not come before; the list is in reverse. -/
def insertBehind {α : Type} (before : α → α → Bool) (x : α) : List α → List α
  | [] => [x]
  | y :: ys => if before x y then y :: insertBehind before x ys else x :: y :: ys

theorem insertBehind_perm {α : Type} (before : α → α → Bool) (x : α) (ys : List α) :
    (insertBehind before x ys).Perm (x :: ys) := by
  induction ys with
  | nil => exact .refl _
  | cons y ys ih =>
    simp only [insertBehind]
    split
    · exact (ih.cons y).trans (.swap x y ys)
    · exact .refl _

def sort {α : Type} (before : α → α → Bool) (xs : List α) : List α :=
  (xs.foldl (fun sorted x => insertBehind before x sorted) []).reverse

def keyOrder (v w : Value) : Ordering :=
  match v.isNull, w.isNull with
  | true, true => .eq
  | true, false => .lt
  | false, true => .gt
  | false, false => (v.order? w).getD .eq

def comesBefore (d : Direction) (v w : Value) : Bool :=
  match d with
  | .asc => keyOrder v w == .lt
  | .desc => keyOrder v w == .gt

/-- Compares the first key that is not NULL with all others. -/
def checkKeys (keys : List Value) : Except Error Unit :=
  match keys.filter (!·.isNull) with
  | [] => .ok ()
  | first :: others => others.forM fun key => (first.compare key).map fun _ => ()

def sortPlaces (keys : List Value) (d : Direction) (places : List Nat) :
    Except Error (List Nat) := do
  let keyed := places.map fun i => (keys[i]?.getD .null, i)
  checkKeys (keyed.map (·.1))
  return (sort (fun a b => comesBefore d a.1 b.1) keyed).map (·.2)

end Tabular.Sorting
