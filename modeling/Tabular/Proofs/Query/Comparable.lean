import Tabular.Proofs.Query.StableSort
import Tabular.Proofs.Failure

/-!
The check before sorting. It compares the first key that is not NULL with all others, and this
settles every pair: values in an order with one value are in an order with each other. Documents are
in no order, not even with themselves. After the check no two keys are met that have no order, so
sorting never falls back on taking them as equal. The order may still be no total one, among
integers and real numbers that are equal up to rounding.
-/
namespace Tabular

namespace Value

/-- What two values in an order have in common: the storage class, where integers count as real
numbers. Documents are in no order. -/
def orderClass : Value → Option StorageClass
  | .null => some .null
  | .integer _ | .real _ => some .real
  | .text _ => some .text
  | .blob _ => some .blob
  | .object _ => none

def Comparable (v w : Value) : Prop := ∃ o, v.compare w = .ok o

variable {u v w : Value}

theorem comparable_iff : v.Comparable w ↔ v.orderClass = w.orderClass ∧ v.orderClass ≠ none := by
  cases v <;> cases w <;> simp [Comparable, order?, orderClass]

theorem not_comparable_iff : ¬ v.Comparable w ↔ ∃ e, v.compare w = .error e := by
  unfold Comparable
  cases v.compare w <;> simp

theorem Comparable.symm (h : v.Comparable w) : w.Comparable v := by
  obtain ⟨hclass, hsome⟩ := comparable_iff.1 h
  exact comparable_iff.2 ⟨hclass.symm, hclass ▸ hsome⟩

theorem Comparable.trans (huv : u.Comparable v) (hvw : v.Comparable w) : u.Comparable w := by
  obtain ⟨hclass, hsome⟩ := comparable_iff.1 huv
  exact comparable_iff.2 ⟨hclass.trans (comparable_iff.1 hvw).1, hsome⟩

theorem kind_of_compare {e : Error} (h : v.compare w = .error e) : e.kind = .typeMismatch := by
  unfold compare at h
  split at h <;> cases h
  rfl

end Value

namespace Sorting

variable {v w : Value}

/-- The key of a place. -/
def keyAt (keys : List Value) (i : Nat) : Value := keys[i]?.getD .null

/-- Two different positions in a list of keys, and the keys there, neither of which is NULL. -/
structure Meet (keys : List Value) (a b : Nat) (v w : Value) : Prop where
  apart : a ≠ b
  left : keys[a]? = some v
  right : keys[b]? = some w
  left_present : v ≠ .null
  right_present : w ≠ .null

theorem Meet.symm {keys : List Value} {a b : Nat} {v w : Value} (h : Meet keys a b v w) :
    Meet keys b a w v :=
  ⟨h.apart.symm, h.right, h.left, h.right_present, h.left_present⟩

section

variable {keys : List Value} {places : List Nat} {d : Direction}

theorem pairwise_comparable_iff :
    (keys.filter (!·.isNull)).Pairwise Value.Comparable ↔
      ∀ a b v w, Meet keys a b v w → v.Comparable w := by
  rw [List.pairwise_filter, List.pairwise_iff_getElem]
  simp only [Bool.not_eq_true', Bool.eq_false_iff, ne_eq, Value.isNull_iff]
  constructor
  · intro h
    have hlt : ∀ a b v w, a < b → Meet keys a b v w → v.Comparable w := by
      rintro a b v w hab ⟨-, hv, hw, hvn, hwn⟩
      obtain ⟨ha, rfl⟩ := List.getElem?_eq_some_iff.1 hv
      obtain ⟨hb, rfl⟩ := List.getElem?_eq_some_iff.1 hw
      exact h a b ha hb hab hvn hwn
    intro a b v w hmeet
    rcases Nat.lt_or_gt_of_ne hmeet.apart with hab | hba
    · exact hlt a b v w hab hmeet
    · exact (hlt b a w v hba hmeet.symm).symm
  · intro h a b ha hb hab hvn hwn
    exact h a b _ _ ⟨Nat.ne_of_lt hab, List.getElem?_eq_getElem ha, List.getElem?_eq_getElem hb,
      hvn, hwn⟩

/-- The check is passed if any two keys are in an order, NULL apart: the first key stands for all
that are compared with it. -/
theorem checkKeys_eq_ok_iff :
    checkKeys keys = .ok () ↔ ∀ a b v w, Meet keys a b v w → v.Comparable w := by
  rw [← pairwise_comparable_iff]
  unfold checkKeys
  split
  case h_1 hnil => simp [hnil]
  case h_2 first others hfilter =>
    have hfirst : (others.forM fun key => (first.compare key).map fun _ => ()) = .ok () ↔
        ∀ key ∈ others, first.Comparable key := by
      simp only [Except.forM_eq_ok_iff, Except.map_eq_ok_iff, and_true]
      rfl
    rw [hfirst, hfilter, List.pairwise_cons]
    refine ⟨fun h => ⟨h, ?_⟩, And.left⟩
    exact List.pairwise_of_forall_mem_list fun v hv w hw => (h v hv).symm.trans (h w hw)

theorem kind_of_checkKeys {e : Error} (h : checkKeys keys = .error e) : e.kind = .typeMismatch := by
  have hfails : Except.Fails (·.kind = .typeMismatch) (checkKeys keys) := by
    unfold checkKeys
    split
    · exact Except.fails_ok _
    · exact Except.fails_forM fun _ _ => Except.Fails.map (fun _ => Value.kind_of_compare) _
  exact hfails e h

end

/-- The order of keys where nothing is put in place of an order that is missing. -/
def keyOrder? (v w : Value) : Option Ordering :=
  match v.isNull, w.isNull with
  | true, true => some .eq
  | true, false => some .lt
  | false, true => some .gt
  | false, false => v.order? w

theorem keyOrder?_eq_some (h : v ≠ .null → w ≠ .null → v.Comparable w) :
    keyOrder? v w = some (keyOrder v w) := by
  by_cases hv : v = .null
  · subst hv
    cases w <;> rfl
  by_cases hw : w = .null
  · subst hw
    cases v <;> rfl
  obtain ⟨o, ho⟩ := h hv hw
  rw [Value.compare_eq_ok_iff] at ho
  have hvn : v.isNull = false := eq_false_of_ne_true (mt v.isNull_iff.1 hv)
  have hwn : w.isNull = false := eq_false_of_ne_true (mt w.isNull_iff.1 hw)
  simp only [keyOrder?, hvn, hwn, ho, keyOrder_eq_of_order? hv hw ho]

def placeOrder (keys : List Value) (d : Direction) (i j : Nat) : Ordering :=
  match d with
  | .asc => keyOrder (keyAt keys i) (keyAt keys j)
  | .desc => (keyOrder (keyAt keys i) (keyAt keys j)).swap

def placeOrder? (keys : List Value) (d : Direction) (i j : Nat) : Option Ordering :=
  match d with
  | .asc => keyOrder? (keyAt keys i) (keyAt keys j)
  | .desc => (keyOrder? (keyAt keys i) (keyAt keys j)).map Ordering.swap

/-- The ways in which sorting a list of places where it stands may end, and the lists that it may
leave: the check refuses the keys, or a stable sort compares the places by them. -/
inductive SortsInPlace (keys : List Value) (d : Direction) (places : List Nat) :
    Ending → List Nat → Prop where
  | refused {e : Error} (check : checkKeys (places.map (keyAt keys)) = .error e) :
    SortsInPlace keys d places (.failed e) places
  | sorted {ending : Ending} {left : List Nat}
    (check : checkKeys (places.map (keyAt keys)) = .ok ())
    (sorts : Sorts (placeOrder keys d) places ending left) : SortsInPlace keys d places ending left

/-- Three of the keys are two integers and a real number to which both are rounded. -/
def Blurred (keys : List Value) (places : List Nat) : Prop :=
  ∃ i ∈ places, ∃ j ∈ places, ∃ k ∈ places,
    Value.Blurs (keyAt keys i) (keyAt keys j) (keyAt keys k)

section

variable {keys : List Value} {d : Direction} {places : List Nat}

theorem placeOrder_lt_iff {i j : Nat} :
    (placeOrder keys d i j == .lt) = comesBefore d (keyAt keys i) (keyAt keys j) := by
  cases d
  · rfl
  · simp only [placeOrder, comesBefore]
    cases keyOrder (keyAt keys i) (keyAt keys j) <;> rfl

theorem placeOrder_swap (i j : Nat) : placeOrder keys d j i = (placeOrder keys d i j).swap := by
  cases d with
  | asc => exact keyOrder_swap _ _
  | desc => exact congrArg Ordering.swap (keyOrder_swap _ _)

theorem sortPlaces_eq (keys : List Value) (d : Direction) (places : List Nat) :
    sortPlaces keys d places = (checkKeys (places.map (keyAt keys))).map fun _ =>
      sort (placeOrder keys d · · == .lt) places := by
  have hkeyed : (places.map fun i => (keys[i]?.getD .null, i)).map (·.1) =
      places.map (keyAt keys) := by
    rw [List.map_map]
    rfl
  have hsorted : (sort (fun a b => comesBefore d a.1 b.1)
      (places.map fun i => (keys[i]?.getD .null, i))).map (·.2) =
        sort (placeOrder keys d · · == .lt) places := by
    simp only [placeOrder_lt_iff]
    rw [sort_map, List.map_map]
    exact List.map_id _
  simp only [sortPlaces, hkeyed, hsorted]
  cases checkKeys (places.map (keyAt keys)) <;> rfl

theorem exists_checkKeys_eq_error_iff :
    (∃ e, checkKeys keys = .error e) ↔
      ∃ a b v w, Meet keys a b v w ∧ ∃ e, v.compare w = .error e := by
  have hcheck : (∃ e, checkKeys keys = .error e) ↔ ¬ checkKeys keys = .ok () := by
    cases checkKeys keys <;> simp
  simp only [hcheck, checkKeys_eq_ok_iff, ← Value.not_comparable_iff]
  push Not
  rfl

theorem SortsInPlace.failed_iff {e : Error} {left : List Nat} :
    SortsInPlace keys d places (.failed e) left ↔
      checkKeys (places.map (keyAt keys)) = .error e ∧ left = places := by
  constructor
  · rintro (hcheck | ⟨-, hsorts⟩)
    · exact ⟨hcheck, rfl⟩
    · exact absurd rfl (hsorts.ne_failed e)
  · rintro ⟨hcheck, rfl⟩
    exact .refused hcheck

theorem SortsInPlace.of_sortPlaces :
    (∀ left, sortPlaces keys d places = .ok left → SortsInPlace keys d places .done left) ∧
      ∀ e, sortPlaces keys d places = .error e → SortsInPlace keys d places (.failed e) places := by
  rw [sortPlaces_eq]
  constructor
  · rintro left h
    obtain ⟨⟨⟩, hcheck, rfl⟩ := Except.map_eq_ok_iff.1 h
    exact .sorted hcheck (sorts_sort _ _)
  · intro e h
    cases hcheck : checkKeys (places.map (keyAt keys)) with
    | ok u => simp [hcheck, Except.map] at h
    | error e' =>
      rw [hcheck] at h
      cases h
      exact .refused hcheck

section

variable (checked : checkKeys (places.map (keyAt keys)) = .ok ())

include checked

theorem SortsInPlace.iff_sorts {ending : Ending} {left : List Nat} :
    SortsInPlace keys d places ending left ↔ Sorts (placeOrder keys d) places ending left := by
  refine ⟨fun h => ?_, .sorted checked⟩
  cases h with
  | refused hcheck =>
    rw [checked] at hcheck
    cases hcheck
  | sorted _ hsorts => exact hsorts

theorem comparable_of_ne {a b i j : Nat} (hab : a ≠ b) (hi : places[a]? = some i)
    (hj : places[b]? = some j) (hin : keyAt keys i ≠ .null) (hjn : keyAt keys j ≠ .null) :
    (keyAt keys i).Comparable (keyAt keys j) :=
  checkKeys_eq_ok_iff.1 checked a b _ _ ⟨hab, by simp [hi], by simp [hj], hin, hjn⟩

theorem placeOrder?_eq_some {a b i j : Nat} (hab : a ≠ b) (hi : places[a]? = some i)
    (hj : places[b]? = some j) : placeOrder? keys d i j = some (placeOrder keys d i j) := by
  have horder := keyOrder?_eq_some (comparable_of_ne checked hab hi hj)
  cases d <;> simp [placeOrder?, placeOrder, horder]

theorem settled_keyAt {i j : Nat} (hi : i ∈ places) (hj : j ∈ places) :
    Settled (keyAt keys i) (keyAt keys j) := by
  intro hin hjn hne
  obtain ⟨a, ha⟩ := List.mem_iff_getElem?.1 hi
  obtain ⟨b, hb⟩ := List.mem_iff_getElem?.1 hj
  have hab : a ≠ b := by
    rintro rfl
    rw [ha] at hb
    exact hne (congrArg (keyAt keys) (Option.some.inj hb))
  obtain ⟨o, ho⟩ := comparable_of_ne checked hab ha hb hin hjn
  rw [Value.compare_eq_ok_iff] at ho
  rw [ho, keyOrder_eq_of_order? hin hjn ho]

/-- Rounding is all that keeps the comparison of places from being a total order. -/
theorem totalOn_placeOrder_iff : TotalOn (placeOrder keys d) places ↔ ¬ Blurred keys places := by
  have htrans : ∀ i ∈ places, ∀ j ∈ places, ∀ k ∈ places,
      (keyOrder (keyAt keys i) (keyAt keys j)).isLE →
      (keyOrder (keyAt keys j) (keyAt keys k)).isLE →
      ((keyOrder (keyAt keys i) (keyAt keys k)).isLE ↔
        ¬ Value.Blurs (keyAt keys i) (keyAt keys j) (keyAt keys k)) := fun i hi j hj k hk =>
    isLE_keyOrder_trans_iff (settled_keyAt checked hi hj) (settled_keyAt checked hj hk)
      (settled_keyAt checked hi hk)
  constructor
  · rintro total ⟨i, hi, j, hj, k, hk, hblurs⟩
    obtain ⟨hij, hjk⟩ := keyOrder_of_blurs hblurs
    refine (htrans i hi j hj k hk (by rw [hij]; rfl) (by rw [hjk]; rfl)).1 ?_ hblurs
    cases d with
    | asc =>
      exact total.trans i hi j hj k hk (by simp [placeOrder, hij]) (by simp [placeOrder, hjk])
    | desc =>
      have hki := total.trans k hk j hj i hi (by rw [placeOrder_swap]; simp [placeOrder, hjk])
        (by rw [placeOrder_swap]; simp [placeOrder, hij])
      rw [placeOrder_swap] at hki
      simpa [placeOrder] using hki
  · intro hclear
    refine ⟨fun i _ j _ => placeOrder_swap i j, fun i hi j hj k hk hij hjk => ?_⟩
    cases d with
    | asc =>
      exact (htrans i hi j hj k hk hij hjk).2 fun h => hclear ⟨i, hi, j, hj, k, hk, h⟩
    | desc =>
      simp only [placeOrder, ← keyOrder_swap] at hij hjk ⊢
      exact (htrans k hk j hj i hi hjk hij).2 fun h => hclear ⟨k, hk, j, hj, i, hi, h⟩

theorem SortsInPlace.iff_of_not_blurred (clear : ¬ Blurred keys places) {ending : Ending}
    {left : List Nat} : SortsInPlace keys d places ending left ↔
      ending = .done ∧ sortPlaces keys d places = .ok left := by
  rw [iff_sorts checked, ((totalOn_placeOrder_iff checked).2 clear).sorts_iff, sortPlaces_eq,
    checked, Except.map, Except.ok.injEq]
  exact and_congr_right fun _ => eq_comm

end

/-- Keys of one class, as a lax column holds them, are sorted in one way only. -/
theorem SortsInPlace.iff_of_keys {c : StorageClass} (hkeys : ∀ i ∈ places, Key c (keyAt keys i))
    {ending : Ending} {left : List Nat} : SortsInPlace keys d places ending left ↔
      ending = .done ∧ sortPlaces keys d places = .ok left := by
  refine iff_of_not_blurred (checkKeys_eq_ok (List.forall_mem_map.2 hkeys)) ?_
  rintro ⟨i, hi, j, hj, k, -, hblurs⟩
  exact (hkeys i hi).not_blurs (hkeys j hj) hblurs

end

/-- Sorting fails exactly if two keys at different positions have no order, with a mismatch of types
and the list as it was. If the check is passed, any two keys have an order, and the comparison puts
nothing in place of one. The sort may then give up only on integers that one real number blurs, and
without such integers it has a single result. -/
theorem sortPlaces_fails_iff (keys : List Value) (d : Direction) (places : List Nat) :
    ((∀ left, sortPlaces keys d places = .ok left → SortsInPlace keys d places .done left) ∧
      ∀ e, sortPlaces keys d places = .error e → SortsInPlace keys d places (.failed e) places) ∧
    (∀ ending left, SortsInPlace keys d places ending left →
      ((∃ e, ending = .failed e) ↔
        ∃ a b v w, Meet (places.map (keyAt keys)) a b v w ∧ ∃ e, v.compare w = .error e) ∧
      ∀ e, ending = .failed e → e.kind = .typeMismatch ∧ left = places) ∧
    (checkKeys (places.map (keyAt keys)) = .ok () →
      (∀ a b v w, Meet (places.map (keyAt keys)) a b v w → ∃ o, v.compare w = .ok o) ∧
      (∀ a b i j : Nat, a ≠ b → places[a]? = some i → places[b]? = some j →
        placeOrder? keys d i j = some (placeOrder keys d i j)) ∧
      (∀ ending left, SortsInPlace keys d places ending left → left.Perm places) ∧
      ((∃ left, SortsInPlace keys d places .abandoned left) ↔ Blurred keys places) ∧
      (¬ Blurred keys places → ∀ ending left, SortsInPlace keys d places ending left →
        ending = .done ∧ sortPlaces keys d places = .ok left)) := by
  refine ⟨SortsInPlace.of_sortPlaces, fun ending left h => ?_, fun checked => ?_⟩
  · rw [← exists_checkKeys_eq_error_iff]
    refine ⟨⟨?_, ?_⟩, ?_⟩
    · rintro ⟨e, rfl⟩
      exact ⟨e, (SortsInPlace.failed_iff.1 h).1⟩
    · rintro ⟨e, hcheck⟩
      cases h with
      | refused _ => exact ⟨_, rfl⟩
      | sorted hok _ =>
        rw [hok] at hcheck
        cases hcheck
    · rintro e rfl
      obtain ⟨hcheck, hleft⟩ := SortsInPlace.failed_iff.1 h
      exact ⟨kind_of_checkKeys hcheck, hleft⟩
  · refine ⟨checkKeys_eq_ok_iff.1 checked,
      fun a b i j hab hi hj => placeOrder?_eq_some checked hab hi hj,
      fun _ _ h => ((SortsInPlace.iff_sorts checked).1 h).perm, ?_,
      fun clear _ _ => (SortsInPlace.iff_of_not_blurred checked clear).1⟩
    simp only [SortsInPlace.iff_sorts checked]
    rw [exists_sorts_abandoned_iff, totalOn_placeOrder_iff checked, Classical.not_not]

/-- Documents have no order among themselves, and a single one among other rows prevents sorting
only where there is another key. The integers `2 ^ 53 + 1` and `2 ^ 53` with the real number between
them pass the check. -/
theorem sortPlaces_fails_iff_documents :
    let keys : List Value := [.integer 9007199254740993, .null, .object [1],
      .real (.ofInt (2 ^ 53)), .object [1], .integer 9007199254740992]
    (∀ ending left, SortsInPlace keys .asc [1, 4, 2] ending left →
      (∃ e, ending = .failed e ∧ e.kind = .typeMismatch) ∧ left = [1, 4, 2]) ∧
    (∀ ending left, SortsInPlace keys .asc [2, 1] ending left → ending = .done ∧ left = [1, 2]) ∧
    placeOrder? keys .asc 2 1 = some .gt ∧
    ∃ left, SortsInPlace keys .desc [0, 3, 5] .abandoned left := by
  intro keys
  refine ⟨fun ending left h => ?_, fun ending left h => ?_, ?_, ?_⟩
  · obtain ⟨hfails, herror⟩ := (sortPlaces_fails_iff keys .asc [1, 4, 2]).2.1 ending left h
    obtain ⟨e, rfl⟩ := hfails.2 ⟨1, 2, .object [1], .object [1],
      ⟨by decide, rfl, rfl, by decide, by decide⟩, _, rfl⟩
    exact ⟨⟨e, rfl, (herror e rfl).1⟩, (herror e rfl).2⟩
  · obtain ⟨-, -, -, -, hdone⟩ := (sortPlaces_fails_iff keys .asc [2, 1]).2.2 (by decide)
    have hclear : ¬ Blurred keys [2, 1] := by
      rintro ⟨i, hi, j, -, k, -, a, b, -, hkey, -⟩
      rcases List.mem_cons.1 hi with rfl | hi
      · cases hkey
      · rw [List.mem_singleton.1 hi] at hkey
        cases hkey
    obtain ⟨hending, hsorted⟩ := hdone hclear ending left h
    have hlist : sortPlaces keys .asc [2, 1] = .ok [1, 2] := by decide
    exact ⟨hending, Except.ok.inj (hsorted.symm.trans hlist)⟩
  · decide
  · refine ((sortPlaces_fails_iff keys .desc [0, 3, 5]).2.2 (by decide)).2.2.2.1.2 ?_
    exact ⟨0, by decide, 3, by decide, 5, by decide, 9007199254740993, 9007199254740992,
      by decide, rfl, rfl, by decide, by decide⟩

end Sorting
end Tabular
