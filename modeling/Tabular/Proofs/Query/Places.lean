import Tabular.Query.Evaluate
import Tabular.Proofs.Query.Broadcast

/-!
The places of rows on their way through a query: a filter marks them by a mask with one bit for each
row, and sorting only brings them into another order.
-/
namespace Tabular

theorem Broadcast.mem_places_iff {mask : List Bool} {i : Nat} :
    i ∈ places mask ↔ mask[i]? = some true := by
  simp only [places, List.mem_filter, List.mem_range]
  constructor
  · rintro ⟨hi, hbit⟩
    simpa [hi] using hbit
  · intro h
    obtain ⟨hi, -⟩ := List.getElem?_eq_some_iff.1 h
    exact ⟨hi, by simp [h]⟩

theorem Broadcast.nodup_places (mask : List Bool) : (places mask).Nodup :=
  List.nodup_range.filter _

namespace Sorting

variable {α : Type}

theorem foldl_insertBehind_perm (before : α → α → Bool) (xs sorted : List α) :
    (xs.foldl (fun sorted x => insertBehind before x sorted) sorted).Perm (xs ++ sorted) := by
  induction xs generalizing sorted with
  | nil => exact .refl _
  | cons x xs ih =>
    have hx := (insertBehind_perm before x sorted).append_left xs
    exact (ih _).trans (hx.trans List.perm_middle)

theorem sort_perm (before : α → α → Bool) (xs : List α) : (sort before xs).Perm xs := by
  have h := foldl_insertBehind_perm before xs []
  rw [List.append_nil] at h
  exact (List.reverse_perm _).trans h

theorem sortPlaces_perm {keys : List Value} {d : Direction} {places sorted : List Nat}
    (h : sortPlaces keys d places = .ok sorted) : sorted.Perm places := by
  obtain ⟨-, -, h⟩ := Except.bind_eq_ok_iff.1 h
  obtain rfl := Except.pure_eq_ok_iff.1 h
  have hp := (sort_perm (fun a b => comesBefore d a.1 b.1)
    (places.map fun i => (keys[i]?.getD .null, i))).map Prod.snd
  simpa [Function.comp_def] using hp

end Sorting

theorem Table.sortPlaces_perm {t : Table} {order : Option (String × Direction)}
    {places sorted : List Nat} (h : t.sortPlaces order places = .ok sorted) :
    sorted.Perm places := by
  unfold sortPlaces at h
  split at h
  · cases h
    exact .refl _
  · obtain ⟨keys, -, h⟩ := Except.bind_eq_ok_iff.1 h
    exact Sorting.sortPlaces_perm h

theorem Table.length_columnCells {t : Table} {column : String} {vs : List Value}
    (h : t.columnCells column = .ok vs) : vs.length = t.size := by
  unfold columnCells at h
  split at h
  · cases h
    simp [size]
  · cases h

theorem Table.columnCells_of_fieldCells {t : Table} {field : String} {vs : List Value}
    (h : t.fieldCells field = .ok vs) : t.columnCells field = .ok vs := by
  unfold fieldCells at h
  split at h
  · exact h
  · cases h

theorem Broadcast.length_fit {n : Nat} {mask bits : List Bool} (h : fit n mask = .ok bits) :
    bits.length = n := by
  unfold fit at h
  split at h
  · rename_i hn
    cases h
    exact hn
  split at h
  · rename_i hone
    cases h
    exact length_stretch (.inr hone)
  · cases h

section

variable {db : Database} {t : Table}

theorem FieldTest.length_mask {column : Column} {cells : List Value} {test : FieldTest}
    {mask : List Bool} (h : test.mask db column cells = .ok mask) : mask.length = cells.length := by
  cases test with
  | compare c raw =>
    obtain ⟨w, -, h⟩ := Except.bind_eq_ok_iff.1 h
    exact Broadcast.length_testAll h
  | like negated pattern =>
    cases h
    simp
  | oneOf negated raws =>
    obtain ⟨set, -, h⟩ := Except.bind_eq_ok_iff.1 h
    cases h
    simp
  | inQuery negated p =>
    obtain ⟨answer, -, h⟩ := Except.bind_eq_ok_iff.1 h
    cases h
    simp
  | between low high =>
    obtain ⟨lo, -, h⟩ := Except.bind_eq_ok_iff.1 h
    obtain ⟨hi, -, h⟩ := Except.bind_eq_ok_iff.1 h
    exact Broadcast.length_testAll h
  | isNull negated =>
    cases h
    simp

theorem Predicate.length_mask {p : Predicate} {mask : List Bool} (h : p.mask db t = .ok mask) :
    mask.length = t.size := by
  cases p with
  | bare field =>
    obtain ⟨cells, hcells, h⟩ := Except.bind_eq_ok_iff.1 h
    cases h
    simpa using Table.length_columnCells (Table.columnCells_of_fieldCells hcells)
  | test field test =>
    unfold Predicate.mask at h
    split at h
    · cases h
    · obtain ⟨cells, hcells, h⟩ := Except.bind_eq_ok_iff.1 h
      rw [FieldTest.length_mask h, Table.length_columnCells hcells]
  | condition c =>
    obtain ⟨bits, -, h⟩ := Except.bind_eq_ok_iff.1 h
    exact Broadcast.length_fit h

mutual

theorem PredicateTree.length_mask : ∀ {tree : PredicateTree} {mask : List Bool},
    tree.mask db t = .ok mask → mask.length = t.size
  | .leaf _, _, h => Predicate.length_mask h
  | .group _ _, _, h => PredicateTree.length_join (by simp) h

/-- Masks are joined row by row, and none is longer than another. -/
theorem PredicateTree.length_join : ∀ {members : List PredicateTree} {connective : Connective}
    {mask bits : List Bool}, mask.length = t.size →
    PredicateTree.join db t connective mask members = .ok bits → bits.length = t.size
  | [], _, _, _, hmask, h => by
    cases h
    exact hmask
  | _ :: _, _, _, _, hmask, h => by
    obtain ⟨bits, hbits, h⟩ := Except.bind_eq_ok_iff.1 h
    exact PredicateTree.length_join (by simp [hmask, PredicateTree.length_mask hbits]) h

end

theorem Filter.length_mask {f : Filter} {mask : List Bool} (h : f.mask db t = .ok mask) :
    mask.length = t.size := by
  cases f with
  | all =>
    cases h
    simp
  | tree root => exact PredicateTree.length_mask h

end

end Tabular
