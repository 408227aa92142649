import Tabular.Proofs.Comparison
import Tabular.Proofs.Query.Places
import Tabular.Proofs.Table.Conforms
import Mathlib.Data.List.Pairwise
import Mathlib.Order.Basic

/-!
The order in which a query returns rows. Sorting by insertion is stable and sorts by every strict
weak order. The keys of a lax column with a single storage class are of one kind, and within one
kind the order of values is such an order, with NULL at one end.
-/
namespace Tabular

namespace Sorting

section

variable {α : Type} {before : α → α → Bool} {stood : α → α → Prop}

/-- The first element may stand before the second: it does not come after it, and if it does not
come before it either, it has stood there all along. -/
def Stably (before : α → α → Bool) (stood : α → α → Prop) (a b : α) : Prop :=
  before b a = false ∧ (before a b = false → stood a b)

/-- A strict weak order of the elements with a property. -/
structure Weak (before : α → α → Bool) (among : α → Prop) : Prop where
  asymm : ∀ {a b}, among a → among b → before a b = true → before b a = false
  trans : ∀ {a b c}, among a → among b → among c → before a b = false → before b c = false →
    before a c = false

variable {among : α → Prop}

theorem Weak.comap {β : Type} (weak : Weak before among) (f : β → α) :
    Weak (fun a b => before (f a) (f b)) (fun a => among (f a)) where
  asymm ha hb h := weak.asymm ha hb h
  trans ha hb hc := weak.trans ha hb hc

theorem insertBehind_map {β : Type} (f : β → α) (x : β) (ys : List β) :
    insertBehind before (f x) (ys.map f) =
      (insertBehind (fun a b => before (f a) (f b)) x ys).map f := by
  induction ys with
  | nil => rfl
  | cons y ys ih =>
    simp only [List.map_cons, insertBehind]
    split
    · rw [ih, List.map_cons]
    · rfl

theorem sort_map {β : Type} (f : β → α) (xs : List β) :
    sort before (xs.map f) = (sort (fun a b => before (f a) (f b)) xs).map f := by
  have hfold : ∀ sorted : List β,
      (xs.map f).foldl (fun sorted x => insertBehind before x sorted) (sorted.map f) =
        (xs.foldl (fun sorted x => insertBehind (fun a b => before (f a) (f b)) x sorted)
          sorted).map f := by
    induction xs with
    | nil => exact fun _ => rfl
    | cons x xs ih =>
      intro sorted
      rw [List.map_cons, List.foldl_cons, insertBehind_map, ih, List.foldl_cons]
  simpa [sort] using congrArg List.reverse (hfold [])

theorem pairwise_insertBehind (weak : Weak before among) {x : α} (hx : among x) {ys : List α}
    (hys : ∀ y ∈ ys, among y) (hlast : ∀ y ∈ ys, stood y x)
    (h : ys.Pairwise fun b a => Stably before stood a b) :
    (insertBehind before x ys).Pairwise fun b a => Stably before stood a b := by
  induction ys with
  | nil => exact List.pairwise_singleton _ _
  | cons y ys ih =>
    obtain ⟨hy, hys⟩ := List.forall_mem_cons.1 hys
    obtain ⟨hylast, hlast⟩ := List.forall_mem_cons.1 hlast
    obtain ⟨hhead, htail⟩ := List.pairwise_cons.1 h
    unfold insertBehind
    split
    case isTrue hbefore =>
      refine List.pairwise_cons.2 ⟨fun z hz => ?_, ih hys hlast htail⟩
      rcases List.mem_cons.1 ((insertBehind_perm before x ys).mem_iff.1 hz) with rfl | hz
      · exact ⟨weak.asymm hx hy hbefore, fun hnot => by simp [hbefore] at hnot⟩
      · exact hhead z hz
    case isFalse hbehind =>
      -- the rest of the list is behind `y`, and so behind the new element by transitivity
      have hxy : before x y = false := eq_false_of_ne_true hbehind
      refine List.pairwise_cons.2 ⟨fun z hz => ?_, h⟩
      rcases List.mem_cons.1 hz with rfl | hz
      · exact ⟨hxy, fun _ => hylast⟩
      · exact ⟨weak.trans hx hy (hys z hz) hxy (hhead z hz).1, fun _ => hlast z hz⟩

theorem pairwise_foldl_insertBehind (weak : Weak before among) {xs sorted : List α}
    (hxs : ∀ x ∈ xs, among x) (hsorted : ∀ y ∈ sorted, among y)
    (hlast : ∀ y ∈ sorted, ∀ x ∈ xs, stood y x) (hstood : xs.Pairwise stood)
    (h : sorted.Pairwise fun b a => Stably before stood a b) :
    (xs.foldl (fun sorted x => insertBehind before x sorted) sorted).Pairwise
      fun b a => Stably before stood a b := by
  induction xs generalizing sorted with
  | nil => exact h
  | cons x xs ih =>
    obtain ⟨hx, hxs⟩ := List.forall_mem_cons.1 hxs
    obtain ⟨hfirst, hstood⟩ := List.pairwise_cons.1 hstood
    have hmem : ∀ y, y ∈ insertBehind before x sorted ↔ y ∈ x :: sorted :=
      fun _ => (insertBehind_perm before x sorted).mem_iff
    refine ih hxs ?_ ?_ hstood
      (pairwise_insertBehind weak hx hsorted (fun y hy => hlast y hy x List.mem_cons_self) h)
    · simp only [hmem]
      exact List.forall_mem_cons.2 ⟨hx, hsorted⟩
    · simp only [hmem]
      exact List.forall_mem_cons.2
        ⟨hfirst, fun y hy z hz => hlast y hy z (List.mem_cons_of_mem _ hz)⟩

/-- Sorting by insertion is stable. -/
theorem pairwise_sort (weak : Weak before among) {xs : List α} (hxs : ∀ x ∈ xs, among x)
    (hstood : xs.Pairwise stood) : (sort before xs).Pairwise (Stably before stood) :=
  List.pairwise_reverse.2 (pairwise_foldl_insertBehind weak hxs (by simp) (by simp) hstood .nil)

end

end Sorting

namespace Value

theorem storageClass_eq_integer {v : Value} : v.storageClass = .integer ↔ ∃ n, v = .integer n := by
  cases v <;> simp [storageClass]

theorem storageClass_eq_text {v : Value} : v.storageClass = .text ↔ ∃ s, v = .text s := by
  cases v <;> simp [storageClass]

end Value

namespace Sorting

/-- Keys with an order among them: NULL, and values of one of the classes of numbers or text. -/
def Key (c : StorageClass) (v : Value) : Prop :=
  v = .null ∨ v.storageClass = c ∧ (c = .integer ∨ c = .real ∨ c = .text)

theorem keyOrder_swap (v w : Value) : keyOrder w v = (keyOrder v w).swap := by
  unfold keyOrder
  rw [v.order?_swap w]
  cases v.isNull <;> cases w.isNull <;> cases v.order? w <;> rfl

theorem keyOrder_null_left (v : Value) : keyOrder .null v = if v.isNull then .eq else .lt := by
  cases v <;> rfl

theorem keyOrder_null_right (v : Value) : keyOrder v .null = if v.isNull then .eq else .gt := by
  cases v <;> rfl

theorem keyOrder_ne_lt_iff {v w : Value} : keyOrder v w ≠ .lt ↔ (keyOrder w v).isLE := by
  rw [keyOrder_swap v w, Ordering.isLE_swap, Ordering.isGE_iff_ne_lt]

variable {c : StorageClass} {u v w : Value}

theorem keyOrder_eq_of_order? {o : Ordering} (hv : v ≠ .null) (hw : w ≠ .null)
    (h : v.order? w = some o) : keyOrder v w = o := by
  cases v <;> cases w <;> simp_all [keyOrder, Value.isNull]

theorem Key.exists_compare (hv : Key c v) (hw : Key c w) (hvn : v ≠ .null) (hwn : w ≠ .null) :
    ∃ o, v.compare w = .ok o := by
  obtain ⟨hv, hc⟩ := hv.resolve_left hvn
  obtain ⟨hw, -⟩ := hw.resolve_left hwn
  subst hv
  cases v <;> cases w <;> simp_all [Value.storageClass, Value.order?]

theorem Key.keyOrder_eq (hv : Key c v) (hw : Key c w) (hvn : v ≠ .null) (hwn : w ≠ .null) :
    v.order? w = some (keyOrder v w) := by
  obtain ⟨o, ho⟩ := hv.exists_compare hw hvn hwn
  rw [Value.compare_eq_ok_iff] at ho
  rw [ho, keyOrder_eq_of_order? hvn hwn ho]

/-- Integers and real numbers do not come together. -/
theorem Key.not_blurs (hu : Key c u) (hv : Key c v) : ¬ Value.Blurs u v w := by
  rintro ⟨a, b, -, rfl, -, rfl, -⟩
  simp only [Key, Value.storageClass, reduceCtorEq, false_or] at hu hv
  simp [← hu.1] at hv

/-- The order of values decides between two keys, unless one is NULL or they are the same. -/
def Settled (v w : Value) : Prop :=
  v ≠ .null → w ≠ .null → v ≠ w → v.order? w = some (keyOrder v w)

theorem Key.settled (hv : Key c v) (hw : Key c w) : Settled v w :=
  fun hvn hwn _ => hv.keyOrder_eq hw hvn hwn

theorem keyOrder_self (v : Value) : keyOrder v v = .eq := by
  have hswap := keyOrder_swap v v
  cases h : keyOrder v v <;> simp [h] at hswap ⊢

theorem isLE_keyOrder_trans_iff (huv : Settled u v) (hvw : Settled v w) (huw : Settled u w)
    (h₁ : (keyOrder u v).isLE) (h₂ : (keyOrder v w).isLE) :
    (keyOrder u w).isLE ↔ ¬ Value.Blurs u v w := by
  -- NULL is the least key, so only three different values have to be compared
  by_cases hun : u = .null
  · rw [hun, keyOrder_null_left]
    exact ⟨fun _ ⟨_, _, _, hu, _⟩ => (nomatch hu), fun _ => by split <;> rfl⟩
  by_cases hvn : v = .null
  · rw [hvn, keyOrder_null_right] at h₁
    simp [hun] at h₁
  by_cases hwn : w = .null
  · rw [hwn, keyOrder_null_right] at h₂
    simp [hvn] at h₂
  by_cases hsame : u = v ∨ v = w ∨ u = w
  · refine ⟨fun _ ⟨a, b, hlt, hu, hw, hv, _⟩ => ?_, fun _ => ?_⟩
    · subst hu hw hv
      simp only [reduceCtorEq, Value.integer.injEq, false_or] at hsame
      rw [hsame] at hlt
      exact lt_irrefl _ hlt
    · rcases hsame with rfl | rfl | rfl
      · exact h₂
      · exact h₁
      · rw [keyOrder_self]
        rfl
  push Not at hsame
  exact Value.isLE_order?_trans_iff (huv hun hvn hsame.1) (hvw hvn hwn hsame.2.1)
    (huw hun hwn hsame.2.2) h₁ h₂

theorem keyOrder_of_blurs (h : Value.Blurs u v w) : keyOrder u v = .eq ∧ keyOrder v w = .eq := by
  have huv := h.order?_left
  have hvw := h.order?_right
  obtain ⟨a, b, -, rfl, rfl, rfl, -⟩ := h
  exact ⟨keyOrder_eq_of_order? nofun nofun huv, keyOrder_eq_of_order? nofun nofun hvw⟩

/-- Within a class the order of values is that of numbers or of texts. -/
theorem isLE_keyOrder_trans (hu : Key c u) (hv : Key c v) (hw : Key c w)
    (huv : (keyOrder u v).isLE) (hvw : (keyOrder v w).isLE) : (keyOrder u w).isLE :=
  (isLE_keyOrder_trans_iff (hu.settled hv) (hv.settled hw) (hu.settled hw) huv hvw).2
    (hu.not_blurs hv)

theorem checkKeys_eq_ok {keys : List Value} (h : ∀ v ∈ keys, Key c v) :
    checkKeys keys = .ok () := by
  unfold checkKeys
  split
  · rfl
  · rename_i first others hfilter
    have hkey : ∀ v ∈ first :: others, Key c v ∧ v ≠ .null := by
      intro v hv
      rw [← hfilter, List.mem_filter] at hv
      refine ⟨h v hv.1, ?_⟩
      rintro rfl
      cases hv.2
    obtain ⟨⟨hfirst, hpresent⟩, hothers⟩ := List.forall_mem_cons.1 hkey
    refine Except.forM_eq_ok_iff.2 fun v hv => ?_
    obtain ⟨o, ho⟩ := hfirst.exists_compare (hothers v hv).1 hpresent (hothers v hv).2
    exact Except.map_eq_ok_iff.2 ⟨o, ho, rfl⟩

/-- The place of a key in the order that a query asks for: strictly before another one. -/
def Precedes (d : Direction) (v w : Value) : Prop :=
  match d with
  | .asc => v = .null ∧ w ≠ .null ∨ v.compare w = .ok .lt
  | .desc => v ≠ .null ∧ w = .null ∨ v.compare w = .ok .gt

theorem comesBefore_iff {d : Direction} : comesBefore d v w = true ↔ Precedes d v w := by
  cases d <;> cases v <;> cases w <;>
    simp [comesBefore, Precedes, keyOrder, Value.isNull, Value.order?]

theorem comesBefore_asymm {d : Direction} (h : comesBefore d v w = true) :
    comesBefore d w v = false := by
  cases d <;>
    simp only [comesBefore, beq_iff_eq, beq_eq_false_iff_ne, keyOrder_swap v w] at h ⊢ <;>
    simp [h]

theorem weak_comesBefore (c : StorageClass) (d : Direction) : Weak (comesBefore d) (Key c) where
  asymm _ _ h := comesBefore_asymm h
  trans {u v w} hu hv hw huv hvw := by
    cases d with
    | asc =>
      simp only [comesBefore, beq_eq_false_iff_ne, keyOrder_ne_lt_iff] at *
      exact isLE_keyOrder_trans hw hv hu hvw huv
    | desc =>
      simp only [comesBefore, beq_eq_false_iff_ne, ← Ordering.isLE_iff_ne_gt] at *
      exact isLE_keyOrder_trans hu hv hw huv hvw

/-- Places in the order of their keys. NULL is at one end, values that are not NULL ascend or
descend from one place to any later one, and places with equal keys ascend in both directions. -/
structure Ordered (key : Nat → Value) (d : Direction) (places : List Nat) : Prop where
  nulls : places.Pairwise fun i j =>
    match d with
    | .asc => key j = .null → key i = .null
    | .desc => key i = .null → key j = .null
  values : places.Pairwise fun i j => key i ≠ .null → key j ≠ .null →
    ∃ o, (key i).compare (key j) = .ok o ∧
      match d with
      | .asc => o ≠ .gt
      | .desc => o ≠ .lt
  stable : places.Pairwise fun i j => (key i).compare (key j) = .ok .eq → i < j

theorem ordered_of_stably {key : Nat → Value} {d : Direction} {places : List Nat}
    (hkeys : ∀ i ∈ places, Key c (key i))
    (h : places.Pairwise (Stably (fun i j => comesBefore d (key i) (key j)) (· < ·))) :
    Ordered key d places where
  nulls := h.imp fun {i j} hij => by
    have hnot := mt comesBefore_iff.2 (Bool.eq_false_iff.1 hij.1)
    cases d with
    | asc => exact fun hj => Classical.not_not.1 fun hi => hnot (.inl ⟨hj, hi⟩)
    | desc => exact fun hi => Classical.not_not.1 fun hj => hnot (.inl ⟨hj, hi⟩)
  values := h.imp_of_mem fun {i j} hi hj hij hin hjn => by
    have hnot := mt comesBefore_iff.2 (Bool.eq_false_iff.1 hij.1)
    obtain ⟨o, ho⟩ := (hkeys i hi).exists_compare (hkeys j hj) hin hjn
    have hswap : (key j).compare (key i) = .ok o.swap := by
      rw [Value.compare_eq_ok_iff] at ho ⊢
      rw [(key i).order?_swap, ho, Option.map_some]
    refine ⟨o, ho, ?_⟩
    cases d with
    | asc =>
      rintro rfl
      exact hnot (.inr hswap)
    | desc =>
      rintro rfl
      exact hnot (.inr hswap)
  stable := h.imp fun {i j} hij heq => hij.2 <| by
    refine eq_false_of_ne_true fun hbefore => ?_
    have hprec := comesBefore_iff.1 hbefore
    cases d <;> cases hi : key i <;> cases hj : key j <;> simp_all [Precedes, Value.order?]

theorem exists_sortPlaces {keys : List Value} {d : Direction} {places : List Nat}
    (hkeys : ∀ i ∈ places, Key c (keys[i]?.getD .null)) (hplaces : places.Pairwise (· < ·)) :
    ∃ sorted, sortPlaces keys d places = .ok sorted ∧
      sorted.Pairwise (Stably
        (fun i j => comesBefore d (keys[i]?.getD .null) (keys[j]?.getD .null)) (· < ·)) := by
  have hcheck : checkKeys ((places.map fun i => (keys[i]?.getD .null, i)).map (·.1)) = .ok () := by
    refine checkKeys_eq_ok (c := c) fun v hv => ?_
    simp only [List.map_map, List.mem_map, Function.comp_apply] at hv
    obtain ⟨i, hi, rfl⟩ := hv
    exact hkeys i hi
  refine ⟨_, Except.bind_eq_ok_iff.2 ⟨(), hcheck, rfl⟩, ?_⟩
  rw [sort_map, List.map_map]
  simp only [Function.comp_def, List.map_id']
  exact pairwise_sort ((weak_comesBefore c d).comap _) hkeys hplaces

end Sorting

theorem Broadcast.pairwise_places (mask : List Bool) : (places mask).Pairwise (· < ·) :=
  List.pairwise_lt_range.filter _

/-- The cell of a column at a place. -/
def Table.cellAt (t : Table) (column : String) (i : Nat) : Value :=
  (t.rows[i]?.bind (·.get? column)).getD .null

theorem Table.WellFormed.cellAt_eq {t : Table} (h : t.WellFormed) {column : String}
    {vs : List Value} (hvs : t.columnCells column = .ok vs) (i : Nat) :
    t.cellAt column i = vs[i]?.getD .null := by
  have hcells := h.forall₂_columnCells hvs
  unfold cellAt
  by_cases hi : i < t.rows.length
  · have hi' : i < vs.length := hcells.length_eq ▸ hi
    have hcell : t.rows[i].get? column = some vs[i] := hcells.get hi hi'
    simp only [List.getElem?_eq_getElem hi, List.getElem?_eq_getElem hi', Option.bind_some, hcell]
  · have hi' : ¬ i < vs.length := hcells.length_eq ▸ hi
    rw [List.getElem?_eq_none (Nat.le_of_not_lt hi), List.getElem?_eq_none (Nat.le_of_not_lt hi')]
    rfl

theorem Affinity.exists_storageClass {a : Affinity}
    (h : a = .integer ∨ a = .real ∨ a = .text) :
    ∃ c : StorageClass, (c = .integer ∨ c = .real ∨ c = .text) ∧
      ∀ raw v, a.coerce raw = .ok v → v.storageClass = c := by
  rcases h with rfl | rfl | rfl
  · exact ⟨.integer, .inl rfl, fun _ _ => StorageClass.storageClass_of_coerce⟩
  · exact ⟨.real, .inr (.inl rfl), fun _ _ => StorageClass.storageClass_of_coerce⟩
  · exact ⟨.text, .inr (.inr rfl), fun _ _ => StorageClass.storageClass_of_coerce⟩

theorem Table.Made.exists_key {t : Table} (ht : t.Made) {c : Column} (hc : c ∈ t.columns)
    (lax : c.strict = false)
    (haffinity : c.affinity = .integer ∨ c.affinity = .real ∨ c.affinity = .text) :
    ∃ s, ∀ i, Sorting.Key s (t.cellAt c.name i) := by
  obtain ⟨s, hs, hclass⟩ := Affinity.exists_storageClass haffinity
  refine ⟨s, fun i => ?_⟩
  unfold cellAt
  cases hrow : t.rows[i]?.bind (·.get? c.name) with
  | none => exact .inl rfl
  | some v =>
    obtain ⟨row, hi, hv⟩ := Option.bind_eq_some_iff.1 hrow
    have hmem := List.mem_of_getElem? hi
    rw [rows_eq] at hmem
    obtain ⟨e, he, rfl⟩ := List.mem_map.1 hmem
    have hheld := ht.reachable.wellFormed.holds_of_get? ht.conforms he hc hv
    rcases hheld.eq_null_or_coerce lax with rfl | ⟨raw, hraw⟩
    · exact .inl rfl
    · exact .inr ⟨hclass raw v hraw, hs⟩

theorem Table.Made.exists_sortPlaces {t : Table} (ht : t.Made) {c : Column} (hc : c ∈ t.columns)
    (lax : c.strict = false)
    (haffinity : c.affinity = .integer ∨ c.affinity = .real ∨ c.affinity = .text) (d : Direction)
    {places : List Nat} (hplaces : places.Pairwise (· < ·)) :
    ∃ sorted, t.sortPlaces (some (c.name, d)) places = .ok sorted ∧
      sorted.Pairwise (Sorting.Stably
        (fun i j => Sorting.comesBefore d (t.cellAt c.name i) (t.cellAt c.name j)) (· < ·)) := by
  have hw := ht.reachable.wellFormed
  obtain ⟨keys, hkeys⟩ := exists_columnCells hc
  have hfield : t.fieldCells c.name = .ok keys := by
    have hcolumn := hw.column?_eq_some_iff.2 ⟨hc, rfl⟩
    simpa [fieldCells, hcolumn] using hkeys
  obtain ⟨s, hs⟩ := ht.exists_key hc lax haffinity
  simp only [hw.cellAt_eq hkeys] at hs ⊢
  obtain ⟨sorted, hsorted, hpairwise⟩ := Sorting.exists_sortPlaces (fun i _ => hs i) hplaces
  exact ⟨sorted, Except.bind_eq_ok_iff.2 ⟨keys, hfield, hsorted⟩, hpairwise⟩

theorem Plan.run_eq {db : Database} {p : Plan} {t : Table} {mask : List Bool} {sorted : List Nat}
    (source : db.table p.table = .ok t) (hm : p.filter.mask db t = .ok mask)
    (hs : t.sortPlaces p.order (Broadcast.places mask) = .ok sorted) :
    p.run db = p.selection.project db t (Table.limitPlaces p.limit sorted) := by
  cases p
  simp only at source hm hs
  simp only [run, source, hm, hs, bind, Except.bind]

/-- A query in the order of a lax column of numbers or text: sorting succeeds, loses no row that the
filter has kept and leaves the rest to the selection. A limit keeps the first places, and none of
the others comes before any of them. -/
theorem Plan.sorted_of_made {t : Table} (ht : t.Made) {c : Column} (hc : c ∈ t.columns)
    (lax : c.strict = false)
    (haffinity : c.affinity = .integer ∨ c.affinity = .real ∨ c.affinity = .text)
    {db : Database} {p : Plan} (source : db.table p.table = .ok t) {d : Direction}
    (order : p.order = some (c.name, d)) {mask : List Bool} (hm : p.filter.mask db t = .ok mask) :
    ∃ sorted, t.sortPlaces p.order (Broadcast.places mask) = .ok sorted ∧
      sorted.Perm (Broadcast.places mask) ∧
      Sorting.Ordered (t.cellAt c.name) d sorted ∧
      (p.limit = none → p.run db = p.selection.project db t sorted) ∧
      ∀ k, p.limit = some k →
        p.run db = p.selection.project db t (sorted.take k) ∧
        ∀ i ∈ sorted.take k, ∀ j ∈ sorted.drop k,
          ¬ Sorting.Precedes d (t.cellAt c.name j) (t.cellAt c.name i) := by
  obtain ⟨sorted, hsorted, hpairwise⟩ :=
    ht.exists_sortPlaces hc lax haffinity d (Broadcast.pairwise_places mask)
  rw [← order] at hsorted
  obtain ⟨s, hs⟩ := ht.exists_key hc lax haffinity
  have hrun := run_eq source hm hsorted
  refine ⟨sorted, hsorted, Table.sortPlaces_perm hsorted,
    Sorting.ordered_of_stably (fun i _ => hs i) hpairwise, fun hnone => ?_, fun k hk => ⟨?_, ?_⟩⟩
  · rw [hrun, hnone]
    rfl
  · rw [hrun, hk]
    rfl
  · rw [← List.take_append_drop k sorted, List.pairwise_append] at hpairwise
    intro i hi j hj hprecedes
    exact Bool.eq_false_iff.1 (hpairwise.2.2 i hi j hj).1 (Sorting.comesBefore_iff.2 hprecedes)

/-- Games with their points, which may be missing. -/
def games : Table where
  name := "games"
  columns := [.generatedKey "rowid", { name := "points", affinity := .integer, nullable := true }]
  keyName := "rowid"
  implicitKey := true
  settings := {}
  cursor := 1

def playGames : List Table.Operation :=
  [.insert [("points", .int 3)], .insert [("points", .null)], .insert [("points", .text "7")],
    .insert [("points", .int 3)]]

def scoreboard : Database := (({ name := "main" } : Database).addTable (games.run playGames)).2

def leaders : Plan where
  selection := .columns [.column "rowid", .column "points"]
  table := "games"
  filter := .all
  order := some ("points", .desc)
  limit := some 3

theorem Plan.sorted_of_made_games :
    let t := games.run playGames
    let db := (({ name := "main" } : Database).addTable t).2
    let p := leaders
    p.run db = .ok (.rows ["rowid", "points"]
        [[.integer 3, .integer 7], [.integer 1, .integer 3], [.integer 4, .integer 3]]) ∧
      ∃ sorted, t.sortPlaces p.order (Broadcast.places [true, true, true, true]) = .ok sorted ∧
        sorted.Perm (Broadcast.places [true, true, true, true]) ∧
        Sorting.Ordered (t.cellAt "points") .desc sorted ∧
        (p.limit = none → p.run db = p.selection.project db t sorted) ∧
        ∀ k, p.limit = some k →
          p.run db = p.selection.project db t (sorted.take k) ∧
          ∀ i ∈ sorted.take k, ∀ j ∈ sorted.drop k,
            ¬ Sorting.Precedes .desc (t.cellAt "points" j) (t.cellAt "points" i) := by
  intro t db p
  let points : Column := { name := "points", affinity := .integer, nullable := true }
  have hcreate : Table.create "games" [points] none {} = .ok games := by decide
  have ht : t.Made := (Table.Made.create hcreate).run (by simp [playGames, Table.Operation.rows])
  have hc : points ∈ t.columns := by decide
  refine ⟨by decide, ?_⟩
  exact sorted_of_made ht hc rfl (.inl rfl) (by decide) rfl (by decide)

end Tabular
