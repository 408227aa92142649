import Tabular.Proofs.Query.Membership
import Tabular.Proofs.Query.Order
import Mathlib.Tactic.Choose

/-!
Queries on two tables that hold the same lines in different orders. A textual predicate looks at one
line at a time, so a filter keeps the same lines of both, and fails on both or on none. Where the
keys of these lines differ, only one order of them is sorted.
-/
namespace Tabular

/-- The tables have the same columns and the same key. -/
structure Table.SameSchema (t s : Table) : Prop where
  columns : s.columns = t.columns
  keyName : s.keyName = t.keyName
  implicitKey : s.implicitKey = t.implicitKey

def Table.lines (t : Table) : List (List Value) := t.rows.map t.line

/-- The cell of a declared column in a line. -/
def Table.cellIn (t : Table) (column : String) (cells : List Value) : Value :=
  cells[t.declared.findIdx (·.name == column)]?.getD .null

namespace Table

variable {t s : Table}

theorem length_lines (t : Table) : t.lines.length = t.size := by
  rw [lines, List.length_map, length_rows]

theorem SameSchema.refl (t : Table) : t.SameSchema t := ⟨rfl, rfl, rfl⟩

theorem SameSchema.symm (h : t.SameSchema s) : s.SameSchema t :=
  ⟨h.columns.symm, h.keyName.symm, h.implicitKey.symm⟩

theorem SameSchema.declared_eq (h : t.SameSchema s) : s.declared = t.declared := by
  unfold declared
  rw [h.columns, h.keyName, h.implicitKey]

theorem SameSchema.projections_eq (h : t.SameSchema s) (selection : Selection) :
    selection.projections s = selection.projections t := by
  cases selection <;> simp only [Selection.projections, h.declared_eq]

theorem SameSchema.cellIn_eq (h : t.SameSchema s) : s.cellIn = t.cellIn := by
  funext column line
  rw [cellIn, h.declared_eq, cellIn]

theorem cellIn_line {c : Column} (hc : c ∈ t.declared) (row : Row) :
    t.cellIn c.name (t.line row) = row.cell c.name := by
  have hlt : t.declared.findIdx (·.name == c.name) < t.declared.length :=
    List.findIdx_lt_length_of_exists ⟨c, hc, beq_self_eq_true _⟩
  have hname := List.findIdx_getElem (w := hlt)
  simp only [beq_iff_eq] at hname
  rw [cellIn, line, List.getElem?_map, List.getElem?_eq_getElem hlt]
  simp [hname]

theorem WellFormed.columnCells_eq_lines (hw : t.WellFormed) {c : Column} (hc : c ∈ t.declared) :
    t.columnCells c.name = .ok (t.lines.map (t.cellIn c.name)) := by
  rw [hw.columnCells_eq (mem_columns_of_mem_declared hc), lines, List.map_map]
  simp only [Function.comp_def, cellIn_line hc]

end Table

/-- A test that asks no other query. -/
def FieldTest.Textual : FieldTest → Prop
  | .inQuery _ _ => False
  | _ => True

def Predicate.Textual (columns : List Column) : Predicate → Prop
  | .bare field => ∃ c ∈ columns, c.name = field
  | .test field demand => (∃ c ∈ columns, c.name = field) ∧ demand.Textual
  | .condition _ => False

mutual

def PredicateTree.Textual (columns : List Column) : PredicateTree → Prop
  | .leaf p => p.Textual columns
  | .group _ members => PredicateTree.AllTextual columns members

def PredicateTree.AllTextual (columns : List Column) : List PredicateTree → Prop
  | [] => True
  | member :: members => member.Textual columns ∧ PredicateTree.AllTextual columns members

end

def Filter.Textual (columns : List Column) : Filter → Prop
  | .all => True
  | .tree root => root.Textual columns

theorem Broadcast.exists_testAll_map {α : Type} {test : α → Except Error Bool} {as : List α}
    {bs : List Bool} (h : testAll test as = .ok bs) :
    ∃ g : α → Bool, ∀ as' ⊆ as, testAll test as' = .ok (as'.map g) := by
  have hall := Except.exists_mapM_eq_ok_iff.1 ⟨bs, testAll_eq_ok_iff.1 h⟩
  choose! g hg using hall
  refine ⟨g, fun as' hsub => testAll_eq_ok_iff.2 (Except.mapM_eq_ok_iff.2 ?_)⟩
  exact List.forall₂_map_right_iff.2 (List.forall₂_same.2 fun a ha => hg a (hsub ha))

theorem FieldTest.exists_mask_map {test : FieldTest} (textual : test.Textual) {db : Database}
    {column : Column} {cells : List Value} {mask : List Bool}
    (h : test.mask db column cells = .ok mask) :
    ∃ g : Value → Bool, ∀ (db' : Database), ∀ cells' ⊆ cells,
      test.mask db' column cells' = .ok (cells'.map g) := by
  cases test with
  | compare c raw =>
    obtain ⟨w, hw, h⟩ := Except.bind_eq_ok_iff.1 h
    obtain ⟨g, hg⟩ := Broadcast.exists_testAll_map h
    exact ⟨g, fun _ cells' hsub => Except.bind_eq_ok_iff.2 ⟨w, hw, hg cells' hsub⟩⟩
  | like negated pattern => exact ⟨_, fun _ _ _ => rfl⟩
  | oneOf negated raws =>
    obtain ⟨set, hset, -⟩ := Except.bind_eq_ok_iff.1 h
    exact ⟨_, fun _ _ _ => Except.bind_eq_ok_iff.2 ⟨set, hset, rfl⟩⟩
  | inQuery negated p => exact textual.elim
  | between low high =>
    obtain ⟨lo, hlo, h⟩ := Except.bind_eq_ok_iff.1 h
    obtain ⟨hi, hhi, h⟩ := Except.bind_eq_ok_iff.1 h
    obtain ⟨g, hg⟩ := Broadcast.exists_testAll_map h
    exact ⟨g, fun _ cells' hsub => Except.bind_eq_ok_iff.2
      ⟨lo, hlo, Except.bind_eq_ok_iff.2 ⟨hi, hhi, hg cells' hsub⟩⟩⟩
  | isNull negated => exact ⟨_, fun _ _ _ => rfl⟩

/-- The rows that are marked on every table with the schema of `t` and no lines but those of
`t`. -/
def Table.Marks (t : Table) (mask : Database → Table → Except Error (List Bool))
    (g : List Value → Bool) : Prop :=
  ∀ db s, s.WellFormed → t.SameSchema s → s.lines ⊆ t.lines → mask db s = .ok (s.lines.map g)

section

variable {t : Table} {db : Database}

theorem Predicate.mask_test (hw : t.WellFormed) {c : Column} (hc : c ∈ t.declared)
    (demand : FieldTest) (db : Database) :
    (test c.name demand).mask db t = demand.mask db c (t.lines.map (t.cellIn c.name)) := by
  have hcolumn := hw.column?_eq_some_iff.2 ⟨Table.mem_columns_of_mem_declared hc, rfl⟩
  simp only [Predicate.mask, hcolumn, hw.columnCells_eq_lines hc]
  rfl

theorem Predicate.exists_marks (hw : t.WellFormed) {p : Predicate} (textual : p.Textual t.declared)
    {mask : List Bool} (h : p.mask db t = .ok mask) :
    ∃ g, t.Marks (fun db s => p.mask db s) g := by
  cases p with
  | bare field =>
    obtain ⟨c, hc, rfl⟩ := textual
    refine ⟨fun _ => false, fun db s hs schema _ => ?_⟩
    have hfield := hs.fieldCells_eq
      (Table.mem_columns_of_mem_declared (schema.declared_eq ▸ hc))
    refine Except.bind_eq_ok_iff.2 ⟨_, hfield, ?_⟩
    rw [Table.lines, List.map_map, List.map_map]
    rfl
  | test field demand =>
    obtain ⟨⟨c, hc, rfl⟩, hdemand⟩ := textual
    rw [mask_test hw hc] at h
    obtain ⟨g, hg⟩ := demand.exists_mask_map hdemand h
    refine ⟨fun line => g (t.cellIn c.name line), fun db s hs schema hsub => ?_⟩
    refine (mask_test hs (schema.declared_eq ▸ hc) demand db).trans ?_
    rw [schema.cellIn_eq, hg db _ (List.map_subset _ hsub), List.map_map]
    rfl
  | condition c => exact textual.elim

mutual

theorem PredicateTree.exists_marks (hw : t.WellFormed) : ∀ {root : PredicateTree}
    {mask : List Bool}, root.Textual t.declared → root.mask db t = .ok mask →
    ∃ g, t.Marks (fun db s => root.mask db s) g
  | .leaf _, _, textual, h => Predicate.exists_marks hw textual h
  | .group c members, _, textual, h => by
    have hgroup : ∀ (db : Database) (s : Table), (group c members).mask db s =
        PredicateTree.join db s c (s.lines.map fun _ => c.unit) members := by
      intro db s
      rw [PredicateTree.mask, List.map_const', Table.length_lines]
    rw [hgroup] at h
    obtain ⟨g, hg⟩ := PredicateTree.exists_marks_join hw textual h
    exact ⟨g, fun db s hs schema hsub => (hgroup db s).trans (hg db s hs schema hsub)⟩

theorem PredicateTree.exists_marks_join (hw : t.WellFormed) : ∀ {members : List PredicateTree}
    {c : Connective} {g : List Value → Bool} {mask : List Bool},
    PredicateTree.AllTextual t.declared members →
    PredicateTree.join db t c (t.lines.map g) members = .ok mask →
    ∃ g', t.Marks (fun db s => PredicateTree.join db s c (s.lines.map g) members) g'
  | [], _, g, _, _, _ => ⟨g, fun _ _ _ _ _ => rfl⟩
  | member :: members, c, g, _, ⟨hmember, hmembers⟩, h => by
    obtain ⟨bits, hbits, h⟩ := Except.bind_eq_ok_iff.1 h
    obtain ⟨f, hf⟩ := PredicateTree.exists_marks hw hmember hbits
    have hown := hf db t hw (.refl t) (List.Subset.refl _)
    obtain rfl : bits = t.lines.map f := Except.ok.inj (hbits.symm.trans hown)
    have hzip : ∀ lines : List (List Value), List.zipWith c.apply (lines.map g) (lines.map f) =
        lines.map fun line => c.apply (g line) (f line) := fun lines => by
      rw [List.zipWith_map, List.zipWith_self]
    rw [hzip] at h
    obtain ⟨g', hg'⟩ := PredicateTree.exists_marks_join hw hmembers h
    refine ⟨g', fun db s hs schema hsub => ?_⟩
    refine Except.bind_eq_ok_iff.2 ⟨_, hf db s hs schema hsub, ?_⟩
    rw [hzip]
    exact hg' db s hs schema hsub

end

/-- A textual filter that succeeds on a table marks the rows of every reordered table by their
lines. -/
theorem Filter.exists_marks (hw : t.WellFormed) {f : Filter} (textual : f.Textual t.declared)
    {mask : List Bool} (h : f.mask db t = .ok mask) :
    ∃ g, t.Marks (fun db s => f.mask db s) g := by
  cases f with
  | all =>
    refine ⟨fun _ => true, fun db s _ _ _ => ?_⟩
    simp only [Filter.mask]
    rw [List.map_const', Table.length_lines]
  | tree root => exact PredicateTree.exists_marks hw textual h

end

theorem Value.compare_eq_symm {v w : Value} (h : v.compare w = .ok .eq) :
    w.compare v = .ok .eq := by
  rw [compare_eq_ok_iff] at h ⊢
  rw [v.order?_swap w, h, Option.map_some, Ordering.swap]

theorem Sorting.compare_eq_of_comesBefore {c : StorageClass} {d : Direction} {v w : Value}
    (hv : Key c v) (hw : Key c w) (hvw : comesBefore d v w = false)
    (hwv : comesBefore d w v = false) : v.compare w = .ok .eq := by
  have hkeys : keyOrder v w = .eq := by
    have hswap := keyOrder_swap v w
    cases d <;> cases ho : keyOrder v w <;> simp_all [comesBefore]
  by_cases hvn : v = .null
  · subst hvn
    rw [keyOrder_null_left] at hkeys
    cases w <;> first | rfl | cases hkeys
  by_cases hwn : w = .null
  · subst hwn
    rw [keyOrder_null_right] at hkeys
    cases v <;> first | rfl | cases hkeys
  obtain ⟨o, ho⟩ := hv.exists_compare hw hvn hwn
  have horder := Value.compare_eq_ok_iff.1 ho
  have hsame : keyOrder v w = o := by
    cases v <;> cases w <;> simp_all [keyOrder, Value.isNull]
  rw [ho, ← hsame, hkeys]

/-- Elements with different keys have only one order in which they are sorted. -/
theorem Sorting.eq_of_perm {α : Type} {key : α → Value} {c : StorageClass} {d : Direction}
    {xs ys : List α} (hkeys : ∀ x ∈ xs, Key c (key x))
    (different : xs.Pairwise fun a b => (key a).compare (key b) ≠ .ok .eq) (hperm : xs.Perm ys)
    (hxs : xs.Pairwise fun a b => comesBefore d (key b) (key a) = false)
    (hys : ys.Pairwise fun a b => comesBefore d (key b) (key a) = false) : xs = ys := by
  refine hperm.eq_of_pairwise (fun a b ha hb hab hba => ?_) hxs hys
  have hb := hperm.symm.subset hb
  have hequal := compare_eq_of_comesBefore (hkeys a ha) (hkeys b hb) hba hab
  have hsymm : Std.Symm fun a b => (key a).compare (key b) ≠ .ok .eq :=
    ⟨fun _ _ => mt Value.compare_eq_symm⟩
  by_contra hne
  exact different.forall ha hb hne hequal

theorem Table.cellAt_eq_cell {t : Table} {i : Nat} {row : Row} (h : t.rows[i]? = some row)
    (column : String) : t.cellAt column i = row.cell column := by
  rw [cellAt, h, Option.bind_some, Row.cell]

theorem Table.lines_of_places (t : Table) (g : List Value → Bool) :
    ((Broadcast.places (t.lines.map g)).filterMap (t.rows[·]?)).map t.line = t.lines.filter g := by
  rw [lines, List.map_map, Broadcast.filterMap_places, List.filter_map]

theorem Table.pairwise_lines {t : Table} {c : Column} (hc : c ∈ t.declared)
    (R : Value → Value → Prop) {places : List Nat}
    (h : places.Pairwise fun i j => R (t.cellAt c.name i) (t.cellAt c.name j)) :
    ((places.filterMap (t.rows[·]?)).map t.line).Pairwise
      fun a b => R (t.cellIn c.name a) (t.cellIn c.name b) := by
  refine List.pairwise_map.2 (h.filterMap _ fun i j hij row hi row' hj => ?_)
  rw [cellIn_line hc, cellIn_line hc]
  rwa [cellAt_eq_cell hi, cellAt_eq_cell hj] at hij

theorem Table.Made.exists_key_line {t : Table} (ht : t.Made) {c : Column} (hc : c ∈ t.declared)
    (lax : c.strict = false)
    (haffinity : c.affinity = .integer ∨ c.affinity = .real ∨ c.affinity = .text) :
    ∃ k, ∀ line ∈ t.lines, Sorting.Key k (t.cellIn c.name line) := by
  obtain ⟨k, hk⟩ := ht.exists_key (mem_columns_of_mem_declared hc) lax haffinity
  refine ⟨k, fun line hline => ?_⟩
  obtain ⟨row, hrow, rfl⟩ := List.mem_map.1 hline
  obtain ⟨i, hi⟩ := List.mem_iff_getElem?.1 hrow
  rw [cellIn_line hc, ← cellAt_eq_cell hi]
  exact hk i

theorem filterMap_take_of_isSome {α β : Type} {f : α → Option β} {as : List α}
    (h : ∀ a ∈ as, (f a).isSome = true) (k : Nat) :
    (as.take k).filterMap f = (as.filterMap f).take k := by
  induction as generalizing k with
  | nil => simp
  | cons a as ih =>
    obtain ⟨ha, has⟩ := List.forall_mem_cons.1 h
    obtain ⟨b, hb⟩ := Option.isSome_iff_exists.1 ha
    cases k with
    | zero => rfl
    | succ k => simp [hb, ih has]

theorem Table.filterMap_limitPlaces {α : Type} {f : Nat → Option α} {places : List Nat}
    (h : ∀ i ∈ places, (f i).isSome = true) (limit : Option Nat) :
    (limitPlaces limit places).filterMap f =
      limit.elim (places.filterMap f) (places.filterMap f).take := by
  cases limit with
  | none => rfl
  | some k => exact filterMap_take_of_isSome h k

def Selection.shown (selection : Selection) (t : Table) (lines : List (List Value)) : Answer :=
  .rows ((selection.projections t).map (·.name))
    (lines.map fun line => (selection.projections t).map fun p => t.cellIn p.name line)

theorem Selection.Plain.shown_lines {t : Table} {selection : Selection}
    (plain : selection.Plain t.declared) (rows : List Row) :
    selection.shown t (rows.map t.line) = .rows ((selection.projections t).map (·.name))
      (rows.map fun row => (selection.projections t).map fun p => row.cell p.name) := by
  rw [shown, List.map_map]
  refine congrArg _ (List.map_congr_left fun row _ => List.map_congr_left fun p hp => ?_)
  obtain ⟨c, hc, rfl⟩ := plain.exists_column (List.Subset.refl _) hp
  exact Table.cellIn_line hc row

theorem Table.SameSchema.shown_eq {t s : Table} (h : t.SameSchema s) (selection : Selection) :
    selection.shown s = selection.shown t := by
  funext lines
  rw [Selection.shown, h.projections_eq, h.cellIn_eq, Selection.shown]

namespace Plan

section

variable {t : Table} {c : Column} {db : Database} {p : Plan} {d : Direction}

/-- A query in the order of a lax column of numbers or text shows the lines that its filter keeps,
as far as its limit goes. None of them comes before one that stands before it. -/
theorem exists_sorted_lines (ht : t.Made) (hc : c ∈ t.declared) (lax : c.strict = false)
    (haffinity : c.affinity = .integer ∨ c.affinity = .real ∨ c.affinity = .text)
    (source : db.table p.table = .ok t) (plain : p.selection.Plain t.declared)
    (order : p.order = some (c.name, d)) {g : List Value → Bool}
    (hm : p.filter.mask db t = .ok (t.lines.map g)) :
    ∃ lines : List (List Value), lines.Perm (t.lines.filter g) ∧
      lines.Pairwise (fun a b =>
        Sorting.comesBefore d (t.cellIn c.name b) (t.cellIn c.name a) = false) ∧
      p.run db = .ok (p.selection.shown t (p.limit.elim lines lines.take)) := by
  have hw := ht.reachable.wellFormed
  obtain ⟨sorted, hsorted, hpairwise⟩ := ht.exists_sortPlaces
    (Table.mem_columns_of_mem_declared hc) lax haffinity d
    (Broadcast.pairwise_places (t.lines.map g))
  rw [← order] at hsorted
  have hrow : ∀ i ∈ sorted, (t.rows[i]?).isSome = true := fun i hi => by
    simpa [isSome_getElem?] using Table.places_lt_size hm hsorted i hi
  have hselected : p.selected db =
      .ok (p.limit.elim (sorted.filterMap (t.rows[·]?)) (sorted.filterMap (t.rows[·]?)).take) := by
    rw [selected]
    refine Except.bind_eq_ok_iff.2 ⟨t, source, ?_⟩
    refine Except.bind_eq_ok_iff.2 ⟨_, hm, ?_⟩
    refine Except.bind_eq_ok_iff.2 ⟨sorted, hsorted, ?_⟩
    rw [Table.filterMap_limitPlaces hrow]
    rfl
  refine ⟨(sorted.filterMap (t.rows[·]?)).map t.line, ?_, ?_, ?_⟩
  · rw [← t.lines_of_places g]
    exact ((Table.sortPlaces_perm hsorted).filterMap _).map _
  · exact Table.pairwise_lines hc (fun v w => Sorting.comesBefore d w v = false)
      (hpairwise.imp fun hij => hij.1)
  · have hlimit : p.limit.elim ((sorted.filterMap (t.rows[·]?)).map t.line)
        ((sorted.filterMap (t.rows[·]?)).map t.line).take =
        (p.limit.elim (sorted.filterMap (t.rows[·]?)) (sorted.filterMap (t.rows[·]?)).take).map
          t.line := by
      cases p.limit with
      | none => rfl
      | some k => exact List.map_take.symm
    rw [hlimit, plain.shown_lines]
    exact run_of_selected_plain hw source
      (plain.mono fun _ => Table.mem_columns_of_mem_declared) hselected

end

variable {t s : Table} {c : Column} {db db' : Database} {p : Plan} {other : String} {d : Direction}

/-- Where the filter succeeds, the lines that it keeps have only one order in which they are
sorted. -/
theorem run_eq_of_mask (ht : t.Made) (hs : s.Made) (schema : t.SameSchema s)
    (hlines : t.lines.Perm s.lines) (source : db.table p.table = .ok t)
    (source' : db'.table other = .ok s) (plain : p.selection.Plain t.declared)
    (textual : p.filter.Textual t.declared) (hc : c ∈ t.declared) (lax : c.strict = false)
    (haffinity : c.affinity = .integer ∨ c.affinity = .real ∨ c.affinity = .text)
    (order : p.order = some (c.name, d))
    (different : ∀ mask, p.filter.mask db t = .ok mask → (Broadcast.places mask).Pairwise
      fun i j => (t.cellAt c.name i).compare (t.cellAt c.name j) ≠ .ok .eq)
    {mask : List Bool} (hm : p.filter.mask db t = .ok mask) :
    p.run db = ({ p with table := other } : Plan).run db' := by
  have hw := ht.reachable.wellFormed
  obtain ⟨g, hg⟩ := Filter.exists_marks hw textual hm
  have hmask := hg db t hw (.refl t) (List.Subset.refl _)
  have hmask' := hg db' s hs.reachable.wellFormed schema hlines.symm.subset
  obtain ⟨lines, hkept, hsorted, hrun⟩ :=
    exists_sorted_lines ht hc lax haffinity source plain order hmask
  obtain ⟨lines', hkept', hsorted', hrun'⟩ :=
    exists_sorted_lines (p := { p with table := other }) hs (schema.declared_eq ▸ hc) lax haffinity
      source' (schema.declared_eq ▸ plain) order hmask'
  rw [schema.cellIn_eq] at hsorted'
  have hsame : lines.Perm lines' := hkept.trans ((hlines.filter g).trans hkept'.symm)
  obtain ⟨k, hkeys⟩ := ht.exists_key_line hc lax haffinity
  have hkeyed : ∀ line ∈ lines, Sorting.Key k (t.cellIn c.name line) := fun line hline =>
    hkeys line (List.mem_of_mem_filter (hkept.subset hline))
  have hdifferent : lines.Pairwise fun a b =>
      (t.cellIn c.name a).compare (t.cellIn c.name b) ≠ .ok .eq := by
    rw [hkept.pairwise_iff fun h => mt Value.compare_eq_symm h, ← t.lines_of_places g]
    exact Table.pairwise_lines hc (fun v w => v.compare w ≠ .ok .eq) (different _ hmask)
  have hlists := Sorting.eq_of_perm hkeyed hdifferent hsame hsorted hsorted'
  rw [hrun, hrun', hlists, schema.shown_eq]

/-- Queries do not see in which order rows were inserted. On two tables with the same schema that
hold the same lines, a query for declared columns with a textual filter fails on both, or it answers
the same on both, if it asks for the order of a declared lax column of numbers or text in which no
two of the rows that it filters have equal values. NULL counts as equal to NULL here. -/
theorem run_reordered (ht : t.Made) (hs : s.Made) (schema : t.SameSchema s)
    (hlines : t.lines.Perm s.lines) (source : db.table p.table = .ok t)
    (source' : db'.table other = .ok s) (plain : p.selection.Plain t.declared)
    (textual : p.filter.Textual t.declared) (hc : c ∈ t.declared) (lax : c.strict = false)
    (haffinity : c.affinity = .integer ∨ c.affinity = .real ∨ c.affinity = .text)
    (order : p.order = some (c.name, d))
    (different : ∀ mask, p.filter.mask db t = .ok mask → (Broadcast.places mask).Pairwise
      fun i j => (t.cellAt c.name i).compare (t.cellAt c.name j) ≠ .ok .eq) :
    (p.run db).toOption = (({ p with table := other } : Plan).run db').toOption := by
  have hrun : ∀ mask, p.filter.mask db t = .ok mask →
      p.run db = ({ p with table := other } : Plan).run db' := fun _ =>
    run_eq_of_mask ht hs schema hlines source source' plain textual hc lax haffinity order different
  rw [Except.toOption_eq_iff]
  refine fun answer => ⟨fun h => ?_, fun h => ?_⟩
  · obtain ⟨t', mask, -, source₁, hm, -⟩ := run_eq_ok_iff.1 h
    obtain rfl : t = t' := Except.ok.inj (source.symm.trans source₁)
    rw [← hrun mask hm, h]
  · obtain ⟨s', mask, -, source₁, hm, -⟩ := run_eq_ok_iff.1 h
    obtain rfl : s = s' := Except.ok.inj (source'.symm.trans source₁)
    obtain ⟨g, hg⟩ := Filter.exists_marks hs.reachable.wellFormed
      (schema.declared_eq ▸ textual) hm
    rw [hrun _ (hg db t ht.reachable.wellFormed schema.symm hlines.subset), h]

end Plan

def guests : Table where
  name := "guests"
  columns := [.generatedKey "rowid", { name := "name", affinity := .text },
    { name := "age", affinity := .integer }]
  keyName := "rowid"
  implicitKey := true
  settings := {}
  cursor := 1

def arrivals : List Table.Operation :=
  [.insert [("name", .text "Ann"), ("age", .int 31)],
    .insert [("name", .text "Bob"), ("age", .int 17)],
    .insert [("name", .text "Cid"), ("age", .int 64)]]

/-- The adult guests in some order. -/
def adults (column : String) : Plan where
  selection := .columns [.column "name"]
  table := "guests"
  filter := .tree (.leaf (.test "age" (.compare .gt (.int 20))))
  order := some (column, .desc)
  limit := some 2

theorem guests_made {ops : List Table.Operation} (h : ops ⊆ arrivals) : (guests.run ops).Made := by
  have hcreate : Table.create "guests" [{ name := "name", affinity := .text },
      { name := "age", affinity := .integer }] none {} = .ok guests := by decide
  have hrows : ∀ op ∈ arrivals, ∀ row ∈ op.rows, Row.Made row := by
    simp [arrivals, Table.Operation.rows]
  exact (Table.Made.create hcreate).run fun op hop => hrows op (h hop)

theorem guests_reordered :
    (guests.run arrivals).SameSchema (guests.run arrivals.reverse) ∧
      (guests.run arrivals).lines.Perm (guests.run arrivals.reverse).lines :=
  ⟨⟨by decide, by decide, by decide⟩, by decide⟩

theorem adults_plain (column : String) :
    (adults column).selection.Plain (guests.run arrivals).declared ∧
      (adults column).filter.Textual (guests.run arrivals).declared := by
  refine ⟨fun p hp => ?_, ⟨{ name := "age", affinity := .integer }, by decide, rfl⟩, trivial⟩
  obtain rfl := List.mem_singleton.1 hp
  exact ⟨{ name := "name", affinity := .text }, by decide, rfl⟩

def guestbook (ops : List Table.Operation) : Database :=
  (({ name := "main" } : Database).addTable (guests.run ops)).2

theorem adults_mask (column : String) :
    (adults column).filter.mask (guestbook arrivals) (guests.run arrivals) =
      .ok [true, false, true] := by
  simp only [adults]
  decide

theorem Plan.run_reordered_guests :
    (adults "age").run (guestbook arrivals) =
        .ok (.rows ["name"] [[.text "Cid"], [.text "Ann"]]) ∧
      ((adults "age").run (guestbook arrivals)).toOption =
        (({ adults "age" with table := "guests" } : Plan).run
          (guestbook arrivals.reverse)).toOption := by
  let age : Column := { name := "age", affinity := .integer }
  have hage : age ∈ (guests.run arrivals).declared := by decide
  refine ⟨by decide, ?_⟩
  refine run_reordered (guests_made (List.Subset.refl _)) (guests_made (by simp))
    guests_reordered.1 guests_reordered.2 (by decide) (by decide) (adults_plain "age").1
    (adults_plain "age").2 hage rfl (.inl rfl) rfl fun mask hm => ?_
  obtain rfl := Except.ok.inj ((adults_mask "age").symm.trans hm)
  decide

/-- Generated keys are given in the order of insertion, so a query in their order does see it. -/
theorem Plan.run_ne_reordered_guests :
    let t := guests.run arrivals
    let s := guests.run arrivals.reverse
    let p := adults "rowid"
    t.Made ∧ s.Made ∧ t.SameSchema s ∧ t.lines.Perm s.lines ∧
      p.selection.Plain t.declared ∧ p.filter.Textual t.declared ∧
      (∃ c ∈ t.columns, c.strict = false ∧ c.affinity = .integer ∧
        p.order = some (c.name, .desc) ∧
        ∀ mask, p.filter.mask (guestbook arrivals) t = .ok mask →
          (Broadcast.places mask).Pairwise
            fun i j => (t.cellAt c.name i).compare (t.cellAt c.name j) ≠ .ok .eq) ∧
      p.run (guestbook arrivals) = .ok (.rows ["name"] [[.text "Cid"], [.text "Ann"]]) ∧
      p.run (guestbook arrivals.reverse) =
        .ok (.rows ["name"] [[.text "Ann"], [.text "Cid"]]) := by
  intro t s p
  have hdifferent : ∀ mask, p.filter.mask (guestbook arrivals) t = .ok mask →
      (Broadcast.places mask).Pairwise
        fun i j => (t.cellAt "rowid" i).compare (t.cellAt "rowid" j) ≠ .ok .eq := by
    intro mask hm
    obtain rfl := Except.ok.inj ((adults_mask "rowid").symm.trans hm)
    decide
  exact ⟨guests_made (List.Subset.refl _), guests_made (by simp), guests_reordered.1,
    guests_reordered.2, (adults_plain "rowid").1, (adults_plain "rowid").2,
    ⟨.generatedKey "rowid", by decide, rfl, rfl, rfl, hdifferent⟩, by decide, by decide⟩

end Tabular
