import Tabular.Proofs.Identifier
import Tabular.Proofs.Query.Select
import Tabular.Proofs.Table.Conforms

/-!
Queries for the rows with a given value in a column. The rows that a query selects are followed as
rows, and a star is read off them; a filter with IN keeps the rows whose cell is equal to the value
in the form that the column gives to literals.
-/
namespace Tabular

/-- The cell of a column, which every row of a table has. -/
def Row.cell (row : Row) (column : String) : Value := (row.get? column).getD .null

/-- The declared cells of a row, as a star shows them. -/
def Table.line (t : Table) (row : Row) : List Value := t.declared.map fun c => row.cell c.name

namespace Table.WellFormed

variable {t : Table}

theorem get?_eq_cell (h : t.WellFormed) {row : Row} (hrow : row ∈ t.rows) {c : Column}
    (hc : c ∈ t.columns) : row.get? c.name = some (row.cell c.name) := by
  obtain ⟨vs, hvs⟩ := exists_columnCells hc
  have hcells := h.forall₂_columnCells hvs
  obtain ⟨i, hi, rfl⟩ := List.mem_iff_getElem.1 hrow
  have hcell := hcells.get hi (hcells.length_eq ▸ hi)
  simp only [List.get_eq_getElem] at hcell
  rw [Row.cell, hcell, Option.getD_some]

theorem columnCells_eq (h : t.WellFormed) {c : Column} (hc : c ∈ t.columns) :
    t.columnCells c.name = .ok (t.rows.map fun row => row.cell c.name) := by
  obtain ⟨vs, hvs⟩ := exists_columnCells hc
  have hcells : List.Forall₂ (fun row v => row.cell c.name = v) t.rows vs :=
    (h.forall₂_columnCells hvs).imp fun row v hv => by rw [Row.cell, hv, Option.getD_some]
  have hmap := List.forall₂_map_left_iff.2 hcells
  rw [List.forall₂_eq_eq_eq] at hmap
  rw [hvs, hmap]

theorem fieldCells_eq (h : t.WellFormed) {c : Column} (hc : c ∈ t.columns) :
    t.fieldCells c.name = .ok (t.rows.map fun row => row.cell c.name) := by
  have hsome : (t.column? c.name).isSome = true := by
    rw [column?, List.find?_isSome]
    exact ⟨c, hc, beq_self_eq_true _⟩
  rw [fieldCells, if_pos hsome, h.columnCells_eq hc]

end Table.WellFormed

theorem Table.mem_columns_of_mem_declared {t : Table} {c : Column} (hc : c ∈ t.declared) :
    c ∈ t.columns := by
  unfold declared at hc
  split at hc
  · exact List.mem_of_mem_filter hc
  · exact hc

theorem Table.places_lt_size {db : Database} {t : Table} {f : Filter} {mask : List Bool}
    (hm : f.mask db t = .ok mask) {order : Option (String × Direction)} {sorted : List Nat}
    (hs : t.sortPlaces order (Broadcast.places mask) = .ok sorted) : ∀ i ∈ sorted, i < t.size := by
  intro i hi
  have hmem := (Table.sortPlaces_perm hs).mem_iff.1 hi
  obtain ⟨hlt, -⟩ := List.getElem?_eq_some_iff.1 (Broadcast.mem_places_iff.1 hmem)
  rwa [Filter.length_mask hm] at hlt

theorem forall₂_filterMap {α β : Type} {f : α → Option β} {as : List α}
    (h : ∀ a ∈ as, (f a).isSome = true) :
    List.Forall₂ (fun a b => f a = some b) as (as.filterMap f) := by
  induction as with
  | nil => exact .nil
  | cons a as ih =>
    obtain ⟨ha, has⟩ := List.forall_mem_cons.1 h
    obtain ⟨b, hb⟩ := Option.isSome_iff_exists.1 ha
    rw [List.filterMap_cons_some hb]
    exact .cons hb (ih has)

theorem filterMap_getElem?_range {α : Type} (as : List α) :
    (List.range as.length).filterMap (as[·]?) = as := by
  induction as with
  | nil => rfl
  | cons a as ih => simp [List.range_succ_eq_map, List.filterMap_map, ih]

theorem Broadcast.filterMap_places {α : Type} (f : α → Bool) (as : List α) :
    (places (as.map f)).filterMap (as[·]?) = as.filter f := by
  conv_rhs => rw [← filterMap_getElem?_range as]
  rw [places, List.filterMap_filter, List.filter_filterMap, List.length_map]
  refine List.filterMap_congr fun i _ => ?_
  rw [List.getElem?_map]
  cases as[i]? <;> simp [Option.filter]

/-- A selection of some columns as they are, or of all. -/
def Selection.Plain (columns : List Column) : Selection → Prop
  | .star => True
  | .columns ps => ∀ p ∈ ps, ∃ c ∈ columns, p = .column c.name
  | .aggregates _ => False

theorem Selection.Plain.exists_column {t : Table} {columns : List Column} {s : Selection}
    (hs : s.Plain columns) (declared : t.declared ⊆ columns) {p : Projection}
    (hp : p ∈ s.projections t) : ∃ c ∈ columns, p = .column c.name := by
  cases s with
  | star =>
    obtain ⟨c, hc, rfl⟩ := List.mem_map.1 hp
    exact ⟨c, declared hc, rfl⟩
  | columns ps => exact hs p hp
  | aggregates as => exact hs.elim

theorem Selection.Plain.mono {columns more : List Column} {s : Selection} (hs : s.Plain columns)
    (h : columns ⊆ more) : s.Plain more := by
  cases s with
  | star => trivial
  | columns ps =>
    intro p hp
    obtain ⟨c, hc, rfl⟩ := hs p hp
    exact ⟨c, h hc, rfl⟩
  | aggregates as => exact hs.elim

theorem Selection.Plain.rowwise {columns : List Column} {s : Selection} (hs : s.Plain columns)
    (name : String) : s.Rowwise name := by
  cases s with
  | star => trivial
  | columns ps =>
    intro p hp
    obtain ⟨c, -, rfl⟩ := hs p hp
    trivial
  | aggregates as => exact hs.elim

theorem Selection.project_plain {db : Database} {t : Table} (hw : t.WellFormed) {name : String}
    (source : db.table name = .ok t) {s : Selection} (hs : s.Plain t.columns)
    {places : List Nat} (hplaces : ∀ i ∈ places, i < t.size) :
    s.project db t places = .ok (.rows ((s.projections t).map (·.name))
      ((places.filterMap (t.rows[·]?)).map fun row =>
        (s.projections t).map fun p => row.cell p.name)) := by
  have hcolumn : ∀ p ∈ s.projections t, ∃ c ∈ t.columns, p = .column c.name := fun p hp =>
    hs.exists_column (fun _ => Table.mem_columns_of_mem_declared) hp
  have hread : ∀ p ∈ s.projections t, ∃ column, p.read db t places = .ok column := by
    intro p hp
    obtain ⟨c, hc, rfl⟩ := hcolumn p hp
    exact ⟨_, Except.bind_eq_ok_iff.2 ⟨_, hw.fieldCells_eq hc, rfl⟩⟩
  obtain ⟨columns, hcolumns⟩ := Except.exists_mapM_eq_ok_iff.2 hread
  have hproject : s.project db t places = .ok (.ofColumns places.length columns) := by
    rw [project_eq (hs.rowwise name)]
    exact Except.bind_eq_ok_iff.2 ⟨columns, hcolumns, rfl⟩
  obtain ⟨lines, hanswer, hlines⟩ :=
    linesAt_project hw source hplaces (hs.rowwise name) hproject
  have hrows : List.Forall₂ (fun i row => t.rows[i]? = some row) places
      (places.filterMap (t.rows[·]?)) :=
    forall₂_filterMap fun i hi => by simpa [isSome_getElem?] using hplaces i hi
  have hshown : t.LinesAt db (s.projections t) places
      ((places.filterMap (t.rows[·]?)).map fun row =>
        (s.projections t).map fun p => row.cell p.name) := by
    refine List.forall₂_map_right_iff.2 (hrows.imp fun i row hrow => ?_)
    refine List.forall₂_map_right_iff.2 (List.forall₂_same.2 ?_)
    intro p hp
    obtain ⟨c, hc, rfl⟩ := hcolumn p hp
    have hcell := hw.get?_eq_cell (List.mem_of_getElem? hrow) hc
    simp [Projection.valueIn, Projection.valueAt, Projection.name, hrow, hcell]
  rw [hproject, hanswer, hlines.unique hshown]

namespace Plan

def selected (p : Plan) (db : Database) : Except Error (List Row) := do
  let t ← db.table p.table
  let mask ← p.filter.mask db t
  let places ← t.sortPlaces p.order (Broadcast.places mask)
  return (Table.limitPlaces p.limit places).filterMap (t.rows[·]?)

theorem run_of_selected_plain {db : Database} {p : Plan} {t : Table} (hw : t.WellFormed)
    (source : db.table p.table = .ok t) (plain : p.selection.Plain t.columns)
    {rows : List Row} (h : p.selected db = .ok rows) :
    p.run db = .ok (.rows ((p.selection.projections t).map (·.name))
      (rows.map fun row => (p.selection.projections t).map fun q => row.cell q.name)) := by
  obtain ⟨t', source', h⟩ := Except.bind_eq_ok_iff.1 h
  obtain rfl : t = t' := Except.ok.inj (source.symm.trans source')
  obtain ⟨mask, hm, h⟩ := Except.bind_eq_ok_iff.1 h
  obtain ⟨sorted, hs, h⟩ := Except.bind_eq_ok_iff.1 h
  obtain rfl := Except.pure_eq_ok_iff.1 h
  have hlt : ∀ i ∈ Table.limitPlaces p.limit sorted, i < t.size := fun i hi =>
    Table.places_lt_size hm hs i ((Table.limitPlaces_sublist p.limit sorted).subset hi)
  exact run_eq_ok_iff.2 ⟨t, mask, sorted, source, hm, hs,
    Selection.project_plain hw source plain hlt⟩

theorem run_of_selected {db : Database} {p : Plan} {t : Table} (hw : t.WellFormed)
    (source : db.table p.table = .ok t) (star : p.selection = .star) {rows : List Row}
    (h : p.selected db = .ok rows) :
    p.run db = .ok (.rows (t.declared.map (·.name)) (rows.map t.line)) := by
  have hrun := run_of_selected_plain hw source (star ▸ trivial) h
  simp only [star, Selection.projections, Projection.name, List.map_map, Function.comp_def] at hrun
  exact hrun

/-- The query for all rows with a value in a field, as it is built step by step. -/
def whereIn (table field : String) (raw : Raw) : Except Error Plan := do
  let selection ← Selection.of [.star]
  let filter ← Filter.build [.text .and field, .keyword (.oneOf false [raw])]
  return { selection, table, filter, order := none, limit := none }

theorem whereIn_of_isIdentifier {field : String} (h : Token.isIdentifier field = true)
    (table : String) (raw : Raw) :
    whereIn table field raw = .ok ⟨.star, table,
      .tree (.leaf (.test field (.oneOf false [raw]))), none, none⟩ := by
  have hfilter : Filter.build [.text .and field, .keyword (.oneOf false [raw])] =
      .ok (.tree (.leaf (.test field (.oneOf false [raw])))) := by
    simp [Filter.build, Filter.add, Predicate.parse_of_isIdentifier h, Filter.extend,
      Filter.attach, PredicateTree.attach, Predicate.attach, bind, Except.bind, Except.map, pure,
      Except.pure]
  rw [whereIn, hfilter]
  rfl

end Plan

theorem Raw.exists_store {raw : Raw} (untagged : raw.untagged = raw) : ∃ v, raw.store = .ok v := by
  cases raw with
  | tagged a inner => exact absurd untagged (untagged_ne_tagged _ a inner)
  | _ => exact ⟨_, rfl⟩

theorem Column.exists_store_literal (c : Column) {raw : Raw} (untagged : raw.untagged = raw) :
    ∃ u, (c.literal raw).store = .ok u := by
  unfold literal
  split
  · exact ⟨.null, rfl⟩
  split
  · rename_i v _
    exact ⟨v, Value.store_toRaw v⟩
  · exact Raw.exists_store untagged

theorem Cell.oneOf_singleton {u v : Value} :
    Cell.oneOf false [u] v = true ↔ v ≠ .null ∧ v.matches? u = true := by
  cases v <;> simp [oneOf, Value.isNull]

theorem Predicate.mask_oneOf {t : Table} (hw : t.WellFormed) (db : Database) {c : Column}
    (hc : c ∈ t.columns) {raw : Raw} {u : Value} (hu : (c.literal raw).store = .ok u) :
    (test c.name (.oneOf false [raw])).mask db t =
      .ok (t.rows.map fun row => Cell.oneOf false [u] (row.cell c.name)) := by
  have hset : [raw].mapM (fun raw => (c.literal raw).store) = .ok [u] :=
    Except.mapM_eq_ok_iff.2 (.cons hu .nil)
  unfold Predicate.mask
  rw [hw.column?_eq_some_iff.2 ⟨hc, rfl⟩]
  refine Except.bind_eq_ok_iff.2 ⟨_, hw.columnCells_eq hc, ?_⟩
  refine Except.bind_eq_ok_iff.2 ⟨_, hset, ?_⟩
  rw [List.map_map]
  rfl

/-- The query succeeds, and it selects the rows with a cell that is equal to the literal. -/
theorem Plan.whereIn_selected {t : Table} (hw : t.WellFormed) {db : Database} {name : String}
    (source : db.table name = .ok t) {c : Column} (hc : c ∈ t.columns)
    (identifier : Token.isIdentifier c.name = true) {raw : Raw} {u : Value}
    (hu : (c.literal raw).store = .ok u) :
    ∃ p, whereIn name c.name raw = .ok p ∧
      p.selected db = .ok (t.rows.filter fun row => Cell.oneOf false [u] (row.cell c.name)) ∧
      p.run db = .ok (.rows (t.declared.map (·.name))
        ((t.rows.filter fun row => Cell.oneOf false [u] (row.cell c.name)).map t.line)) := by
  have hselected : (Plan.mk .star name (.tree (.leaf (.test c.name (.oneOf false [raw]))))
      none none).selected db =
        .ok (t.rows.filter fun row => Cell.oneOf false [u] (row.cell c.name)) := by
    refine Except.bind_eq_ok_iff.2 ⟨t, source, ?_⟩
    refine Except.bind_eq_ok_iff.2 ⟨_, Predicate.mask_oneOf hw db hc hu, ?_⟩
    refine Except.bind_eq_ok_iff.2 ⟨_, rfl, ?_⟩
    exact congrArg Except.ok (Broadcast.filterMap_places _ t.rows)
  exact ⟨_, whereIn_of_isIdentifier identifier name raw, hselected,
    run_of_selected hw source rfl hselected⟩

end Tabular
