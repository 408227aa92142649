import Tabular.Proofs.Query.Places
import Tabular.Proofs.Query.Rowwise

/-!
What a query that selects rows answers. Its columns are gathered one by one through the same list of
places, so each line of the answer is read off one row of the table.
-/
namespace Tabular

namespace Projection

def name : Projection → String
  | .column name => name
  | .computed e => e.name

def Rowwise (table : String) : Projection → Prop
  | .column _ => True
  | .computed e => e.Rowwise table

def valueAt (db : Database) (row : Row) : Projection → Option Value
  | .column name => row.get? name
  | .computed e => e.valueAt db row

/-- The value of a projection on the row at a place. -/
def valueIn (db : Database) (t : Table) (i : Nat) (p : Projection) : Option Value := do
  p.valueAt db (← t.rows[i]?)

end Projection

namespace Selection

/-- The columns of a selection. A star stands for all declared ones. -/
def projections (t : Table) : Selection → List Projection
  | .star => t.declared.map fun c => .column c.name
  | .columns ps => ps
  | .aggregates _ => []

/-- A selection of rows whose computed columns read no other table. -/
def Rowwise (table : String) : Selection → Prop
  | .star => True
  | .columns ps => ∀ p ∈ ps, p.Rowwise table
  | .aggregates _ => False

end Selection

/-- Each line holds the values of the projections at the place of the line. -/
def Table.LinesAt (t : Table) (db : Database) (ps : List Projection) (places : List Nat)
    (lines : List (List Value)) : Prop :=
  List.Forall₂ (fun i line => List.Forall₂ (fun p v => p.valueIn db t i = some v) ps line)
    places lines

namespace Table.LinesAt

variable {t : Table} {db : Database} {ps : List Projection} {places : List Nat}
  {lines lines' : List (List Value)}

theorem take (h : t.LinesAt db ps places lines) (k : Nat) :
    t.LinesAt db ps (places.take k) (lines.take k) :=
  List.forall₂_take k h

theorem unique (h : t.LinesAt db ps places lines) (h' : t.LinesAt db ps places lines') :
    lines = lines' := by
  refine List.right_unique_forall₂' ?_ h h'
  intro i line line' hl hl'
  refine List.right_unique_forall₂' ?_ hl hl'
  intro p v v' hv hv'
  exact Option.some.inj (hv.symm.trans hv')

end Table.LinesAt

theorem forall₂_gather {rows : List Row} {f : Row → Option Value} {vs : List Value}
    (h : List.Forall₂ (fun row v => f row = some v) rows vs) {places : List Nat}
    (hp : ∀ i ∈ places, i < rows.length) :
    List.Forall₂ (fun i v => rows[i]?.bind f = some v) places (Broadcast.gather vs places) := by
  refine List.forall₂_map_right_iff.2 (List.forall₂_same.2 fun i hi => ?_)
  have hrow := hp i hi
  have hv : i < vs.length := h.length_eq ▸ hrow
  have hf := h.get hrow hv
  simpa [hrow, hv] using hf

/-- A vector of one value is spread over the places, also where it is the column of a table with a
single row. -/
theorem Columnar.forall₂_spread {t : Table} {f : Row → Option Value} {vs ws : List Value}
    (h : Columnar t.rows f vs) {places : List Nat} (hp : ∀ i ∈ places, i < t.size)
    (hs : t.spread vs places = .ok ws) :
    List.Forall₂ (fun i v => t.rows[i]?.bind f = some v) places ws := by
  rw [← t.length_rows] at hp
  unfold Table.spread at hs
  split at hs
  · rename_i v
    cases hs
    refine Broadcast.forall₂_replicate_right.2 fun i hi => ?_
    have hrow := h.eq_some_of_singleton _ (List.getElem_mem (hp i hi))
    rw [List.getElem?_eq_getElem (hp i hi)]
    exact hrow
  · rename_i hone
    split at hs
    · cases hs
      cases h with
      | column h => exact forall₂_gather h hp
      | scalar h => exact (hone _ rfl).elim
    · cases hs

theorem forall₂_transpose {α : Type} {r : α → Nat → Value → Prop} {as : List α}
    {places : List Nat} {columns : List (String × List Value)}
    (h : List.Forall₂ (fun a c => List.Forall₂ (r a) places c.2) as columns) :
    List.Forall₂ (fun i line => List.Forall₂ (fun a v => r a i v) as line) places
      ((List.range places.length).map fun n => columns.map fun c => c.2[n]?.getD .null) := by
  refine List.forall₂_map_right_iff.2 (List.forall₂_iff_get.2 ⟨by simp, fun n hn hn' => ?_⟩)
  refine List.forall₂_map_right_iff.2 (h.imp fun a c hc => ?_)
  have hlength : n < c.2.length := hc.length_eq ▸ hn
  have hr := hc.get hn hlength
  simpa [hlength] using hr

section

variable {db : Database} {name : String} {t : Table} {places : List Nat}

theorem Projection.forall₂_read (hw : t.WellFormed) (ht : db.table name = .ok t)
    (hp : ∀ i ∈ places, i < t.size) {p : Projection} (hr : p.Rowwise name)
    {c : String × List Value} (h : p.read db t places = .ok c) :
    c.1 = p.name ∧ List.Forall₂ (fun i v => p.valueIn db t i = some v) places c.2 := by
  cases p with
  | column field =>
    obtain ⟨vs, hv, h⟩ := Except.bind_eq_ok_iff.1 h
    obtain rfl := Except.pure_eq_ok_iff.1 h
    have hcells := hw.forall₂_columnCells (Table.columnCells_of_fieldCells hv)
    exact ⟨rfl, forall₂_gather hcells (by simpa using hp)⟩
  | computed e =>
    obtain ⟨vs, hv, h⟩ := Except.bind_eq_ok_iff.1 h
    obtain ⟨ws, hs, h⟩ := Except.bind_eq_ok_iff.1 h
    obtain rfl := Except.pure_eq_ok_iff.1 h
    exact ⟨rfl, (e.columnar_values hw ht hr hv).forall₂_spread hp hs⟩

/-- Whether a projection can be read does not depend on the places. -/
theorem Projection.exists_read {p : Projection} {c : String × List Value}
    (h : p.read db t places = .ok c) (places' : List Nat) :
    ∃ c', p.read db t places' = .ok c' := by
  cases p with
  | column field =>
    obtain ⟨vs, hv, -⟩ := Except.bind_eq_ok_iff.1 h
    exact ⟨_, Except.bind_eq_ok_iff.2 ⟨vs, hv, rfl⟩⟩
  | computed e =>
    obtain ⟨vs, hv, h⟩ := Except.bind_eq_ok_iff.1 h
    obtain ⟨ws, hs, -⟩ := Except.bind_eq_ok_iff.1 h
    obtain ⟨ws', hs'⟩ : ∃ ws', t.spread vs places' = .ok ws' := by
      unfold Table.spread at hs ⊢
      split
      · exact ⟨_, rfl⟩
      · rename_i hone
        split at hs
        · exact (hone _ rfl).elim
        split at hs
        · rename_i hsize
          exact ⟨_, if_pos hsize⟩
        · cases hs
    exact ⟨_, Except.bind_eq_ok_iff.2 ⟨vs, hv, Except.bind_eq_ok_iff.2 ⟨ws', hs', rfl⟩⟩⟩

theorem Projection.readAll_eq (ps : List Projection) :
    Projection.readAll db t places ps = ps.mapM (·.read db t places) := by
  induction ps with
  | nil => rfl
  | cons p ps ih => simp [Projection.readAll, ih]

theorem Selection.project_eq {s : Selection} (hr : s.Rowwise name) :
    s.project db t places = (do
      let columns ← (s.projections t).mapM (·.read db t places)
      return .ofColumns places.length columns) := by
  cases s with
  | star =>
    simp only [Selection.project, projections, List.mapM_map]
    rfl
  | columns ps => simp [Selection.project, projections, Projection.readAll_eq]
  | aggregates as => exact hr.elim

theorem Selection.rowwise_of_mem {s : Selection} (hr : s.Rowwise name) {p : Projection}
    (hp : p ∈ s.projections t) : p.Rowwise name := by
  cases s with
  | star =>
    obtain ⟨c, -, rfl⟩ := List.mem_map.1 hp
    trivial
  | columns ps => exact hr p hp
  | aggregates as => exact hr.elim

theorem Selection.linesAt_project (hw : t.WellFormed) (ht : db.table name = .ok t)
    (hp : ∀ i ∈ places, i < t.size) {s : Selection} (hr : s.Rowwise name) {answer : Answer}
    (h : s.project db t places = .ok answer) :
    ∃ lines, answer = .rows ((s.projections t).map (·.name)) lines ∧
      t.LinesAt db (s.projections t) places lines := by
  rw [project_eq hr] at h
  obtain ⟨columns, hc, h⟩ := Except.bind_eq_ok_iff.1 h
  obtain rfl := Except.pure_eq_ok_iff.1 h
  rw [Except.mapM_eq_ok_iff] at hc
  have hread : List.Forall₂ (fun p c => c.1 = p.name ∧
      List.Forall₂ (fun i v => p.valueIn db t i = some v) places c.2)
      (s.projections t) columns := by
    have hrows : ∀ p ∈ s.projections t, p.Rowwise name := fun p hp => rowwise_of_mem hr hp
    refine ((List.forall₂_and_left _ _).2 ⟨hrows, hc⟩).imp fun p c hpc => ?_
    exact Projection.forall₂_read hw ht hp hpc.1 hpc.2
  have hnames : List.Forall₂ (· = ·) ((s.projections t).map (·.name)) (columns.map (·.1)) :=
    List.forall₂_map_left_iff.2 (List.forall₂_map_right_iff.2 (hread.imp fun _ _ h => h.1.symm))
  rw [List.forall₂_eq_eq_eq] at hnames
  refine ⟨_, ?_, forall₂_transpose (hread.imp fun _ _ h => h.2)⟩
  rw [hnames]
  rfl

theorem Selection.exists_project {s : Selection} (hr : s.Rowwise name) {answer : Answer}
    (h : s.project db t places = .ok answer) (places' : List Nat) :
    ∃ answer', s.project db t places' = .ok answer' := by
  rw [project_eq hr] at h ⊢
  obtain ⟨columns, hc, -⟩ := Except.bind_eq_ok_iff.1 h
  have hread := Except.exists_mapM_eq_ok_iff.1 ⟨columns, hc⟩
  obtain ⟨columns', hc'⟩ : ∃ columns', (s.projections t).mapM (·.read db t places') =
      .ok columns' := by
    refine Except.exists_mapM_eq_ok_iff.2 fun p hp => ?_
    obtain ⟨c, hc⟩ := hread p hp
    exact Projection.exists_read hc places'
  exact ⟨_, Except.bind_eq_ok_iff.2 ⟨columns', hc', rfl⟩⟩

end

theorem Table.limitPlaces_sublist (limit : Option Nat) (places : List Nat) :
    (Table.limitPlaces limit places).Sublist places := by
  cases limit with
  | none => exact .refl _
  | some k => exact List.take_sublist k places

namespace Plan

theorem run_eq_ok_iff {db : Database} {p : Plan} {answer : Answer} :
    p.run db = .ok answer ↔
      ∃ t mask sorted, db.table p.table = .ok t ∧ p.filter.mask db t = .ok mask ∧
        t.sortPlaces p.order (Broadcast.places mask) = .ok sorted ∧
        p.selection.project db t (Table.limitPlaces p.limit sorted) = .ok answer := by
  cases p
  simp only [run, Except.bind_eq_ok_iff, exists_and_left]

/-- The lines are read off different rows of the source table. Without a limit these are the rows
that the filter marks; a limit keeps the first lines of what there would be without it. -/
structure Selects (p : Plan) (db : Database) (t : Table) (mask : List Bool) (places : List Nat)
    (lines : List (List Value)) : Prop where
  source : db.table p.table = .ok t
  filtered : p.filter.mask db t = .ok mask
  unfiltered : p.filter = .all → mask = List.replicate t.size true
  nodup : places.Nodup
  lt_size : ∀ i ∈ places, i < t.size
  linesAt : t.LinesAt db (p.selection.projections t) places lines
  unlimited : p.limit = none → ∀ i, i ∈ places ↔ mask[i]? = some true
  limited : ∀ k, p.limit = some k → ∃ all,
    ({ p with limit := none } : Plan).run db =
      .ok (.rows ((p.selection.projections t).map (·.name)) all) ∧ lines = all.take k

/-- A query that selects rows loses, repeats and mixes none of them. -/
theorem selects_of_run {db : Database} (h : db.Reachable) {p : Plan}
    (hp : p.selection.Rowwise p.table) {answer : Answer} (hrun : p.run db = .ok answer) :
    ∃ t mask places lines, p.Selects db t mask places lines ∧
      answer = .rows ((p.selection.projections t).map (·.name)) lines := by
  obtain ⟨t, mask, sorted, ht, hm, hs, hproject⟩ := run_eq_ok_iff.1 hrun
  have hw := (h.table ht).wellFormed
  -- sorting permutes the marked places, so they stay different and inside the table
  have hperm := Table.sortPlaces_perm hs
  have hmem : ∀ i, i ∈ sorted ↔ mask[i]? = some true := by
    intro i
    rw [hperm.mem_iff, Broadcast.mem_places_iff]
  have hlt : ∀ i ∈ sorted, i < t.size := by
    intro i hi
    obtain ⟨hi, -⟩ := List.getElem?_eq_some_iff.1 ((hmem i).1 hi)
    rwa [Filter.length_mask hm] at hi
  have hnodup : sorted.Nodup := hperm.nodup_iff.2 (Broadcast.nodup_places mask)
  have hsub := Table.limitPlaces_sublist p.limit sorted
  have hlt' : ∀ i ∈ Table.limitPlaces p.limit sorted, i < t.size :=
    fun i hi => hlt i (hsub.subset hi)
  obtain ⟨lines, hanswer, hlines⟩ := Selection.linesAt_project hw ht hlt' hp hproject
  refine ⟨t, mask, Table.limitPlaces p.limit sorted, lines, ?_, hanswer⟩
  refine ⟨ht, hm, fun hall => ?_, hsub.nodup hnodup, hlt', hlines, fun hnone => ?_,
    fun k hk => ?_⟩
  · rw [hall] at hm
    exact (Except.ok.inj hm).symm
  · rw [hnone]
    exact hmem
  · obtain ⟨answer', hproject'⟩ := Selection.exists_project hp hproject sorted
    obtain ⟨all, rfl, hall⟩ := Selection.linesAt_project hw ht hlt hp hproject'
    refine ⟨all, run_eq_ok_iff.2 ⟨t, mask, sorted, ht, hm, hs, hproject'⟩, ?_⟩
    rw [hk] at hlines
    exact hlines.unique (hall.take k)

/-- The last of the notes by its text, with ten times its key. -/
def lastNote : Plan where
  selection := .columns [.column "text",
    .computed ⟨.field ⟨"notes", "rowid"⟩, .mul, .literal (.int 10), some "number"⟩]
  table := "notes"
  filter := .tree (.leaf (.test "rowid" (.compare .gt (.int 1))))
  order := some ("text", .desc)
  limit := some 1

def everyNote : Plan where
  selection := .star
  table := "notes"
  filter := .all
  order := none
  limit := none

/-- A star passes over the key, which no column declares. -/
theorem selects_of_run_lastNote :
    lastNote.run notebook =
        .ok (.rows ["text", "number"] [[.text "salt", .integer 40]]) ∧
      (∃ t mask places lines, lastNote.Selects notebook t mask places lines ∧
        Answer.rows ["text", "number"] [[.text "salt", .integer 40]] =
          .rows ((lastNote.selection.projections t).map (·.name)) lines) ∧
      everyNote.run notebook = .ok (.rows ["text"] [[.text "rye"], [.text "salt"]]) ∧
      ∃ t mask places lines, everyNote.Selects notebook t mask places lines ∧
        t.keyName = "rowid" ∧ t.implicitKey = true ∧
        Answer.rows ["text"] [[.text "rye"], [.text "salt"]] =
          .rows ((everyNote.selection.projections t).map (·.name)) lines := by
  have hp : lastNote.selection.Rowwise lastNote.table := by
    rintro p hp
    rcases List.mem_cons.1 hp with rfl | hp
    · trivial
    · rw [List.mem_singleton.1 hp]
      exact ⟨rfl, trivial⟩
  have hrun : lastNote.run notebook =
      .ok (.rows ["text", "number"] [[.text "salt", .integer 40]]) := by decide
  have hstar : everyNote.run notebook = .ok (.rows ["text"] [[.text "rye"], [.text "salt"]]) := by
    decide
  obtain ⟨t, mask, places, lines, hselects, hanswer⟩ :=
    selects_of_run notebook_reachable (p := everyNote) trivial hstar
  have ht : Table.notes.run Table.editNotes = t := by
    have htable : notebook.table "notes" = .ok (Table.notes.run Table.editNotes) := by decide
    exact Except.ok.inj (htable.symm.trans hselects.source)
  subst ht
  exact ⟨hrun, selects_of_run notebook_reachable hp hrun, hstar,
    _, mask, places, lines, hselects, rfl, by decide, hanswer⟩

end Plan

end Tabular
