import Tabular.Proofs.Query.KeyLookup
import Tabular.Proofs.Table.KeyCell
import Tabular.Proofs.Table.NullKey

/-!
The number of rows. COUNT(*) counts the keys of the rows that are selected, and like every aggregate
leaves NULL out of account. Rows are under different keys, so there is at most one that is not
counted.
-/
namespace Tabular

def Answer.ofCount (n : Nat) : Answer := .aggregates [("COUNT(*)", .integer (Int64.ofNat n))]

theorem Answer.ofCount_succ_ne (n : Nat) : ofCount n ≠ ofCount (n + 1) := by
  simp [ofCount]

theorem Value.length_filter_present {vs : List Value} (h : vs.Nodup) :
    (vs.filter (!·.isNull)).length + (if .null ∈ vs then 1 else 0) = vs.length := by
  have hnull : vs.countP (·.isNull) = if .null ∈ vs then 1 else 0 := by
    rw [← h.count, List.count]
    refine List.countP_congr fun v _ => ?_
    simp
  rw [← hnull, ← List.countP_eq_length_filter]
  have hsplit := List.length_eq_countP_add_countP isNull (l := vs)
  simp only [Bool.not_eq_true, Bool.decide_eq_false] at hsplit
  rw [hsplit, Nat.add_comm]

theorem Broadcast.gather_map {α : Type} (f : α → Value) {as : List α} {places : List Nat}
    (h : ∀ i ∈ places, i < as.length) :
    gather (as.map f) places = (places.filterMap (as[·]?)).map f := by
  induction places with
  | nil => rfl
  | cons i places ih =>
    obtain ⟨hi, hrest⟩ := List.forall_mem_cons.1 h
    rw [List.filterMap_cons_some (List.getElem?_eq_getElem hi), List.map_cons, ← ih hrest]
    simp [gather, hi]

namespace Table.WellFormed

variable {t : Table}

theorem map_cell_keyName (h : t.WellFormed) : t.rows.map (·.cell t.keyName) = t.keys := by
  rw [rows_eq, keys_eq, List.map_map]
  exact List.map_congr_left fun e he => h.cell_keyName he

theorem aggregate_count (h : t.WellFormed) {places : List Nat} (hp : ∀ i ∈ places, i < t.size) :
    t.aggregate places ⟨.count, .star⟩ = .ok ("COUNT(*)", .integer (Int64.ofNat
      (((places.filterMap (t.rows[·]?)).map (·.cell t.keyName)).filter (!·.isNull)).length)) := by
  obtain ⟨hmem, hname⟩ := h.keyColumn_mem
  have hcells := h.fieldCells_eq hmem
  rw [hname] at hcells
  refine Except.bind_eq_ok_iff.2 ⟨_, hcells, ?_⟩
  rw [Broadcast.gather_map _ (by simpa using hp)]
  rfl

theorem nodup_keys_at (h : t.WellFormed) {places : List Nat} (nodup : places.Nodup) :
    ((places.filterMap (t.rows[·]?)).map (·.cell t.keyName)).Nodup := by
  have hkeys : t.keys.Nodup := t.keys_eq ▸ h.keys_nodup
  rw [List.map_filterMap]
  refine nodup.filterMap fun i j k hi hj => ?_
  have hkey : ∀ {i : Nat}, k ∈ (t.rows[i]?).map (·.cell t.keyName) → t.keys[i]? = some k := by
    intro i hk
    rw [← h.map_cell_keyName, List.getElem?_map]
    exact hk
  obtain ⟨hlt, -⟩ := List.getElem?_eq_some_iff.1 (hkey hi)
  exact (List.getElem?_inj hlt hkeys).1 ((hkey hi).trans (hkey hj).symm)

end Table.WellFormed

def Plan.counted (p : Plan) : Plan := { p with selection := .aggregates [⟨.count, .star⟩] }

/-- COUNT(*) answers with the number of rows that the query itself would answer with, and fails with
the same error. -/
def Plan.CountsRows (p : Plan) (db : Database) : Prop :=
  p.counted.run db = (p.run db).map fun answer => .ofCount answer.size

/-- The places of the rows that a query selects. -/
def Plan.places (p : Plan) (db : Database) (t : Table) : Except Error (List Nat) := do
  let mask ← p.filter.mask db t
  let sorted ← t.sortPlaces p.order (Broadcast.places mask)
  return Table.limitPlaces p.limit sorted

namespace Plan

variable {db : Database} {t : Table} {p : Plan}

theorem run_of_places (source : db.table p.table = .ok t) :
    p.run db = (do p.selection.project db t (← p.places db t)) := by
  cases p
  simp only [run, places, source, bind_assoc, pure_bind]
  rfl

theorem selected_of_places (source : db.table p.table = .ok t) :
    p.selected db = (do return (← p.places db t).filterMap (t.rows[·]?)) := by
  cases p
  simp only [selected, places, source, bind_assoc, pure_bind]
  rfl

theorem places_eq_ok {is : List Nat} (h : p.places db t = .ok is) :
    is.Nodup ∧ ∀ i ∈ is, i < t.size := by
  obtain ⟨mask, hm, h⟩ := Except.bind_eq_ok_iff.1 h
  obtain ⟨sorted, hs, h⟩ := Except.bind_eq_ok_iff.1 h
  obtain rfl := Except.pure_eq_ok_iff.1 h
  have hsub := Table.limitPlaces_sublist p.limit sorted
  have hnodup := (Table.sortPlaces_perm hs).nodup_iff.2 (Broadcast.nodup_places mask)
  exact ⟨hsub.nodup hnodup, fun i hi => Table.places_lt_size hm hs i (hsub.subset hi)⟩

theorem run_of_selected_error (source : db.table p.table = .ok t) {e : Error}
    (h : p.selected db = .error e) : p.run db = .error e ∧ p.counted.run db = .error e := by
  rw [selected_of_places source] at h
  have hplaces : p.places db t = .error e := by
    cases his : p.places db t with
    | ok is =>
      rw [his] at h
      cases h
    | error e' =>
      rw [his] at h
      cases h
      rfl
  have hcounted : p.counted.places db t = .error e := hplaces
  rw [run_of_places source, run_of_places (p := p.counted) source, hplaces, hcounted]
  exact ⟨rfl, rfl⟩

theorem counted_of_selected (hw : t.WellFormed) (source : db.table p.table = .ok t)
    {rows : List Row} (h : p.selected db = .ok rows) :
    (rows.map (·.cell t.keyName)).Nodup ∧ p.counted.run db =
      .ok (.ofCount ((rows.map (·.cell t.keyName)).filter (!·.isNull)).length) := by
  rw [selected_of_places source] at h
  obtain ⟨is, his, h⟩ := Except.bind_eq_ok_iff.1 h
  obtain rfl := Except.pure_eq_ok_iff.1 h
  obtain ⟨hnodup, hlt⟩ := places_eq_ok his
  refine ⟨hw.nodup_keys_at hnodup, ?_⟩
  have hplaces : p.counted.places db t = .ok is := his
  rw [run_of_places (p := p.counted) source]
  refine Except.bind_eq_ok_iff.2 ⟨is, hplaces, ?_⟩
  have hvalue := hw.aggregate_count hlt
  exact Except.bind_eq_ok_iff.2 ⟨_, Except.mapM_eq_ok_iff.2 (.cons hvalue .nil), rfl⟩

/-- All rows are counted unless one of them is under NULL, and this one only is left out. -/
theorem countsRows_iff (hw : t.WellFormed) (source : db.table p.table = .ok t)
    (plain : p.selection.Plain t.columns) :
    (p.CountsRows db ↔
        ∀ rows, p.selected db = .ok rows → ∀ row ∈ rows, row.cell t.keyName ≠ .null) ∧
      (p.CountsRows db ∨ ∃ answer n, p.run db = .ok answer ∧ answer.size = n + 1 ∧
        p.counted.run db = .ok (.ofCount n)) := by
  cases h : p.selected db with
  | error e =>
    obtain ⟨hrun, hcounted⟩ := run_of_selected_error source h
    have hcounts : p.CountsRows db := by rw [CountsRows, hrun, hcounted]; rfl
    exact ⟨⟨fun _ _ h => (nomatch h), fun _ => hcounts⟩, .inl hcounts⟩
  | ok rows =>
    obtain ⟨hnodup, hcounted⟩ := counted_of_selected hw source h
    have hrun := run_of_selected_plain hw source plain h
    have hlength := Value.length_filter_present hnodup
    rw [List.length_map] at hlength
    have hcounts : p.CountsRows db ↔
        Answer.ofCount ((rows.map (·.cell t.keyName)).filter (!·.isNull)).length =
          .ofCount rows.length := by
      rw [CountsRows, hcounted, hrun, Except.map, Except.ok.injEq, Answer.size, List.length_map]
    rw [hcounts]
    by_cases hnull : .null ∈ rows.map (·.cell t.keyName)
    · rw [if_pos hnull] at hlength
      obtain ⟨row, hrow, hkey⟩ := List.mem_map.1 hnull
      refine ⟨iff_of_false ?_ fun hall => hall rows rfl row hrow hkey, .inr ?_⟩
      · rw [← hlength]
        exact Answer.ofCount_succ_ne _
      · exact ⟨_, _, hrun, by rw [Answer.size, List.length_map, hlength], hcounted⟩
    · rw [if_neg hnull, Nat.add_zero] at hlength
      have hsame := congrArg Answer.ofCount hlength
      refine ⟨iff_of_true hsame fun rows' heq row hrow hkey => hnull ?_, .inl hsame⟩
      cases heq
      exact List.mem_map.2 ⟨row, hrow, hkey⟩

/-- COUNT(*) counts the rows that the query itself shows, whatever it filters by and in whatever
order and number, as long as no key that was chosen for a row became NULL. A row under NULL is not
counted where it is shown. -/
theorem countsRows_run {name : String} {columns : List Column} {key : Option String}
    {settings : Settings} (h : Table.create name columns key settings = .ok t)
    (ops : List Table.Operation) (source : db.table p.table = .ok (t.run ops))
    (plain : p.selection.Plain t.columns) :
    ((∀ op ∈ ops, t.KeepsKeys op) → p.CountsRows db) ∧
      (p.CountsRows db ↔
        ∀ rows, p.selected db = .ok rows → ∀ row ∈ rows, row.cell t.keyName ≠ .null) ∧
      (p.CountsRows db ∨ ∃ answer n, p.run db = .ok answer ∧ answer.size = n + 1 ∧
        p.counted.run db = .ok (.ofCount n)) := by
  have ht := Table.wellFormed_of_create h
  have hw := ht.run ops
  have hsteps := ht.steps_run ops
  rw [← hsteps.columns_eq] at plain
  have hcounts := countsRows_iff hw source plain
  rw [hsteps.keyName_eq] at hcounts
  refine ⟨fun keeps => hcounts.1.2 fun rows hrows row hrow hkey => ?_, hcounts⟩
  have hkeys := Table.null_notMem_keys_run h keeps
  rw [← hw.map_cell_keyName, hsteps.keyName_eq] at hkeys
  refine hkeys (List.mem_map.2 ⟨row, ?_, hkey⟩)
  rw [selected_of_places source] at hrows
  obtain ⟨is, -, hrows⟩ := Except.bind_eq_ok_iff.1 hrows
  obtain rfl := Except.pure_eq_ok_iff.1 hrows
  obtain ⟨i, -, hi⟩ := List.mem_filterMap.1 hrow
  exact List.mem_of_getElem? hi

def rateNotes : List Table.Operation :=
  [.insert [("rating", .text " 4 "), ("note", .text "tea")],
    .insertRow ⟨(Table.ratings Table.numericRating).columns, [.null, .text "coffee"], rfl⟩
      (some (.tagged .text (.text "no rating"))),
    .insert [("rating", .int 2), ("note", .text "cocoa")], .deleteRow (.int 2)]

def drinks : Plan where
  selection := .columns [.column "note"]
  table := "ratings"
  filter := .tree (.leaf (.test "note" (.oneOf false [.text "coffee", .text "tea", .text "cocoa"])))
  order := some ("note", .desc)
  limit := some 2

theorem countsRows_run_drinks :
    let t := (Table.ratings Table.numericRating).run rateNotes
    let db := (({ name := "main" } : Database).addTable t).2
    drinks.run db = .ok (.rows ["note"] [[.text "tea"], [.text "coffee"]]) ∧
      drinks.counted.run db = .ok (.aggregates [("COUNT(*)", .integer 2)]) := by
  intro t db
  have source : db.table drinks.table = .ok t := by decide
  have plain : drinks.selection.Plain (Table.ratings Table.numericRating).columns := by
    simp [drinks, Selection.Plain, Table.ratings]
  have hrun : drinks.run db = .ok (.rows ["note"] [[.text "tea"], [.text "coffee"]]) := by decide
  have hcounts : drinks.CountsRows db :=
    (countsRows_run Table.ratings_created rateNotes source plain).1 (by decide)
  exact ⟨hrun, by rw [hcounts, hrun]; rfl⟩

/-- A row that was inserted under text that is read as NULL is shown and not counted. -/
theorem not_countsRows_ratings :
    let t := (Table.ratings Table.numericRating).run
      [.insertRow ⟨(Table.ratings Table.numericRating).columns, [.null, .text "tea"], rfl⟩
        (some (.text "none"))]
    let db := (({ name := "main" } : Database).addTable t).2
    t.Reachable ∧ db.table "ratings" = .ok t ∧
      drinks.run db = .ok (.rows ["note"] [[.text "tea"]]) ∧
      drinks.counted.run db = .ok (.aggregates [("COUNT(*)", .integer 0)]) ∧
      ¬ drinks.CountsRows db := by
  intro t db
  have ht : t.Reachable := (Table.Reachable.built (.create Table.ratings_created)).run _
  have hrun : drinks.run db = .ok (.rows ["note"] [[.text "tea"]]) := by decide
  have hcounted : drinks.counted.run db = .ok (.aggregates [("COUNT(*)", .integer 0)]) := by decide
  refine ⟨ht, by decide, hrun, hcounted, fun hcounts => ?_⟩
  rw [CountsRows, hrun, hcounted] at hcounts
  exact absurd hcounts (by decide)

end Plan

end Tabular
