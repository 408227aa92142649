import Tabular.Proofs.Classes
import Tabular.Proofs.Table.Conforms
import Tabular.Proofs.Table.NotNull

/-!
The classes of the cells of a table. In a lax column every cell is of the class of the column,
wherever its row comes from. In a strict column this holds of what operations bring as long as no
tag diverts it, and the first operation that succeeds with a diverted value breaks it.
-/
namespace Tabular

theorem Row.any_admits_of_build {columns : List Column} {data : List (String × Raw)}
    {key : Option String} {r : Row} (names : (columns.map (·.name)).Nodup)
    (h : build columns data key = .ok r) {c : Column} (hc : c ∈ columns) :
    (r.get? c.name).any c.admits = true ↔
      c.diverts (c.fill ((cell? c.name data).getD .null)) = false := by
  obtain ⟨raw, v, hraw, hv, hget⟩ := get?_of_build names h hc
  rw [hget, hraw, Option.any_some, Option.getD_some]
  exact Column.admits_iff (Column.resolve_eq_ok_iff.1 hv).2

namespace Table

def AdmitsRow (t : Table) (row : Row) : Prop :=
  ∀ c ∈ t.columns, (row.get? c.name).any c.admits = true

/-- Every cell is admitted by its column. -/
def Admits (t : Table) : Prop := ∀ e ∈ t.entries, t.AdmitsRow e.row

/-- A row whose cells are admitted but for that of the key, which is settled when it is inserted. -/
def AdmitsBeside (t : Table) (row : Row) : Prop :=
  ∀ c ∈ t.columns, c.name ≠ t.keyName → (row.get? c.name).any c.admits = true

/-- An operation that brings no value which a tag diverts from the column that it is for. The key in
the data of a row is stored once more without its tags, so that they do not matter. Of several
updates to a cell the last one counts. -/
def Straight (t : Table) : Operation → Prop
  | .insert data => ∀ c ∈ t.columns, c.name ≠ t.keyName →
      c.diverts (c.fill ((Row.cell? c.name data).getD .null)) = false
  | .insertRow row key => t.AdmitsBeside row ∧ key.any t.keyColumn.diverts = false
  | .insertRows rows => ∀ row ∈ rows, t.AdmitsBeside row
  | .updateRow _ updates => ∀ c ∈ t.columns, (Row.cell? c.name updates).any c.diverts = false
  | .deleteRow _ | .rename _ | .issueKey => True

instance (t : Table) (row : Row) : Decidable (t.AdmitsRow row) :=
  inferInstanceAs (Decidable (∀ c ∈ t.columns, (row.get? c.name).any c.admits = true))

instance (t : Table) : Decidable t.Admits :=
  inferInstanceAs (Decidable (∀ e ∈ t.entries, t.AdmitsRow e.row))

instance (t : Table) (row : Row) : Decidable (t.AdmitsBeside row) :=
  inferInstanceAs (Decidable (∀ c ∈ t.columns, c.name ≠ t.keyName →
    (row.get? c.name).any c.admits = true))

instance (t : Table) : (op : Operation) → Decidable (t.Straight op)
  | .insert data => inferInstanceAs (Decidable (∀ c ∈ t.columns, c.name ≠ t.keyName →
      c.diverts (c.fill ((Row.cell? c.name data).getD .null)) = false))
  | .insertRow row key =>
    inferInstanceAs (Decidable (t.AdmitsBeside row ∧ key.any t.keyColumn.diverts = false))
  | .insertRows rows => inferInstanceAs (Decidable (∀ row ∈ rows, t.AdmitsBeside row))
  | .updateRow _ updates => inferInstanceAs (Decidable (∀ c ∈ t.columns,
      (Row.cell? c.name updates).any c.diverts = false))
  | .deleteRow _ | .rename _ | .issueKey => inferInstanceAs (Decidable True)

variable {t s : Table}

theorem straight_congr (columns : s.columns = t.columns) (keyName : s.keyName = t.keyName)
    (op : Operation) : s.Straight op ↔ t.Straight op := by
  have hkey : s.keyColumn = t.keyColumn := by simp [keyColumn, column?, columns, keyName]
  cases op <;> simp [Straight, AdmitsBeside, columns, keyName, hkey]

/-- The key on which an insertion settles is admitted unless it was given with a tag that diverts
it. -/
theorem Settles.admits_iff {row : Row} {key : Option Raw} {k : Value} {cursor : Int64}
    (h : t.Settles row key k cursor) (present : key.any Raw.isNull = false) :
    t.keyColumn.admits k = true ↔ key.any t.keyColumn.diverts = false := by
  cases h with
  | @chosen raw _ chosen stored _ =>
    rw [Column.resolve_of_not_isNull (isNull_of_chosenKey? present chosen)] at stored
    rw [Column.admits_iff stored]
    cases key with
    | some raw' =>
      obtain rfl : raw' = raw := by simpa using chosen
      simp
    | none =>
      obtain ⟨v, -, -, rfl⟩ := chosenKey?_none_eq_some_iff.1 chosen
      simp [Column.diverts_toRaw]
  | @generated n chosen generates _ =>
    have hinteger : t.keyColumn.affinity = .integer := by simpa [generatesKeys] using generates
    obtain rfl : key = none := by
      cases key with
      | none => rfl
      | some raw => simp at chosen
    simp [Column.admits_integer hinteger]

namespace WellFormed

theorem admitsRow_iff (h : t.WellFormed) {row r : Row} {key : Option Raw} {k : Value}
    {cursor : Int64} (present : key.any Raw.isNull = false) (settles : t.Settles row key k cursor)
    (set : row.set t.keyName k = .ok r) :
    t.AdmitsRow r ↔ t.Straight (.insertRow row key) := by
  have hkey : r.get? t.keyName = some k := Row.get?_of_set set
  have hother : ∀ {name}, name ≠ t.keyName → r.get? name = row.get? name :=
    Row.get?_of_set_of_ne set
  obtain ⟨hmem, hname⟩ := h.keyColumn_mem
  rw [Straight, ← settles.admits_iff present]
  constructor
  · intro hrow
    refine ⟨fun c hc hne => ?_, ?_⟩
    · rw [← hother hne]
      exact hrow c hc
    · simpa [hname, hkey] using hrow _ hmem
  · rintro ⟨hbeside, hadmits⟩ c hc
    by_cases hne : c.name = t.keyName
    · obtain rfl := h.eq_keyColumn hc hne
      simpa [hname, hkey] using hadmits
    · rw [hother hne]
      exact hbeside c hc hne

theorem admitsBeside_iff_of_row (h : t.WellFormed) {data : List (String × Raw)} {row : Row}
    (hrow : t.row data = .ok row) : t.AdmitsBeside row ↔ t.Straight (.insert data) := by
  have hcell : ∀ c ∈ t.columns, ((row.get? c.name).any c.admits = true ↔
      c.diverts (c.fill ((Row.cell? c.name data).getD .null)) = false) := by
    intro c hc
    rw [Row.any_admits_of_build h.names_nodup hrow hc, cell?_of_missing hc, Option.getD_some]
  exact forall₂_congr fun c hc => imp_congr_right fun _ => hcell c hc

theorem admitsRow_iff_of_updates (h : t.WellFormed) {updates : List (String × Raw)}
    {row row' : Row} (updated : t.Updates updates row row') (held : t.AdmitsRow row) (key : Raw) :
    t.AdmitsRow row' ↔ t.Straight (.updateRow key updates) := by
  refine forall₂_congr fun c hc => ?_
  have hcell := updated.2 c.name
  cases hu : Row.cell? c.name updates with
  | none =>
    rw [hu] at hcell
    simp [hcell, held c hc]
  | some raw =>
    rw [hu] at hcell
    obtain ⟨-, d, v, hd, hv, hget⟩ := hcell
    obtain rfl : d = c := Option.some.inj (hd.symm.trans (h.column?_eq_some_iff.2 ⟨hc, rfl⟩))
    rw [hget, Option.any_some, Option.any_some]
    exact Column.admits_iff hv

end WellFormed

/-- Rows are stored with cells that their columns admit if what is brought for them is straight. -/
theorem admits_rule : RowRule AdmitsRow Straight where
  row_congr columns _ _ := by simp [AdmitsRow, columns]
  brings_congr := straight_congr
  insertRow h present settles _ set straight := (h.admitsRow_iff present settles set).2 straight
  insert h hrow straight := ⟨(h.admitsBeside_iff_of_row hrow).2 straight, rfl⟩
  insertRows straight row hrow := ⟨straight row hrow, rfl⟩
  updateRow h _ stored set held straight :=
    (h.admitsRow_iff_of_updates (updates_of_setAll stored set) held _).2 straight

namespace WellFormed

theorem admits_insertRow_iff (h : t.WellFormed) (held : t.Admits) {row : Row}
    {key : Option Raw} {k : Value} (ok : (t.insertRow row key).1 = .ok k) :
    (t.insertRow row key).2.Admits ↔ t.Straight (.insertRow row key) := by
  obtain ⟨c, r, present, settles, set, hall⟩ := admits_rule.allRows_insertRow_iff h held ok
  exact hall.trans (h.admitsRow_iff present settles set)

theorem admits_insert_iff (h : t.WellFormed) (held : t.Admits) {data : List (String × Raw)}
    {k : Value} (ok : (t.insert data).1 = .ok k) :
    (t.insert data).2.Admits ↔ t.Straight (.insert data) := by
  rcases t.insert_cases data with ⟨e, -, ho⟩ | ⟨row, hrow, ho⟩ <;> rw [ho] at ok ⊢
  · cases ok
  · rw [h.admits_insertRow_iff held ok, ← h.admitsBeside_iff_of_row hrow]
    simp [Straight]

theorem admits_updateRow_iff (h : t.WellFormed) (held : t.Admits) {key : Raw}
    {updates : List (String × Raw)} (ok : (t.updateRow key updates).1 = .ok ()) :
    (t.updateRow key updates).2.Admits ↔ t.Straight (.updateRow key updates) := by
  rcases t.updateRow_cases key updates with
    ⟨e, he⟩ | ⟨slot, e, changes, r, -, hat, hm, -, set, ho⟩
  · rw [he] at ok
    cases ok
  · obtain ⟨mem, rfl⟩ := h.entryAt?_iff.1 hat
    rw [ho]
    exact (admits_rule.allRows_replaceRow_iff held mem r).trans
      (h.admitsRow_iff_of_updates (updates_of_setAll hm set) (held e mem) key)

theorem admitsBeside_iff_of_build (h : t.WellFormed) {columns : List Column}
    {data : List (String × Raw)} {key : Option String} {row : Row}
    (hrow : Row.build columns data key = .ok row)
    (equal : Column.equalLists columns t.columns = true) :
    t.AdmitsBeside row ↔ ∀ c ∈ columns, c.name ≠ t.keyName →
      c.diverts (c.fill ((Row.cell? c.name data).getD .null)) = false := by
  have names : (columns.map (·.name)).Nodup := by
    rw [Column.names_of_equalLists equal]
    exact h.names_nodup
  have hcell : ∀ {c d}, c ∈ columns → c.equals d = true →
      ((row.get? d.name).any d.admits = true ↔
        c.diverts (c.fill ((Row.cell? c.name data).getD .null)) = false) := by
    intro c d hc heq
    rw [← Column.name_of_equals heq, ← funext (Column.admits_congr heq)]
    exact Row.any_admits_of_build names hrow hc
  constructor
  · intro hbeside c hc hne
    obtain ⟨d, hd, heq⟩ := Column.exists_of_mem_of_equalLists equal hc
    exact (hcell hc heq).1 (hbeside d hd (Column.name_of_equals heq ▸ hne))
  · intro hdata d hd hne
    obtain ⟨c, hc, heq⟩ := Column.exists_of_mem_right_of_equalLists equal hd
    exact (hcell hc heq).2 (hdata c hc (Column.name_of_equals heq ▸ hne))

end WellFormed

/-- What the operations that succeed bring is admitted exactly if it is straight, and so are the
cells of rows that are built for the table. -/
structure AdmitsExactly (t : Table) : Prop where
  insert : ∀ data k, (t.insert data).1 = .ok k →
    ((t.insert data).2.Admits ↔ t.Straight (.insert data))
  insertRow : ∀ row key k, (t.insertRow row key).1 = .ok k →
    ((t.insertRow row key).2.Admits ↔ t.Straight (.insertRow row key))
  updateRow : ∀ key updates, (t.updateRow key updates).1 = .ok () →
    ((t.updateRow key updates).2.Admits ↔ t.Straight (.updateRow key updates))
  build : ∀ columns data key row, Row.build columns data key = .ok row →
    Column.equalLists columns t.columns = true →
    (t.AdmitsBeside row ↔ ∀ c ∈ columns, c.name ≠ t.keyName →
      c.diverts (c.fill ((Row.cell? c.name data).getD .null)) = false)

theorem WellFormed.admitsExactly (h : t.WellFormed) (held : t.Admits) : t.AdmitsExactly where
  insert _ _ ok := h.admits_insert_iff held ok
  insertRow _ _ _ ok := h.admits_insertRow_iff held ok
  updateRow _ _ ok := h.admits_updateRow_iff held ok
  build _ _ _ _ hrow equal := h.admitsBeside_iff_of_build hrow equal

/-- Wherever a value comes from, as data, as a default, as a key or as an update, the operation
fails with the error of the column that does not store it, if nothing else is wrong. -/
structure Rejects (t : Table) (c : Column) (raw : Raw) (e : Error) : Prop where
  insert : ∀ data, (∀ x ∈ data, x.1 ∈ t.columns.map (·.name)) →
    c.fill ((Row.cell? c.name data).getD .null) = raw →
    (∀ d ∈ t.columns, d ≠ c → ∃ v, d.resolve ((Row.cell? d.name data).getD .null)
      (d.autoincrement || some t.keyName == some d.name) = .ok v) →
    t.insert data = (.error e, t)
  insertRow : ∀ row, Column.equalLists row.columns t.columns = true → c = t.keyColumn →
    t.insertRow row (some raw) = (.error e, t)
  updateRow : ∀ key updates, t.contains key = true → c.name ≠ t.keyName →
    (c.name, raw) ∈ updates →
    (∀ u ∈ updates, u ≠ (c.name, raw) → ∃ change, t.change u.1 u.2 = .ok change) →
    t.updateRow key updates = (.error e, t)

theorem WellFormed.rejects (h : t.WellFormed) {c : Column} (hc : c ∈ t.columns) {raw : Raw}
    {e : Error} (fails : c.store raw = .error e) : t.Rejects c raw e where
  insert data known hfill others := by
    have hresolve : ∀ deferred, c.resolve ((Row.cell? c.name data).getD .null) deferred =
        .error e := fun deferred => Column.resolve_eq_error (hfill ▸ fails) deferred
    have hcells := Row.resolveCells_eq_error h.names_nodup (fun d hd => cell?_of_missing hd) hc
      (hresolve _) others
    have hrow : t.row data = .error e := Row.build_eq_error (known_missing_iff.2 known) hcells
    simp [Table.insert, hrow]
  insertRow row columns hkey := by
    subst hkey
    have present := Column.isNull_of_store_eq_error fails
    have hresolve : t.keyColumn.resolve raw true = .error e := by
      rw [Column.resolve_of_not_isNull present, fails]
    simp [Table.insertRow, columns, present, settleKey, chosenKey?, acceptKey, hresolve]
  updateRow key updates found hne mem others := by
    have hchange : t.change c.name raw = .error e := by
      simp [change, h.column?_eq_some_iff.2 ⟨hc, rfl⟩, hne, fails, Except.map]
    have hchanges : t.changes updates = .error e := Except.mapM_eq_error mem hchange others
    obtain ⟨slot, hslot⟩ := Option.isSome_iff_exists.1 found
    simp [Table.updateRow, hslot, hchanges]

/-- Every cell of a lax column is NULL or of the class of the column. -/
theorem Made.admits_of_lax (ht : t.Made) {k : Value} {row : Row} (hrow : (k, row) ∈ t.toList)
    {c : Column} (hc : c ∈ t.columns) (lax : c.strict = false) :
    ∃ v, row.get? c.name = some v ∧ c.admits v = true := by
  obtain ⟨e, he, -, rfl⟩ := mem_toList_iff.1 hrow
  have hw := ht.reachable.wellFormed
  have hname : c.name ∈ e.row.columns.map (·.name) := by
    rw [Column.names_of_equalLists (hw.columns e he)]
    exact List.mem_map_of_mem hc
  obtain ⟨v, hv⟩ := Row.exists_get? hname
  obtain ⟨raw, hraw⟩ := hw.holds_of_get? ht.conforms he hc hv
  exact ⟨v, hv, (Column.admits_iff hraw).2 (Column.diverts_of_lax lax raw)⟩

def weight : Column :=
  { name := "weight", affinity := .real, default := some (.tagged .text (.int 2)) }

def pieces : Column := { name := "pieces", affinity := .integer, strict := true }

def parcels : Table where
  name := "parcels"
  columns := [.generatedKey "rowid", weight, pieces]
  keyName := "rowid"
  implicitKey := true
  settings := {}
  cursor := 1

theorem parcels_created : create "parcels" [weight, pieces] none {} = .ok parcels := by decide

/-- Tags do not matter to a lax column, neither in a default nor in an update. -/
theorem Made.admits_of_lax_parcels :
    let t := parcels.run [.insert [("pieces", .int 1)], .insert [("pieces", .int 3)],
      .updateRow (.int 2) [("weight", .tagged .blob (.tagged .text (.int 7)))]]
    let row : Row := ⟨parcels.columns, [.integer 2, .real (Binary64.ofInt 7), .integer 3], rfl⟩
    t.columnCells "weight" = .ok [.real (Binary64.ofInt 2), .real (Binary64.ofInt 7)] ∧
      (.integer 2, row) ∈ t.toList ∧ ∃ v, row.get? "weight" = some v ∧ weight.admits v = true := by
  intro t row
  have ht : t.Made := (Table.Made.create parcels_created).run (by simp [Operation.rows])
  have hrow : (.integer 2, row) ∈ t.toList := by decide
  have hweight : weight ∈ t.columns := by decide
  exact ⟨by decide, hrow, ht.admits_of_lax hrow hweight rfl⟩

/-- Columns, strict ones among them, hold only values of their classes as long as no tag diverts
what is brought for them, and the first value that is diverted and stored breaks it. What is not
stored is rejected as being of the wrong type. -/
theorem admits_run_of_straight {name : String} {columns : List Column} {key : Option String}
    {settings : Settings} (h : create name columns key settings = .ok t) (ops : List Operation) :
    let s := t.run ops
    ((∀ op ∈ ops, t.Straight op) → s.Admits) ∧ (s.Admits → s.AdmitsExactly) ∧
      ∀ c ∈ t.columns, ∀ raw e, c.store raw = .error e →
        e.kind = .typeMismatch ∧ s.Rejects c raw e := by
  intro s
  have ht := wellFormed_of_create h
  have hs := ht.run ops
  have hsteps := ht.steps_run ops
  refine ⟨fun straight => ?_, fun held => hs.admitsExactly held, fun c hc raw e fails => ?_⟩
  · exact admits_rule.allRows_run ht (allRows_of_create h) straight
  · exact ⟨Column.kind_of_store_error fails, hs.rejects (hsteps.columns_eq ▸ hc) fails⟩

def sendParcels : List Operation :=
  [.insert [("pieces", .tagged .numeric (.bool true))], .issueKey,
    .updateRow (.int 1) [("pieces", .tagged .real (.int 5)), ("pieces", .tagged .any (.int 4))]]

/-- Of two updates to one cell only the last is stored. Text is rejected though its tag asks for a
number, and an integer with the same tag is not. -/
theorem admits_run_of_straight_parcels :
    let t := parcels.run sendParcels
    let number : List (String × Raw) := [("pieces", .tagged .real (.int 5))]
    let text : Raw := .tagged .real (.text "5")
    t.Admits ∧ (t.insert number).1 = .ok (.integer 3) ∧ ¬ (t.insert number).2.Admits ∧
      (t.insert [("pieces", text)]).1 = .error (.strictColumn "pieces" .integer text) ∧
      Error.kind (.strictColumn "pieces" .integer text) = .typeMismatch := by
  intro t number text
  obtain ⟨hheld, hexact, hreject⟩ := admits_run_of_straight parcels_created sendParcels
  have hadmits : t.Admits := hheld (by decide)
  have hnumber : (t.insert number).1 = .ok (.integer 3) := by decide
  have hdiverted : ¬ (t.insert number).2.Admits :=
    mt ((hexact hadmits).insert number _ hnumber).1 (by decide)
  obtain ⟨hkind, hrejects⟩ := hreject pieces (by decide) text _ rfl
  have hothers : ∀ d ∈ t.columns, d ≠ pieces →
      ∃ v, d.resolve ((Row.cell? d.name [("pieces", text)]).getD .null)
        (d.autoincrement || some t.keyName == some d.name) = .ok v := by
    intro d hd hne
    have hcolumns : t.columns = [.generatedKey "rowid", weight, pieces] := by decide
    simp only [hcolumns, List.mem_cons, List.not_mem_nil, or_false] at hd
    rcases hd with rfl | rfl | rfl
    · exact ⟨.null, by decide⟩
    · exact ⟨.real (Binary64.ofInt 2), by decide⟩
    · exact absurd rfl hne
  have htext := hrejects.insert [("pieces", text)] (by decide) rfl hothers
  exact ⟨hadmits, hnumber, hdiverted, congrArg Prod.fst htext, hkind⟩

/-- A strict column of integers holds a real number if the integer that is inserted is tagged. -/
theorem not_admits_parcels :
    parcels.Built ∧
      ((parcels.insert [("pieces", .tagged .real (.int 5))]).2.toList.map (·.2.cells)) =
        [[.integer 1, .real (Binary64.ofInt 2), .real (Binary64.ofInt 5)]] ∧
      ¬ (parcels.run [.insert [("pieces", .tagged .real (.int 5))]]).Admits :=
  ⟨.create parcels_created, by decide, by decide⟩

end Table

end Tabular
