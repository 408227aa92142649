import Tabular.Proofs.Row
import Tabular.Proofs.Table.Rows

/-!
Columns that are not nullable. Rows that are inserted have values there unless a column erases the
cell that it is given, or awaits a value that is generated for no column but the key.
-/
namespace Tabular.Table

/-- A row with a value in every column of the table that is not nullable. -/
def Fills (t : Table) (row : Row) : Prop :=
  ∀ c ∈ t.columns, c.nullable = false → row.get? c.name ≠ some .null

def NotNull (t : Table) : Prop := ∀ e ∈ t.entries, t.Fills e.row

/-- A row that has values in the ordinary columns, with a key that is not erased. -/
def SuppliesRow (t : Table) (row : Row) (key : Option Raw) : Prop :=
  (∀ c ∈ t.columns, c.nullable = false → c.name ≠ t.keyName → row.get? c.name ≠ some .null) ∧
    (t.keyColumn.nullable = false → (t.chosenKey? row key).any t.keyColumn.erases = false)

/-- Data that leaves no ordinary column without a value. The key takes care of itself: where it is
missing it is generated or the insertion fails. -/
def SuppliesData (t : Table) (data : List (String × Raw)) : Prop :=
  ∀ c ∈ t.columns, c.nullable = false → c.name ≠ t.keyName →
    c.leavesNull ((Row.cell? c.name data).getD .null) = false

/-- An operation that brings values for all columns that are not nullable. -/
def Supplies (t : Table) : Operation → Prop
  | .insert data => t.SuppliesData data
  | .insertRow row key => t.SuppliesRow row key
  | .insertRows rows => ∀ row ∈ rows, t.SuppliesRow row none
  | .updateRow _ _ => False
  | .deleteRow _ | .rename _ | .issueKey => True

instance (t : Table) (row : Row) : Decidable (t.Fills row) :=
  inferInstanceAs (Decidable (∀ c ∈ t.columns, c.nullable = false → row.get? c.name ≠ some .null))

instance (t : Table) : Decidable t.NotNull :=
  inferInstanceAs (Decidable (∀ e ∈ t.entries, t.Fills e.row))

instance (t : Table) (row : Row) (key : Option Raw) : Decidable (t.SuppliesRow row key) :=
  inferInstanceAs (Decidable ((∀ c ∈ t.columns, c.nullable = false → c.name ≠ t.keyName →
    row.get? c.name ≠ some .null) ∧
      (t.keyColumn.nullable = false → (t.chosenKey? row key).any t.keyColumn.erases = false)))

instance (t : Table) (data : List (String × Raw)) : Decidable (t.SuppliesData data) :=
  inferInstanceAs (Decidable (∀ c ∈ t.columns, c.nullable = false → c.name ≠ t.keyName →
    c.leavesNull ((Row.cell? c.name data).getD .null) = false))

instance (t : Table) : (op : Operation) → Decidable (t.Supplies op)
  | .insert data => inferInstanceAs (Decidable (t.SuppliesData data))
  | .insertRow row key => inferInstanceAs (Decidable (t.SuppliesRow row key))
  | .insertRows rows => inferInstanceAs (Decidable (∀ row ∈ rows, t.SuppliesRow row none))
  | .updateRow _ _ => inferInstanceAs (Decidable False)
  | .deleteRow _ | .rename _ | .issueKey => inferInstanceAs (Decidable True)

variable {t s : Table}

theorem supplies_congr (columns : s.columns = t.columns) (keyName : s.keyName = t.keyName)
    (op : Operation) : s.Supplies op ↔ t.Supplies op := by
  have hkey : s.keyColumn = t.keyColumn := by simp [keyColumn, column?, columns, keyName]
  cases op <;> simp [Supplies, SuppliesData, SuppliesRow, chosenKey?, columns, keyName, hkey]

theorem cell?_of_missing {data : List (String × Raw)} {c : Column} (hc : c ∈ t.columns) :
    Row.cell? c.name (data ++ (t.columns.filter fun c => data.all (·.1 != c.name)).map
      fun c => (c.name, .null)) = some ((Row.cell? c.name data).getD .null) := by
  have hmissing : c.name ∈ (t.columns.filter fun c => data.all (·.1 != c.name)).map (·.name) ↔
      Row.cell? c.name data = none := by
    rw [Row.cell?_eq_none_iff, List.mem_map]
    constructor
    · rintro ⟨d, hd, hname⟩
      rw [← hname]
      exact (List.mem_filter.1 hd).2
    · exact fun h => ⟨c, List.mem_filter.2 ⟨hc, h⟩, rfl⟩
  rw [Row.cell?_append, Row.cell?_map_null]
  cases hcell : Row.cell? c.name data with
  | some raw => rw [if_neg (by simp [hmissing, hcell]), Option.none_or, Option.getD_some]
  | none => rw [if_pos (hmissing.2 hcell), Option.some_or, Option.getD_none]

theorem known_missing_iff {data : List (String × Raw)} :
    (∀ x ∈ data ++ (t.columns.filter fun c => data.all (·.1 != c.name)).map
      fun c => (c.name, Raw.null), x.1 ∈ t.columns.map (·.name)) ↔
        ∀ x ∈ data, x.1 ∈ t.columns.map (·.name) := by
  refine ⟨fun hall x hx => hall x (List.mem_append_left _ hx), fun hall x hx => ?_⟩
  rcases List.mem_append.1 hx with hx | hx
  · exact hall x hx
  · obtain ⟨c, hc, rfl⟩ := List.mem_map.1 hx
    exact List.mem_map_of_mem (List.mem_of_mem_filter hc)

theorem Settles.eq_null_iff {row : Row} {key : Option Raw} {k : Value} {c : Int64}
    (h : t.Settles row key k c) (present : key.any Raw.isNull = false) :
    k = .null ↔ (t.chosenKey? row key).any t.keyColumn.erases = true := by
  cases h with
  | @chosen raw _ chosen stored _ =>
    have hpresent := isNull_of_chosenKey? present chosen
    rw [Column.resolve_of_not_isNull hpresent] at stored
    simp [Column.store_eq_null_iff stored, hpresent, chosen]
  | generated chosen _ _ => simp [chosen]

theorem WellFormed.fills_iff (h : t.WellFormed) {row r : Row} {key : Option Raw} {k : Value}
    {c : Int64} (present : key.any Raw.isNull = false) (settles : t.Settles row key k c)
    (set : row.set t.keyName k = .ok r) : t.Fills r ↔ t.SuppliesRow row key := by
  have hkey : r.get? t.keyName = some k := Row.get?_of_set set
  have hother : ∀ {name}, name ≠ t.keyName → r.get? name = row.get? name :=
    Row.get?_of_set_of_ne set
  have hnull := settles.eq_null_iff present
  obtain ⟨hmem, hname⟩ := h.keyColumn_mem
  constructor
  · intro hfills
    refine ⟨fun c hc required hne => ?_, fun required => ?_⟩
    · rw [← hother hne]
      exact hfills c hc required
    · have hk := hfills _ hmem required
      rw [hname, hkey, ne_eq, Option.some.injEq, hnull] at hk
      exact eq_false_of_ne_true hk
  · rintro ⟨hcells, herases⟩ c hc required
    by_cases hne : c.name = t.keyName
    · obtain rfl := h.eq_keyColumn hc hne
      rw [hname, hkey, ne_eq, Option.some.injEq, hnull]
      exact ne_true_of_eq_false (herases required)
    · rw [hother hne]
      exact hcells c hc required hne

namespace WellFormed

theorem erases_chosenKey?_of_row (h : t.WellFormed) {data : List (String × Raw)} {row : Row}
    (hrow : t.row data = .ok row) : (t.chosenKey? row none).any t.keyColumn.erases = false := by
  obtain ⟨hmem, hname⟩ := h.keyColumn_mem
  obtain ⟨raw, v, -, hv, hget⟩ := Row.get?_of_build h.names_nodup hrow hmem
  obtain ⟨-, hstore⟩ := Column.resolve_eq_ok_iff.1 hv
  rw [hname] at hget
  by_cases hnull : v = .null
  · simp [chosenKey?, hget, hnull]
  · simp [chosenKey?, hget, hnull, Column.erases_toRaw hstore hnull]

theorem suppliesRow_iff_of_row (h : t.WellFormed) {data : List (String × Raw)} {row : Row}
    (hrow : t.row data = .ok row) : t.SuppliesRow row none ↔ t.SuppliesData data := by
  have herases := h.erases_chosenKey?_of_row hrow
  have hcell : ∀ c ∈ t.columns, c.nullable = false → c.name ≠ t.keyName →
      (row.get? c.name ≠ some .null ↔
        c.leavesNull ((Row.cell? c.name data).getD .null) = false) := by
    intro c hc required hne
    have hordinary : some t.keyName ≠ some c.name := by simpa using hne.symm
    rw [ne_eq, Row.get?_eq_null_iff_of_build h.names_nodup hrow hc required hordinary,
      cell?_of_missing hc]
    simp
  constructor
  · rintro ⟨hcells, -⟩ c hc required hne
    exact (hcell c hc required hne).1 (hcells c hc required hne)
  · intro hdata
    exact ⟨fun c hc required hne => (hcell c hc required hne).2 (hdata c hc required hne),
      fun _ => herases⟩

end WellFormed

/-- Rows that are inserted have values where they must if they are supplied. -/
theorem fills_rule : RowRule Fills Supplies where
  row_congr columns _ _ := by simp [Fills, columns]
  brings_congr := supplies_congr
  insertRow h present settles _ set supplied := (h.fills_iff present settles set).2 supplied
  insert h hrow supplied := (h.suppliesRow_iff_of_row hrow).2 supplied
  insertRows supplied := supplied
  updateRow _ _ _ _ _ supplied := supplied.elim

namespace WellFormed

/-- An insertion that succeeds adds a NULL where none is allowed unless the row supplies a value. -/
theorem notNull_insertRow_iff (h : t.WellFormed) (held : t.NotNull) {row : Row}
    {key : Option Raw} {k : Value} (ok : (t.insertRow row key).1 = .ok k) :
    (t.insertRow row key).2.NotNull ↔ t.SuppliesRow row key := by
  obtain ⟨c, r, present, settles, set, hall⟩ := fills_rule.allRows_insertRow_iff h held ok
  exact hall.trans (h.fills_iff present settles set)

theorem notNull_insert_iff (h : t.WellFormed) (held : t.NotNull) {data : List (String × Raw)}
    {k : Value} (ok : (t.insert data).1 = .ok k) :
    (t.insert data).2.NotNull ↔ t.SuppliesData data := by
  rcases t.insert_cases data with ⟨e, -, ho⟩ | ⟨row, hrow, ho⟩ <;> rw [ho] at ok ⊢
  · cases ok
  · rw [← h.suppliesRow_iff_of_row hrow]
    exact h.notNull_insertRow_iff held ok

theorem notNull_run (h : t.WellFormed) (held : t.NotNull) {ops : List Operation}
    (supplied : ∀ op ∈ ops, t.Supplies op) : (t.run ops).NotNull :=
  fills_rule.allRows_run h held supplied

end WellFormed

/-- Without updates a table has no NULL where it allows none, as long as its insertions supply
values; the first that succeeds without doing so puts one there. -/
theorem notNull_run_of_supplies {name : String} {columns : List Column} {key : Option String}
    {settings : Settings} (h : create name columns key settings = .ok t) (ops : List Operation) :
    let s := t.run ops
    ((∀ op ∈ ops, t.Supplies op) → s.NotNull) ∧
      (s.NotNull →
        (∀ data k, (s.insert data).1 = .ok k →
          ((s.insert data).2.NotNull ↔ t.Supplies (.insert data))) ∧
        ∀ row chosen k, (s.insertRow row chosen).1 = .ok k →
          ((s.insertRow row chosen).2.NotNull ↔ t.Supplies (.insertRow row chosen))) := by
  intro s
  have ht := wellFormed_of_create h
  have hs := ht.run ops
  have hsteps := ht.steps_run ops
  have hempty : t.NotNull := by simp [NotNull, entries_of_create h]
  have hcongr := supplies_congr hsteps.columns_eq hsteps.keyName_eq
  refine ⟨fun supplied => ht.notNull_run hempty supplied, fun held => ⟨?_, ?_⟩⟩
  · intro data k ok
    exact (hs.notNull_insert_iff held ok).trans (hcongr (.insert data))
  · intro row chosen k ok
    exact (hs.notNull_insertRow_iff held ok).trans (hcongr (.insertRow row chosen))

def prices : Table where
  name := "prices"
  columns := [.generatedKey "rowid", { name := "price", affinity := .numeric },
    { name := "serial", affinity := .integer, autoincrement := true }]
  keyName := "rowid"
  implicitKey := true
  settings := {}
  cursor := 1

theorem prices_created :
    create "prices" [{ name := "price", affinity := .numeric },
      { name := "serial", affinity := .integer, autoincrement := true }] none {} = .ok prices := by
  decide

theorem notNull_run_prices :
    let ops : List Operation := [.insert [("price", .text "12"), ("serial", .int 1)], .issueKey,
      .insert [("price", .text "5"), ("serial", .int 2)], .deleteRow (.int 1)]
    let free : List (String × Raw) := [("price", .text " None "), ("serial", .int 3)]
    (prices.run ops).NotNull ∧ ((prices.run ops).insert free).1 = .ok (.integer 4) ∧
      ¬ ((prices.run ops).insert free).2.NotNull := by
  intro ops free
  obtain ⟨hheld, hexact⟩ := notNull_run_of_supplies prices_created ops
  have hrun : (prices.run ops).NotNull := hheld (by decide)
  have hfree : ((prices.run ops).insert free).1 = .ok (.integer 4) := by decide
  exact ⟨hrun, hfree, mt ((hexact hrun).1 free _ hfree).1 (by decide)⟩

/-- A column that is not nullable holds NULL if its text is read as NULL, or if it asks for a
generated value and is not the key. -/
theorem not_notNull_prices :
    prices.Built ∧
      ((prices.insert [("price", .text "none"), ("serial", .null)]).2.toList.map (·.2.cells)) =
        [[.integer 1, .null, .null]] ∧
      ¬ (prices.run [.insert [("price", .text "none"), ("serial", .null)]]).NotNull :=
  ⟨.create prices_created, by decide, by decide⟩

end Tabular.Table
