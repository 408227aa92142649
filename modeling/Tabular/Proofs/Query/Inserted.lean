import Tabular.Proofs.Literal
import Tabular.Proofs.Query.Membership
import Tabular.Proofs.Table.NotNull

/-!
Rows are found by the values with which they were inserted. What an insertion makes of a value is
what its column stores of it, on whatever way it comes in, and the filter compares that with the
literal that the column makes of the same value.
-/
namespace Tabular

namespace Table

/-- Insertions with a raw value in a column. It stands in the data of the row, or it is given as the
key, which then counts and not the data. -/
inductive Inserts (t : Table) (column : String) (raw : Raw) : Table → Value → Prop
  | insert {data : List (String × Raw)} {k : Value} {t' : Table}
      (given : Row.cell? column data = some raw) (h : t.insert data = (.ok k, t')) :
      Inserts t column raw t' k
  | insertRow {columns : List Column} {data : List (String × Raw)} {deferred : Option String}
      {row : Row} {key : Option Raw} {k : Value} {t' : Table}
      (built : Row.build columns data deferred = .ok row)
      (given : (if column = t.keyName then key.or (Row.cell? column data)
        else Row.cell? column data) = some raw)
      (h : t.insertRow row key = (.ok k, t')) : Inserts t column raw t' k

variable {t t' : Table} {c : Column} {raw : Raw} {k : Value} {r : Row}

theorem Inserts.exists_build (h : t.Inserts c.name raw t' k) (hc : c ∈ t.columns) :
    ∃ columns data deferred row key, Row.build columns data deferred = .ok row ∧
      (if c.name = t.keyName then key.or (Row.cell? c.name data)
        else Row.cell? c.name data) = some raw ∧ t.insertRow row key = (.ok k, t') := by
  cases h with
  | insertRow built given h => exact ⟨_, _, _, _, _, built, given, h⟩
  | @insert data _ _ given h =>
    rcases t.insert_cases data with ⟨e, -, ho⟩ | ⟨row, hrow, ho⟩ <;> rw [ho] at h
    · cases h
    · have hcell := @cell?_of_missing t data c hc
      rw [given, Option.getD_some] at hcell
      exact ⟨_, _, _, _, none, hrow, by simp [hcell], h⟩

theorem Inserts.exists_after {column : String} (h : t.Inserts column raw t' k) :
    ∃ op, t' = t.after op := by
  cases h with
  | @insert data _ _ _ h => exact ⟨.insert data, by rw [after, h]⟩
  | @insertRow _ _ _ row key _ _ _ _ h => exact ⟨.insertRow row key, by rw [after, h]⟩

namespace WellFormed

theorem store_of_build (h : t.WellFormed) {columns : List Column} {data : List (String × Raw)}
    {deferred : Option String} {row : Row} (built : Row.build columns data deferred = .ok row)
    (equal : Column.equalLists row.columns t.columns = true) (hc : c ∈ t.columns)
    (given : Row.cell? c.name data = some raw) (present : raw.isNull = false) :
    ∃ v, row.get? c.name = some v ∧ c.store raw = .ok v := by
  have hcolumns := Row.columns_of_build built
  obtain ⟨d, hd, heq⟩ := Column.exists_of_mem_right_of_equalLists equal hc
  have hnames : (columns.map (·.name)).Nodup := by
    rw [← hcolumns, Column.names_of_equalLists equal]
    exact h.names_nodup
  rw [hcolumns] at hd
  obtain ⟨raw', v, hraw, hv, hget⟩ := Row.get?_of_build hnames built hd
  have hname := Column.name_of_equals heq
  rw [hname, given] at hraw
  obtain rfl := Option.some.inj hraw
  rw [Column.resolve_of_not_isNull present] at hv
  exact ⟨v, hname ▸ hget, (Column.store_congr heq).1 hv⟩

theorem store_of_settles (h : t.WellFormed) {columns : List Column} {data : List (String × Raw)}
    {deferred : Option String} {row : Row} (built : Row.build columns data deferred = .ok row)
    (equal : Column.equalLists row.columns t.columns = true) {key : Option Raw} {cursor : Int64}
    (settles : t.Settles row key k cursor) (untagged : raw.untagged = raw)
    (present : raw.isNull = false) (given : key.or (Row.cell? t.keyName data) = some raw) :
    t.keyColumn.store raw = .ok k := by
  obtain ⟨hmem, hname⟩ := h.keyColumn_mem
  cases key with
  | some raw' =>
    obtain rfl : raw' = raw := by simpa using given
    cases settles with
    | chosen chosen stored _ =>
      obtain rfl : raw' = _ := by simpa using chosen
      rwa [Column.resolve_of_not_isNull present] at stored
    | generated chosen _ _ => simp at chosen
  | none =>
    rw [Option.none_or, ← hname] at given
    obtain ⟨v, hget, hv⟩ := h.store_of_build built equal hmem given present
    rw [hname] at hget
    cases settles with
    | chosen chosen stored _ =>
      obtain ⟨w, hw, hnull, rfl⟩ := chosenKey?_none_eq_some_iff.1 chosen
      obtain rfl : v = w := Option.some.inj (hget.symm.trans hw)
      rw [← Value.isNull_toRaw] at hnull
      rw [Column.resolve_of_not_isNull hnull, Column.store_toRaw untagged hv] at stored
      rwa [← Except.ok.inj stored]
    | generated chosen generates _ =>
      have hinteger : t.keyColumn.affinity = .integer := by simpa [generatesKeys] using generates
      have hnull : v = .null := by simpa [chosenKey?, hget] using chosen
      rw [Column.store_eq_null_iff hv, present, Column.erases_of_integer untagged hinteger] at hnull
      simp at hnull

theorem store_of_inserts (h : t.WellFormed) (hc : c ∈ t.columns) (untagged : raw.untagged = raw)
    (present : raw.isNull = false) (inserted : t.Inserts c.name raw t' k)
    (new : (k, r) ∈ t'.toList) : c.store raw = .ok (r.cell c.name) := by
  obtain ⟨columns, data, deferred, row, key, built, given, hins⟩ := inserted.exists_build hc
  rcases h.insertRow_cases row key with ⟨e, he⟩ | ⟨k', cursor, r', -, settles, equal, set, ho⟩
  · rw [he] at hins
    cases hins
  rw [ho] at hins
  cases hins
  obtain rfl : r = r' := by
    rw [toList_append, List.mem_append, List.mem_singleton] at new
    rcases new with old | new
    · obtain ⟨e, he, hk, -⟩ := mem_toList_iff.1 old
      have hslot := h.slot?_of_mem he
      rw [hk, settles.slot?_eq_none] at hslot
      cases hslot
    · exact congrArg Prod.snd new
  by_cases hkey : c.name = t.keyName
  · obtain rfl := h.eq_keyColumn hc hkey
    rw [if_pos hkey, hkey] at given
    rw [Row.cell, hkey, Row.get?_of_set set]
    exact h.store_of_settles built equal settles untagged present given
  · rw [if_neg hkey] at given
    obtain ⟨v, hget, hv⟩ := h.store_of_build built equal hc given present
    rwa [Row.cell, Row.get?_of_set_of_ne set hkey, hget]

end WellFormed

end Table

theorem Value.matches?_null (v : Value) : v.matches? .null = v.isNull := by cases v <;> rfl

/-- The row of a value is selected by the same value: the value is not NULL, which nothing is equal
to, and it is not misread as a literal. -/
theorem Column.oneOf_literal_iff {c : Column} {raw : Raw} {v u : Value}
    (untagged : raw.untagged = raw) (stored : raw.isNull = false → c.store raw = .ok v)
    (present : v ≠ .null) (number : v.isNaN = false) (hu : (c.literal raw).store = .ok u) :
    Cell.oneOf false [u] v = true ↔ raw.isNull = false ∧ c.misreads raw = false := by
  rw [Cell.oneOf_singleton]
  cases hnull : raw.isNull with
  | true =>
    obtain rfl : u = .null := by
      rw [literal, if_pos hnull] at hu
      exact (Except.ok.inj hu).symm
    simp [Value.matches?_null]
  | false => simp [matches?_literal untagged hnull (stored hnull) number hu, present]

/-- A row that was inserted with a value in a column, and that is still there, is selected by the
query for the same value, unless this is NULL, in the place of which something else is stored, or
the column misreads it as a literal. -/
theorem Plan.whereIn_selects_inserted_iff {t t' : Table} (h : t.Reachable) {c : Column}
    (hc : c ∈ t.columns) (identifier : Token.isIdentifier c.name = true) {raw : Raw}
    (untagged : raw.untagged = raw) {k : Value} (inserted : t.Inserts c.name raw t' k) {r : Row}
    (new : (k, r) ∈ t'.toList) (present : r.cell c.name ≠ .null)
    (number : (r.cell c.name).isNaN = false) {ops : List Table.Operation}
    (kept : (k, r) ∈ (t'.run ops).toList) {db : Database} {name : String}
    (source : db.table name = .ok (t'.run ops)) :
    ∃ p rows, whereIn name c.name raw = .ok p ∧ p.selected db = .ok rows ∧
      p.run db = .ok (.rows ((t'.run ops).declared.map (·.name)) (rows.map (t'.run ops).line)) ∧
      (r ∈ rows ↔ raw.isNull = false ∧ c.misreads raw = false) := by
  have hw := h.wellFormed
  obtain ⟨op, hop⟩ := inserted.exists_after
  have ht' : t'.Reachable := hop ▸ h.after op
  have hs := (ht'.run ops).wellFormed
  have hc' : c ∈ (t'.run ops).columns := by
    rw [(ht'.wellFormed.steps_run ops).columns_eq, hop, (hw.steps_after op).columns_eq]
    exact hc
  obtain ⟨u, hu⟩ := c.exists_store_literal untagged
  obtain ⟨p, hp, hselected, hrun⟩ := whereIn_selected hs source hc' identifier hu
  have hr : r ∈ (t'.run ops).rows := List.mem_map.2 ⟨(k, r), kept, rfl⟩
  have hfound := Column.oneOf_literal_iff untagged
    (fun hraw => hw.store_of_inserts hc untagged hraw inserted new) present number hu
  refine ⟨p, _, hp, hselected, hrun, ?_⟩
  rw [List.mem_filter, and_iff_right hr, hfound]

/-- A strict real column keeps the integer 7, and finds it by the literal 7.0. -/
theorem Plan.whereIn_selects_inserted_readings :
    let t := Table.readings.run [.insert [("at", .int 5)], .insert [("at", .real (.ofInt 5))]]
    let db := (({ name := "main" } : Database).addTable Table.threeReadings).2
    let row := Table.reading (.integer 7)
    t.insert [("at", .int 7)] = (.ok (.integer 7), Table.threeReadings) ∧
      (.integer 7, row) ∈ Table.threeReadings.toList ∧
      ∃ p rows, whereIn "readings" "at" (.int 7) = .ok p ∧ p.selected db = .ok rows ∧
        p.run db = .ok (.rows ["at"] (rows.map Table.threeReadings.line)) ∧
        (row ∈ rows ↔ (Raw.int 7).isNull = false ∧
          ({ name := "at", affinity := .real, strict := true } : Column).misreads (.int 7) =
            false) := by
  intro t db row
  have ht : t.Reachable := by
    have h := @Table.Built.create "readings" Table.readings.columns (some "at") {} Table.readings
      (by decide)
    exact (Table.Reachable.built h).run _
  have hc : ({ name := "at", affinity := .real, strict := true } : Column) ∈ t.columns := by decide
  have hinsert : t.insert [("at", .int 7)] = (.ok (.integer 7), Table.threeReadings) := by decide
  have hnew : (.integer 7, row) ∈ Table.threeReadings.toList := by decide
  have hsource : db.table "readings" = .ok (Table.threeReadings.run []) := by decide
  exact ⟨hinsert, hnew, whereIn_selects_inserted_iff ht hc (by decide) rfl (.insert rfl hinsert)
    hnew (by decide) rfl hnew hsource⟩

def parts : Table where
  name := "parts"
  columns := [.generatedKey "rowid", { name := "code", affinity := .numeric, strict := true }]
  keyName := "rowid"
  implicitKey := true
  settings := {}
  cursor := 1

/-- The code 12 is kept as a text, and is not found as the number that the literal is. -/
theorem Plan.not_whereIn_selects_inserted_parts :
    let t' := (parts.insert [("code", .text "12")]).2
    let row : Row := ⟨parts.columns, [.integer 1, .text "12"], rfl⟩
    let db := (({ name := "main" } : Database).addTable t').2
    parts.Reachable ∧ parts.insert [("code", .text "12")] = (.ok (.integer 1), t') ∧
      (.integer 1, row) ∈ t'.toList ∧ row.cell "code" = .text "12" ∧
      db.table "parts" = .ok t' ∧
      ∃ p, whereIn "parts" "code" (.text "12") = .ok p ∧
        p.selected db = .ok [] ∧ p.run db = .ok (.rows ["code"] []) := by
  intro t' row db
  have hcreate : Table.create "parts" [{ name := "code", affinity := .numeric, strict := true }]
      none {} = .ok parts := by decide
  refine ⟨.built (.create hcreate), by decide, by decide, by decide, by decide, ?_⟩
  exact ⟨_, whereIn_of_isIdentifier (by decide) "parts" (.text "12"), by decide, by decide⟩

end Tabular
