import Mathlib.Data.List.Induction
import Tabular.Proofs.Failure

/-!
The names under which tables are stored. Every way into a database looks at the name of a table,
but a table that is handed out to be changed stays where it is stored, also if it comes back with
another name.
-/
namespace Tabular

namespace Table

theorem name_insertRow (t : Table) (row : Row) (key : Option Raw) :
    (t.insertRow row key).2.name = t.name := by
  rcases t.insertRow_cases row key with
    ⟨e, he⟩ | ⟨k, c, -, -, -, ⟨e, -, he⟩ | ⟨r, -, ho⟩⟩
  · rw [he]
  · rw [he]
  · rw [ho]
    rfl

theorem name_insertRows (t : Table) (rows : List Row) :
    (t.insertRows rows).2.name = t.name := by
  induction rows generalizing t with
  | nil => rfl
  | cons row rows ih =>
    have hrow := t.name_insertRow row none
    unfold insertRows
    split <;> rename_i heq <;> rw [heq] at hrow
    · exact hrow
    · rename_i s
      have hrest := (ih s).trans hrow
      split <;> rename_i heq <;> rwa [heq] at hrest

theorem name_after_ne_iff {t : Table} {op : Operation} :
    (t.after op).name ≠ t.name ↔
      ∃ name, op = .rename name ∧ Text.isBlankText name = false ∧ name ≠ t.name := by
  have hsame : (t.after op).name = t.name → (∀ name, op ≠ .rename name) →
      ((t.after op).name ≠ t.name ↔
        ∃ name, op = .rename name ∧ Text.isBlankText name = false ∧ name ≠ t.name) :=
    fun h hop => ⟨fun hne => absurd h hne, fun ⟨name, heq, _⟩ => absurd heq (hop name)⟩
  cases op with
  | insert data =>
    refine hsame ?_ nofun
    rcases t.insert_cases data with ⟨e, -, ho⟩ | ⟨row, -, ho⟩ <;> simp only [after, ho]
    exact t.name_insertRow row none
  | insertRow row key => exact hsame (t.name_insertRow row key) nofun
  | insertRows rows => exact hsame (t.name_insertRows rows) nofun
  | updateRow key updates =>
    refine hsame ?_ nofun
    rcases t.updateRow_cases key updates with ⟨e, ho⟩ | ⟨_, _, _, _, -, -, -, -, -, ho⟩ <;>
      simp only [after, ho]
    rfl
  | deleteRow key =>
    refine hsame ?_ nofun
    rcases t.deleteRow_cases key with ⟨ho, -⟩ | ⟨_, _, -, -, ho⟩ <;> simp only [after, ho]
    rfl
  | rename name =>
    cases hblank : Text.isBlankText name <;> simp [after, rename, hblank]
  | issueKey =>
    refine hsame ?_ nofun
    simp only [after, issueKey]
    split <;> rfl

end Table

namespace Database

/-- What can be done to a database that changes it. A table that is handed out may be changed in
any way, or another one may be put in its place. -/
inductive Operation where
  | createTable (name : String) (columns : List Column) (key : Option String)
  | addTable (t : Table)
  | deleteTable (name : String)
  | replaceTable (name : String) (t : Table)
  | edit (name : String) (change : Table → Table)

/-- The database after an operation, whether it succeeds or fails. -/
def after (db : Database) : Operation → Database
  | .createTable name columns key => (db.createTable name columns key).2
  | .addTable t => (db.addTable t).2
  | .deleteTable name => (db.deleteTable name).2
  | .replaceTable name t => (db.replaceTable name t).2
  | .edit name change => (db.onTable name fun t => (.ok (), change t)).2

def run (db : Database) (ops : List Operation) : Database := ops.foldl after db

theorem run_concat (db : Database) (ops : List Operation) (op : Operation) :
    db.run (ops ++ [op]) = (db.run ops).after op := List.foldl_concat ..

/-- Every table is found under its own name. -/
def Named (db : Database) : Prop := ∀ name t, db.table name = .ok t → t.name = name

/-- A table that is handed out comes back with a name other than the one it is stored under. -/
def Misnames (db : Database) : Operation → Prop
  | .edit name change => ∃ t, db.table name = .ok t ∧ (change t).name ≠ name
  | _ => False

variable {db : Database}

@[simp] theorem table_eq_ok_iff {name : String} {t : Table} :
    db.table name = .ok t ↔ db.tables.lookup name = some t := by
  unfold table
  cases db.tables.lookup name <;> simp

theorem lookup_append_table (name other : String) (t : Table) :
    (db.tables ++ [(name, t)]).lookup other =
      (db.tables.lookup other).or (if other = name then some t else none) := by
  rw [List.lookup_append]
  by_cases h : other = name
  · simp [h]
  · have hb : (other == name) = false := by simpa using h
    simp [List.lookup_cons, h, hb]

theorem lookup_map_table (change : String → Table → Table) (tables : List (String × Table))
    (name : String) :
    (tables.map fun p => (p.1, change p.1 p.2)).lookup name =
      (tables.lookup name).map (change name) := by
  induction tables with
  | nil => rfl
  | cons p tables ih =>
    rw [List.map_cons, List.lookup_cons, List.lookup_cons]
    by_cases h : name = p.1
    · simp [h]
    · have hb : (name == p.1) = false := by simpa using h
      simp [hb, ih]

theorem tables_setTable (name : String) (t : Table) :
    (db.setTable name t).tables =
      db.tables.map fun p => (p.1, if p.1 = name then t else p.2) :=
  List.map_congr_left fun p _ => by dsimp only; split <;> rfl

theorem lookup_setTable (name other : String) (t : Table) :
    (db.setTable name t).tables.lookup other =
      (db.tables.lookup other).map fun old => if other = name then t else old := by
  rw [tables_setTable, lookup_map_table fun key old => if key = name then t else old]

/-- An operation that gives no table a wrong name changes nothing, adds a table under its own name,
or removes one. All others put a table in the place of another. -/
theorem after_cases (db : Database) (op : Operation) :
    (¬ db.Misnames op ∧ (db.after op = db ∨
      (∃ t, db.contains t.name = false ∧
        db.after op = { db with tables := db.tables ++ [(t.name, t)] }) ∨
      ∃ name, db.after op = { db with tables := db.tables.filter fun p => p.1 != name })) ∨
    ∃ name t, db.contains name = true ∧ db.after op = db.setTable name t ∧
      (db.Misnames op ↔ t.name ≠ name) := by
  cases op with
  | createTable name columns key =>
    refine .inl ⟨not_false, ?_⟩
    rcases db.createTable_cases name columns key with ⟨e, ho⟩ | ⟨t, hnew, hcreate, ho⟩
    · exact .inl (congrArg Prod.snd ho)
    · obtain rfl := Table.name_of_create hcreate
      exact .inr (.inl ⟨t, hnew, congrArg Prod.snd ho⟩)
  | addTable t =>
    refine .inl ⟨not_false, ?_⟩
    cases hnew : db.contains t.name with
    | true => exact .inl (by simp [after, addTable, hnew])
    | false => exact .inr (.inl ⟨t, hnew, congrArg Prod.snd (table_of_addTable hnew).1⟩)
  | deleteTable name =>
    refine .inl ⟨not_false, ?_⟩
    simp only [after, deleteTable]
    split
    · exact .inl rfl
    · exact .inr (.inr ⟨name, rfl⟩)
  | replaceTable name t =>
    simp only [after, replaceTable]
    split
    · exact .inl ⟨not_false, .inl rfl⟩
    split
    · exact .inl ⟨not_false, .inl rfl⟩
    · rename_i hname _ old hold
      refine .inr ⟨name, t, by simp [contains, table_eq_ok_iff.1 hold], rfl, ?_⟩
      simpa [Misnames] using hname
  | edit name change =>
    simp only [after, onTable]
    split
    · rename_i e he
      exact .inl ⟨by simp [Misnames, he], .inl rfl⟩
    · rename_i t ht
      refine .inr ⟨name, change t, by simp [contains, table_eq_ok_iff.1 ht], rfl, ?_⟩
      simp [Misnames, ht]

def Keyed (db : Database) : Prop := (db.tables.map (·.1)).Nodup

theorem Keyed.after (h : db.Keyed) (op : Operation) : (db.after op).Keyed := by
  rcases db.after_cases op with
    ⟨-, ho | ⟨t, hnew, ho⟩ | ⟨name, ho⟩⟩ | ⟨name, t, -, ho, -⟩ <;> rw [ho]
  · exact h
  · have hnone : db.tables.lookup t.name = none := by simpa [contains] using hnew
    have hnot : ∀ key ∈ db.tables.map (·.1), ∀ name ∈ [t.name], key ≠ name := by
      intro key hkey name hname
      obtain ⟨p, hp, rfl⟩ := List.mem_map.1 hkey
      obtain rfl := List.mem_singleton.1 hname
      exact Ne.symm (by simpa using List.lookup_eq_none_iff.1 hnone p hp)
    rw [Keyed, List.map_append]
    exact List.nodup_append.2 ⟨h, List.nodup_singleton _, hnot⟩
  · exact h.sublist (List.filter_sublist.map _)
  · rw [Keyed, tables_setTable, List.map_map]
    exact h

theorem Keyed.run (h : db.Keyed) (ops : List Operation) : (db.run ops).Keyed := by
  induction ops generalizing db with
  | nil => exact h
  | cons op ops ih => exact ih (h.after op)

/-- Names that are right stay right exactly if no table comes back with a wrong one. -/
theorem Named.after_iff (h : db.Named) (op : Operation) :
    (db.after op).Named ↔ ¬ db.Misnames op := by
  have hown : ∀ name t, db.tables.lookup name = some t → t.name = name := by
    simpa only [Named, table_eq_ok_iff] using h
  simp only [Named, table_eq_ok_iff]
  rcases db.after_cases op with
    ⟨hright, ho | ⟨t, -, ho⟩ | ⟨name, ho⟩⟩ | ⟨name, t, hold, ho, hmis⟩ <;> rw [ho]
  · exact iff_of_true hown hright
  · refine iff_of_true (fun other s hs => ?_) hright
    rw [lookup_append_table] at hs
    rcases Option.or_eq_some_iff.1 hs with hs | ⟨-, hs⟩
    · exact hown other s hs
    · obtain ⟨rfl, hst⟩ := Option.ite_none_right_eq_some.1 hs
      exact congrArg Table.name (Option.some.inj hst).symm
  · refine iff_of_true (fun other s hs => ?_) hright
    rw [lookup_filter_key (· != name)] at hs
    exact hown other s (Option.ite_none_right_eq_some.1 hs).2
  · simp only [lookup_setTable, hmis, not_not]
    constructor
    · intro hall
      obtain ⟨old, hold⟩ := Option.isSome_iff_exists.1 hold
      simpa [hold] using hall name t
    · rintro rfl other s hs
      obtain ⟨old, hs', rfl⟩ := Option.map_eq_some_iff.1 hs
      split
      · rename_i heq
        exact heq.symm
      · exact hown other old hs'

theorem Keyed.table_of_mem (h : db.Keyed) {p : String × Table} (hp : p ∈ db.tables) :
    db.table p.1 = .ok p.2 := by
  obtain ⟨before, behind, htables⟩ := List.append_of_mem hp
  rw [Keyed, htables, List.map_append, List.nodup_append] at h
  have hbefore : ∀ q ∈ before, (p.1 != q.1) = true := by
    intro q hq
    have hne := h.2.2 q.1 (List.mem_map_of_mem hq) p.1 List.mem_cons_self
    simpa using hne.symm
  exact table_eq_ok_iff.2 (List.lookup_eq_some_iff.2 ⟨before, behind, htables, hbefore⟩)

theorem Named.nodup_names (h : db.Named) (keyed : db.Keyed) :
    (db.tables.map (·.2.name)).Nodup := by
  have hnames : db.tables.map (·.2.name) = db.tables.map (·.1) :=
    List.map_congr_left fun p hp => h p.1 p.2 (keyed.table_of_mem hp)
  rw [hnames]
  exact keyed

/-- Along a run tables are found under their own names, and so have different names, exactly as long
as no table that is handed out comes back with a name other than the one it is stored under. Among
the operations of a table it is a rename to another name that brings this about. -/
theorem named_run_iff (name : String) (settings : Settings) (ops : List Operation) :
    let db := ({ name, settings } : Database)
    ((∀ before behind, ops = before ++ behind → (db.run before).Named) ↔
      ∀ before op behind, ops = before ++ op :: behind → ¬ (db.run before).Misnames op) ∧
    ((db.run ops).Named → ((db.run ops).tables.map (·.2.name)).Nodup) ∧
    ∀ (t : Table) (op : Table.Operation), (t.after op).name ≠ t.name ↔
      ∃ other, op = .rename other ∧ Text.isBlankText other = false ∧ other ≠ t.name := by
  intro db
  have hempty : db.Named := fun n t h => nomatch h
  refine ⟨⟨fun h before op behind hops => ?_, fun h before behind hops => ?_⟩,
    fun h => h.nodup_names (Keyed.run (by simp [Keyed, db]) ops),
    fun t op => Table.name_after_ne_iff⟩
  · have hbefore := h before (op :: behind) hops
    rw [← hbefore.after_iff op, ← run_concat]
    exact h (before ++ [op]) behind (by simp [hops])
  · induction before using List.reverseRecOn generalizing behind with
    | nil => exact hempty
    | append_singleton before op ih =>
      rw [List.append_assoc] at hops
      rw [run_concat, (ih _ hops).after_iff op]
      exact h before op behind hops

def mixUp : List Operation :=
  [.createTable "notes" [{ name := "text", affinity := .text }] none,
    .createTable "tasks" [{ name := "text", affinity := .text }] none,
    .edit "notes" fun t => (t.rename "tasks").2]

/-- The renamed table is still found under its old name, and two tables have the same name. -/
theorem not_named_mixUp :
    let db := ({ name := "main" } : Database).run mixUp
    (∃ t, db.table "notes" = .ok t ∧ t.name = "tasks") ∧ ¬ db.Named ∧
      ¬ (db.tables.map (·.2.name)).Nodup := by
  intro db
  have hnotes : ∃ t, db.table "notes" = .ok t ∧ t.name = "tasks" := ⟨_, rfl, rfl⟩
  refine ⟨hnotes, fun h => ?_, by decide⟩
  obtain ⟨t, ht, hname⟩ := hnotes
  rw [h "notes" t ht] at hname
  exact absurd hname (by decide)

end Database
end Tabular
