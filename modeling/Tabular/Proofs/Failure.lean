import Tabular.Proofs.Table.WellFormed
import Tabular.Database

/-!
Operations that fail. They leave everything as it was, also where they had begun to change it: what
comes after the first change cannot fail, as rows have the columns of their table.
-/
namespace Tabular

/-- An answer that is an error comes with the state in which the operation began. -/
def Outcome.Intact {σ α : Type} (s : σ) (o : Outcome σ α) : Prop := ∀ e, o.1 = .error e → o.2 = s

theorem Outcome.intact_error {σ α : Type} {s : σ} {e : Error} :
    Intact s ((.error e, s) : Outcome σ α) := fun _ _ => rfl

theorem Outcome.intact_ok {σ α : Type} {s s' : σ} {a : α} :
    Intact s ((.ok a, s') : Outcome σ α) := fun _ h => nomatch h

namespace Table

/-- Every single operation that fails leaves the table as it was. -/
structure FailsIntact (t : Table) : Prop where
  insert : ∀ data, Outcome.Intact t (t.insert data)
  insertRow : ∀ row key, Outcome.Intact t (t.insertRow row key)
  updateRow : ∀ key updates, Outcome.Intact t (t.updateRow key updates)
  deleteRow : ∀ key, Outcome.Intact t (t.deleteRow key)
  rename : ∀ name, Outcome.Intact t (t.rename name)
  issueKey : Outcome.Intact t t.issueKey

variable {t : Table}

theorem WellFormed.exists_set_key (h : t.WellFormed) {row : Row}
    (columns : Column.equalLists row.columns t.columns = true) (k : Value) :
    ∃ r, row.set t.keyName k = .ok r := by
  refine Row.exists_set_eq_ok ?_ k
  rw [Column.names_of_equalLists columns]
  exact h.key_named

/-- An insertion fails and changes nothing, or it adds the row under the key on which it settles. -/
theorem WellFormed.insertRow_cases (h : t.WellFormed) (row : Row) (key : Option Raw) :
    (∃ e, t.insertRow row key = (.error e, t)) ∨
      ∃ k c r, key.any Raw.isNull = false ∧ t.Settles row key k c ∧
        Column.equalLists row.columns t.columns = true ∧ row.set t.keyName k = .ok r ∧
        t.insertRow row key = (.ok k, ({ t with cursor := c } : Table).append k r) := by
  rcases t.insertRow_cases row key with hfail | ⟨k, c, hp, hs, hcols, hset⟩
  · exact .inl hfail
  obtain ⟨r, hr⟩ := h.exists_set_key hcols k
  rcases hset with ⟨e, he, -⟩ | ⟨r, hr, ho⟩
  · rw [hr] at he
    cases he
  · exact .inr ⟨k, c, r, hp, hs, hcols, hr, ho⟩

theorem WellFormed.insertRow_intact (h : t.WellFormed) (row : Row) (key : Option Raw) :
    Outcome.Intact t (t.insertRow row key) := by
  rcases h.insertRow_cases row key with ⟨e, he⟩ | ⟨k, c, r, -, -, -, -, ho⟩
  · rw [he]
    exact Outcome.intact_error
  · rw [ho]
    exact Outcome.intact_ok

theorem WellFormed.failsIntact (h : t.WellFormed) : t.FailsIntact where
  insert data := by
    rcases t.insert_cases data with ⟨e, -, ho⟩ | ⟨row, -, ho⟩ <;> rw [ho]
    · exact Outcome.intact_error
    · exact h.insertRow_intact row none
  insertRow := h.insertRow_intact
  updateRow key updates := by
    rcases t.updateRow_cases key updates with ⟨e, he⟩ | ⟨_, _, _, r, -, -, -, -, -, ho⟩
    · rw [he]
      exact Outcome.intact_error
    · rw [ho]
      exact Outcome.intact_ok
  deleteRow key := by
    rcases t.deleteRow_cases key with ⟨ho, -⟩ | ⟨_, e, -, -, ho⟩
    · rw [ho]
      exact Outcome.intact_error
    · rw [ho]
      exact Outcome.intact_ok
  rename name := by
    unfold Table.rename
    split
    · exact Outcome.intact_error
    · exact Outcome.intact_ok
  issueKey := by
    unfold Table.issueKey
    split
    · exact Outcome.intact_ok
    · exact Outcome.intact_error

theorem name_of_create {name : String} {columns : List Column} {key : Option String}
    {settings : Settings} (h : create name columns key settings = .ok t) : t.name = name := by
  obtain ⟨-, ⟨k, -, -, rfl⟩ | ⟨-, -, rfl⟩⟩ := create_cases h <;> rfl

end Table

namespace Database

structure FailsIntact (db : Database) : Prop where
  createTable : ∀ name columns key, Outcome.Intact db (db.createTable name columns key)
  addTable : ∀ t, Outcome.Intact db (db.addTable t)
  deleteTable : ∀ name, Outcome.Intact db (db.deleteTable name)
  replaceTable : ∀ name t, Outcome.Intact db (db.replaceTable name t)

theorem table_of_addTable {db : Database} {t : Table} (new : db.contains t.name = false) :
    db.addTable t = (.ok (), { db with tables := db.tables ++ [(t.name, t)] }) ∧
      ({ db with tables := db.tables ++ [(t.name, t)] } : Database).table t.name = .ok t := by
  have hnone : db.tables.lookup t.name = none := by
    simpa [contains] using new
  constructor
  · simp [addTable, new]
  · simp [table, List.lookup_append, hnone]

theorem createTable_cases (db : Database) (name : String) (columns : List Column)
    (key : Option String) :
    (∃ e, db.createTable name columns key = (.error e, db)) ∨
      ∃ t, db.contains name = false ∧ Table.create name columns key db.settings = .ok t ∧
        db.createTable name columns key =
          (.ok t, { db with tables := db.tables ++ [(name, t)] }) := by
  unfold createTable
  cases hnew : db.contains name with
  | true => exact .inl ⟨_, rfl⟩
  | false =>
    cases hcreate : Table.create name columns key db.settings with
    | error e => exact .inl ⟨e, by simp⟩
    | ok t =>
      obtain rfl := Table.name_of_create hcreate
      obtain ⟨hadd, htable⟩ := table_of_addTable hnew
      exact .inr ⟨t, rfl, rfl, by simp [hadd, htable]⟩

theorem failsIntact (db : Database) : db.FailsIntact where
  createTable name columns key := by
    rcases db.createTable_cases name columns key with ⟨e, he⟩ | ⟨t, -, -, ho⟩
    · rw [he]
      exact Outcome.intact_error
    · rw [ho]
      exact Outcome.intact_ok
  addTable t := by
    unfold Database.addTable
    split
    · exact Outcome.intact_error
    · exact Outcome.intact_ok
  deleteTable name := by
    unfold Database.deleteTable
    split
    · exact Outcome.intact_error
    · exact Outcome.intact_ok
  replaceTable name t := by
    unfold Database.replaceTable
    split
    · exact Outcome.intact_error
    split
    · exact Outcome.intact_error
    · exact Outcome.intact_ok

end Database

/-- What fails leaves everything as it was, in every table that can be reached and in every
database. -/
theorem intact_of_error :
    (∀ t : Table, t.Reachable → t.FailsIntact) ∧ ∀ db : Database, db.FailsIntact :=
  ⟨fun _ ht => ht.wellFormed.failsIntact, Database.failsIntact⟩

/-- Neither a key in use nor one that was given out before moves the place where keys are
generated. -/
theorem intact_of_error_takenKeys :
    let t := Table.notes.run Table.editNotes
    let tea : Row := ⟨Table.notes.columns, [.null, .text "tea"], rfl⟩
    t.Reachable ∧
      (t.insertRow tea (some (.int 1))).1 = .error (.duplicateKey "notes" (.integer 1)) ∧
      (t.insertRow tea (some (.int 1))).2 = t ∧
      (t.updateRow (.int 2) [("text", .text "tea"), ("rowid", .int 9)]).1 =
        .error (.fixedKey "rowid" "notes") ∧
      (t.updateRow (.int 2) [("text", .text "tea"), ("rowid", .int 9)]).2 = t := by
  intro t tea
  have ht : t.Reachable := (Table.Reachable.built Table.notes_built).run Table.editNotes
  have hf := intact_of_error.1 t ht
  have hinsert : (t.insertRow tea (some (.int 1))).1 =
      .error (.duplicateKey "notes" (.integer 1)) := by decide
  have hupdate : (t.updateRow (.int 2) [("text", .text "tea"), ("rowid", .int 9)]).1 =
      .error (.fixedKey "rowid" "notes") := by decide
  exact ⟨ht, hinsert, hf.insertRow _ _ _ hinsert, hupdate, hf.updateRow _ _ _ hupdate⟩

end Tabular
