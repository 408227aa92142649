import Tabular.Database
import Tabular.Proofs.Table.Run

/-!
Which databases can be reached. A table that is handed out to be changed may come back as any table
that can be reached, also under another name of its own.
-/
namespace Tabular.Database

inductive Reachable : Database → Prop
  | empty (name : String) (settings : Settings) : Reachable { name, settings }
  | createTable {db : Database} (h : Reachable db) (name : String) (columns : List Column)
      (key : Option String) : Reachable (db.createTable name columns key).2
  | addTable {db : Database} (h : Reachable db) {t : Table} (ht : t.Reachable) :
      Reachable (db.addTable t).2
  | deleteTable {db : Database} (h : Reachable db) (name : String) :
      Reachable (db.deleteTable name).2
  | replaceTable {db : Database} (h : Reachable db) (name : String) {t : Table}
      (ht : t.Reachable) : Reachable (db.replaceTable name t).2
  | setTable {db : Database} (h : Reachable db) (name : String) {t : Table} (ht : t.Reachable) :
      Reachable (db.setTable name t)

theorem Reachable.ofTables {name : String} {tables : List Table} {db : Database}
    (h : ofTables name tables = .ok db) (reachable : ∀ t ∈ tables, t.Reachable) :
    db.Reachable := by
  unfold Database.ofTables at h
  generalize hstart : ({ name } : Database) = start at h
  have hs : start.Reachable := hstart ▸ .empty name {}
  clear hstart
  induction tables generalizing start with
  | nil => cases h; exact hs
  | cons t tables ih =>
    obtain ⟨next, hnext, hrest⟩ := Except.bind_eq_ok_iff.1 h
    refine ih (fun t' ht' => reachable t' (List.mem_cons_of_mem t ht')) next hrest ?_
    have hadd := hs.addTable (reachable t List.mem_cons_self)
    dsimp only at hnext
    split at hnext
    · cases hnext
    · rename_i heq
      cases hnext
      rwa [heq] at hadd

def TablesReachable (db : Database) : Prop := ∀ p ∈ db.tables, p.2.Reachable

namespace TablesReachable

variable {db : Database}

theorem addTable (h : db.TablesReachable) {t : Table} (ht : t.Reachable) :
    (db.addTable t).2.TablesReachable := by
  unfold Database.addTable
  split
  · exact h
  · intro p hp
    rcases List.mem_append.1 hp with hp | hp
    · exact h p hp
    · rw [List.mem_singleton.1 hp]
      exact ht

theorem setTable (h : db.TablesReachable) (name : String) {t : Table} (ht : t.Reachable) :
    (db.setTable name t).TablesReachable := by
  refine List.forall_mem_map.2 fun p hp => ?_
  by_cases hname : p.1 = name
  · simpa [hname] using ht
  · simpa [hname] using h p hp

theorem createTable (h : db.TablesReachable) (name : String) (columns : List Column)
    (key : Option String) : (db.createTable name columns key).2.TablesReachable := by
  unfold Database.createTable
  split
  · exact h
  split
  · exact h
  · rename_i t hcreate
    have hadd := h.addTable (.built (.create hcreate))
    split <;> rename_i heq <;> rwa [heq] at hadd

theorem deleteTable (h : db.TablesReachable) (name : String) :
    (db.deleteTable name).2.TablesReachable := by
  unfold Database.deleteTable
  split
  · exact h
  · exact fun p hp => h p (List.mem_filter.1 hp).1

theorem replaceTable (h : db.TablesReachable) (name : String) {t : Table} (ht : t.Reachable) :
    (db.replaceTable name t).2.TablesReachable := by
  unfold Database.replaceTable
  split
  · exact h
  split
  · exact h
  · exact h.setTable name ht

end TablesReachable

theorem Reachable.tablesReachable {db : Database} (h : db.Reachable) : db.TablesReachable := by
  induction h with
  | empty => exact fun p hp => nomatch hp
  | createTable _ name columns key ih => exact ih.createTable name columns key
  | addTable _ ht ih => exact ih.addTable ht
  | deleteTable _ name ih => exact ih.deleteTable name
  | replaceTable _ name ht ih => exact ih.replaceTable name ht
  | setTable _ name ht ih => exact ih.setTable name ht

theorem mem_tables_of_table {db : Database} {name : String} {t : Table}
    (h : db.table name = .ok t) : (name, t) ∈ db.tables := by
  unfold table at h
  split at h
  · rename_i heq
    cases h
    obtain ⟨before, behind, htables, -⟩ := List.lookup_eq_some_iff.1 heq
    simp [htables]
  · cases h

theorem Reachable.table {db : Database} (h : db.Reachable) {name : String} {t : Table}
    (ht : db.table name = .ok t) : t.Reachable :=
  h.tablesReachable _ (mem_tables_of_table ht)

end Tabular.Database
