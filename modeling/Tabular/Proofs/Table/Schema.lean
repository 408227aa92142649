import Tabular.Proofs.Classes
import Tabular.Proofs.Row
import Tabular.Table.Change
import Mathlib.Tactic.ByContra

/-!
Whether a table takes the rows that it builds. A row brings the columns of its table along, and an
insertion compares them with the columns that the table has. Defaults are compared as values, where
NaN differs from itself. So a table with such a default refuses every row, and any other table knows
its own rows.
-/
namespace Tabular

/-- The value is NaN, below any tags. -/
def Raw.isNaN (v : Raw) : Bool :=
  match v.untagged with
  | .real x => x.isNaN
  | _ => false

@[simp] theorem Raw.isNaN_tagged (a : Affinity) (v : Raw) : (tagged a v).isNaN = v.isNaN := rfl

theorem Raw.equals_self (v : Raw) : v.equals v = !v.isNaN := by
  induction v with
  | tagged a v ih => simpa [equals] using ih
  | real x => exact Binary64.sameNumber_self
  | _ => simp [equals, isNaN, untagged]

theorem Raw.isNaN_of_equals {v w : Raw} (h : v.equals w = true) : w.isNaN = false := by
  fun_induction Raw.equals v w with
  | case7 a v b w ih => exact ih (Bool.and_eq_true_iff.1 h).2
  | case4 x y =>
    simp only [Binary64.sameNumber, Bool.and_eq_true, Bool.not_eq_true'] at h
    exact h.1.2
  | case9 => cases h
  | _ => rfl

namespace Column

def defaultsToNaN (c : Column) : Bool := c.default.any Raw.isNaN

theorem equals_self (c : Column) : c.equals c = !c.defaultsToNaN := by
  cases hdefault : c.default <;> simp [equals, defaultsToNaN, hdefault, equalDefaults,
    Raw.equals_self]

theorem isNaN_of_equalDefaults {v w : Option Raw} (h : equalDefaults v w = true) :
    w.any Raw.isNaN = false := by
  cases w with
  | none => rfl
  | some w =>
    cases v with
    | none => cases h
    | some v => exact Raw.isNaN_of_equals h

theorem equalLists_self (cs : List Column) : equalLists cs cs = !cs.any defaultsToNaN := by
  induction cs with
  | nil => rfl
  | cons c cs ih => simp [equalLists, equals_self, ih]

theorem defaultsToNaN_of_equalLists {cs ds : List Column} (h : equalLists cs ds = true) :
    ∀ d ∈ ds, d.defaultsToNaN = false := by
  fun_induction equalLists cs ds with
  | case1 => exact List.forall_mem_nil _
  | case2 c cs d ds ih =>
    obtain ⟨hfirst, hrest⟩ := Bool.and_eq_true_iff.1 h
    simp only [equals, Bool.and_eq_true] at hfirst
    exact List.forall_mem_cons.2 ⟨isNaN_of_equalDefaults hfirst.1.2, ih hrest⟩
  | case3 => cases h

theorem kind_of_resolve_error {c : Column} {raw : Raw} {deferred : Bool} {e : Error}
    (h : c.resolve raw deferred = .error e) : e.kind ≠ .schemaMismatch := by
  unfold resolve at h
  dsimp only at h
  split at h
  · cases h
    nofun
  · rw [kind_of_store_error h]
    nofun

end Column

namespace Table

variable {t : Table} {key : Option Raw} {row : Row}

theorem kind_of_settleKey_error {e : Error} (h : (t.settleKey row key).1 = .error e) :
    e.kind ≠ .schemaMismatch := by
  unfold settleKey at h
  split at h
  · unfold acceptKey at h
    split at h
    · rename_i hresolve
      cases h
      exact Column.kind_of_resolve_error hresolve
    split at h <;> cases h
    nofun
  split at h
  · unfold issueKey at h
    split at h <;> cases h
    nofun
  · cases h
    nofun

theorem kind_of_insertRow_error (hcolumns : Column.equalLists row.columns t.columns = true)
    {e : Error} (h : (t.insertRow row key).1 = .error e) : e.kind ≠ .schemaMismatch := by
  simp only [insertRow, hcolumns, Bool.not_true, Bool.false_eq_true, if_false] at h
  split at h
  · cases h
    nofun
  split at h
  · rename_i hsettle
    cases h
    exact kind_of_settleKey_error (congrArg Prod.fst hsettle)
  split at h
  · rename_i hset
    cases h
    unfold Row.set at hset
    split at hset <;> cases hset
    nofun
  · cases h

/-- A default that is NaN makes a table refuse every row. -/
theorem insertRow_of_defaultsToNaN (h : ∃ c ∈ t.columns, c.defaultsToNaN = true) (row : Row)
    (key : Option Raw) : t.insertRow row key = (.error (.foreignRow t.name), t) := by
  have hcolumns : Column.equalLists row.columns t.columns = false := by
    refine eq_false_of_ne_true fun hequal => ?_
    obtain ⟨c, hc, hnan⟩ := h
    rw [Column.defaultsToNaN_of_equalLists hequal c hc] at hnan
    cases hnan
  simp [insertRow, hcolumns]

/-- A row of the table meets another schema there exactly if some column of the table has NaN for
its default. Then every row does. -/
theorem insertRow_own_iff {data : List (String × Raw)} (h : t.row data = .ok row)
    (key : Option Raw) :
    ((∃ e, (t.insertRow row key).1 = .error e ∧ e.kind = .schemaMismatch) ↔
      ∃ c ∈ t.columns, c.defaultsToNaN = true) ∧
    ((∃ c ∈ t.columns, c.defaultsToNaN = true) →
      ∀ other key, t.insertRow other key = (.error (.foreignRow t.name), t)) := by
  have hcolumns : row.columns = t.columns := Row.columns_of_build h
  refine ⟨⟨fun ⟨e, he, hkind⟩ => ?_, fun hnan => ?_⟩, insertRow_of_defaultsToNaN⟩
  · by_contra hnone
    have hequal : Column.equalLists row.columns t.columns = true := by
      rw [hcolumns, Column.equalLists_self, Bool.not_eq_true', List.any_eq_false]
      exact fun c hc hnan => hnone ⟨c, hc, hnan⟩
    exact kind_of_insertRow_error hequal he hkind
  · exact ⟨_, congrArg Prod.fst (insertRow_of_defaultsToNaN hnan row key), rfl⟩

def gauges : Table where
  name := "gauges"
  columns := [.generatedKey "rowid",
    { name := "level", affinity := .real, default := some (.real (.nan false)) }]
  keyName := "rowid"
  implicitKey := true
  settings := {}
  cursor := 1

def gauge : Row := ⟨gauges.columns, [.null, .real (.ofInt 5)], rfl⟩

theorem insertRow_own_iff_gauges :
    gauges.row [("level", .int 5)] = .ok gauge ∧ (∃ c ∈ gauges.columns, c.defaultsToNaN = true) ∧
      ∀ other key, gauges.insertRow other key = (.error (.foreignRow "gauges"), gauges) := by
  have hrow : gauges.row [("level", .int 5)] = .ok gauge := by decide
  have hnan : ∃ c ∈ gauges.columns, c.defaultsToNaN = true := by decide
  exact ⟨hrow, hnan, (insertRow_own_iff hrow none).2 hnan⟩

/-- A table that can be created does not take a row of its own, though the row is complete. -/
theorem not_insertRow_own :
    create "gauges" gauges.columns.tail none {} = .ok gauges ∧
      ¬ ∀ (data : List (String × Raw)) (row : Row) (key : Option Raw), gauges.row data = .ok row →
        ∀ e, (gauges.insertRow row key).1 = .error e → e.kind ≠ .schemaMismatch := by
  refine ⟨by decide, fun h => ?_⟩
  have hrefused : (gauges.insertRow gauge none).1 = .error (.foreignRow "gauges") := by decide
  exact h [("level", .int 5)] gauge none (by decide) _ hrefused rfl

end Table
end Tabular
