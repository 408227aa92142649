import Tabular.Proofs.Table.Chosen
import Tabular.Proofs.Table.NotNull

/-!
Rows under NULL. Data without a key is refused or gets a generated one, and what stands for NULL in
it is taken for no key. Only a key that is given apart comes to be NULL: it is not checked any more
after it was stored.
-/
namespace Tabular.Table

variable {t s : Table} {columns : List Column} {key : Option String} {settings : Settings}

def Keyed (t : Table) (row : Row) : Prop := row.get? t.keyName ≠ some .null

/-- An operation by which no key that is chosen becomes NULL. -/
def KeepsKeys (t : Table) : Operation → Prop
  | .insertRow row key => (t.chosenKey? row key).any t.keyColumn.erases = false
  | .insertRows rows => ∀ row ∈ rows, (t.chosenKey? row none).any t.keyColumn.erases = false
  | .insert _ | .updateRow _ _ | .deleteRow _ | .rename _ | .issueKey => True

instance (t : Table) : (op : Operation) → Decidable (t.KeepsKeys op)
  | .insertRow row key =>
    inferInstanceAs (Decidable ((t.chosenKey? row key).any t.keyColumn.erases = false))
  | .insertRows rows => inferInstanceAs
    (Decidable (∀ row ∈ rows, (t.chosenKey? row none).any t.keyColumn.erases = false))
  | .insert _ | .updateRow _ _ | .deleteRow _ | .rename _ | .issueKey =>
    inferInstanceAs (Decidable True)

theorem keepsKeys_congr (columns : s.columns = t.columns) (keyName : s.keyName = t.keyName)
    (op : Operation) : s.KeepsKeys op ↔ t.KeepsKeys op := by
  have hkey : s.keyColumn = t.keyColumn := by simp [keyColumn, column?, columns, keyName]
  cases op <;> simp [KeepsKeys, chosenKey?, keyName, hkey]

theorem keyed_rule : RowRule Keyed KeepsKeys where
  row_congr _ keyName _ := by simp [Keyed, keyName]
  brings_congr := keepsKeys_congr
  insertRow _ present settles _ set keeps := by
    rw [Keyed, Row.get?_of_set set, ne_eq, Option.some.injEq, settles.eq_null_iff present]
    exact ne_true_of_eq_false keeps
  insert h hrow _ := h.erases_chosenKey?_of_row hrow
  insertRows keeps := keeps
  updateRow _ _ changes set keyed _ := by
    rwa [Keyed, get?_keyName_of_changes changes set]

theorem WellFormed.null_notMem_keys_iff (h : t.WellFormed) :
    .null ∉ t.keys ↔ t.AllRows Keyed := by
  rw [keys_eq, AllRows, List.forall_mem_ne'.symm.trans List.forall_mem_map]
  refine forall₂_congr fun e he => ?_
  rw [Keyed, h.key_cell e he]
  simp

/-- No row is under NULL as long as no chosen key becomes NULL. -/
theorem null_notMem_keys_run {name : String} (h : create name columns key settings = .ok t)
    {ops : List Operation} (keeps : ∀ op ∈ ops, t.KeepsKeys op) : .null ∉ (t.run ops).keys := by
  have ht := wellFormed_of_create h
  exact (ht.run ops).null_notMem_keys_iff.2
    (keyed_rule.allRows_run ht (allRows_of_create h) keeps)

end Tabular.Table
