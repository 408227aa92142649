import Tabular.Proofs.Null
import Tabular.Proofs.Row
import Tabular.Proofs.Table.Listing
import Tabular.Proofs.Table.Rows

/-!
What rows hold. Rows come about by being built from data or by being taken from tables, never cell
by cell, and then every cell is what its column stores of some raw value. An insertion takes rows of
any schema that has interchangeable columns, so it matters that such columns store the same.
-/
namespace Tabular

namespace Column

/-- A value that the column stores of some raw value. -/
def Holds (c : Column) (v : Value) : Prop := ∃ raw, c.store raw = .ok v

theorem store_congr {c d : Column} (h : c.equals d = true) {raw : Raw} {v : Value} :
    c.store raw = .ok v ↔ d.store raw = .ok v := by
  simp only [equals, Bool.and_eq_true, beq_iff_eq] at h
  unfold store
  rw [h.1.1.1.2, h.1.1.2]
  split
  · rfl
  split
  · split <;> simp
  · rfl

theorem holds_congr {c d : Column} (h : c.equals d = true) {v : Value} :
    c.Holds v ↔ d.Holds v :=
  exists_congr fun _ => store_congr h

theorem name_of_equals {c d : Column} (h : c.equals d = true) : c.name = d.name := by
  simp only [equals, Bool.and_eq_true, beq_iff_eq] at h
  exact h.1.1.1.1

theorem forall₂_of_equalLists {cs ds : List Column} (h : equalLists cs ds = true) :
    List.Forall₂ (fun c d => c.equals d = true) cs ds := by
  induction cs, ds using equalLists.induct with
  | case1 => exact .nil
  | case2 c cs d ds ih =>
    simp only [equalLists, Bool.and_eq_true] at h
    exact .cons h.1 (ih h.2)
  | case3 cs ds hnil hcons => simp [equalLists] at h

theorem exists_of_mem_of_equalLists {cs ds : List Column} (h : equalLists cs ds = true)
    {c : Column} (hc : c ∈ cs) : ∃ d ∈ ds, c.equals d = true := by
  obtain ⟨i, hi, rfl⟩ := List.mem_iff_getElem.1 hc
  have hall := forall₂_of_equalLists h
  have hi' : i < ds.length := hall.length_eq ▸ hi
  exact ⟨ds[i], List.getElem_mem hi', hall.get hi hi'⟩

theorem exists_of_mem_right_of_equalLists {cs ds : List Column} (h : equalLists cs ds = true)
    {d : Column} (hd : d ∈ ds) : ∃ c ∈ cs, c.equals d = true := by
  obtain ⟨i, hi, rfl⟩ := List.mem_iff_getElem.1 hd
  have hall := forall₂_of_equalLists h
  have hi' : i < cs.length := hall.length_eq ▸ hi
  exact ⟨cs[i], List.getElem_mem hi', hall.get hi' hi⟩

theorem Holds.eq_null_or_coerce {c : Column} {v : Value} (held : c.Holds v)
    (lax : c.strict = false) : v = .null ∨ ∃ raw, c.affinity.coerce raw = .ok v := by
  obtain ⟨raw, h⟩ := held
  unfold store at h
  split at h
  · exact .inl (Except.ok.inj h).symm
  · exact .inr ⟨raw, by simpa [lax] using h⟩

end Column

def Row.Conforms (r : Row) : Prop := List.Forall₂ Column.Holds r.columns r.cells

theorem forall₂_set {α β : Type} {R : α → β → Prop} {as : List α} {bs : List β}
    (h : List.Forall₂ R as bs) {i : Nat} {b : β} (hb : ∀ a, as[i]? = some a → R a b) :
    List.Forall₂ R as (bs.set i b) := by
  induction h generalizing i with
  | nil => exact .nil
  | cons hab hrest ih =>
    cases i with
    | zero => exact .cons (hb _ rfl) hrest
    | succ i => exact .cons hab (ih fun a ha => hb a (by simpa using ha))

namespace Row

theorem conforms_of_build {columns : List Column} {data : List (String × Raw)}
    {key : Option String} {r : Row} (h : build columns data key = .ok r) : r.Conforms := by
  unfold build at h
  split at h
  · cases h
  split at h
  · rename_i cells hcells
    cases h
    refine (forall₂_of_resolveCells hcells).imp ?_
    rintro c v ⟨raw, -, hv⟩
    exact ⟨c.fill raw, (Column.resolve_eq_ok_iff.1 hv).2⟩
  · cases h

theorem Conforms.set {r s : Row} (h : r.Conforms) {column : String} {v : Value}
    (hs : r.set column v = .ok s) (hv : ∀ c ∈ r.columns, c.name = column → c.Holds v) :
    s.Conforms := by
  obtain ⟨i, hi, hcolumns, hcells⟩ := set_eq_ok_iff.1 hs
  rw [Conforms, hcolumns, hcells]
  refine forall₂_set h fun c hc => ?_
  obtain ⟨hlt, hname, -⟩ := List.findIdx?_eq_some_iff_getElem.1 hi
  obtain ⟨-, rfl⟩ := List.getElem?_eq_some_iff.1 hc
  exact hv _ (List.getElem_mem hlt) (beq_iff_eq.1 hname)

theorem Conforms.setAll {r s : Row} (h : r.Conforms) {changes : List (String × Value)}
    (hs : r.setAll changes = .ok s)
    (hv : ∀ change ∈ changes, ∀ c ∈ r.columns, c.name = change.1 → c.Holds change.2) :
    s.Conforms := by
  induction changes generalizing r with
  | nil =>
    cases hs
    exact h
  | cons change changes ih =>
    obtain ⟨r', hr, hs⟩ := setAll_cons_eq_ok_iff.1 hs
    obtain ⟨hfirst, hrest⟩ := List.forall_mem_cons.1 hv
    refine ih (h.set hr hfirst) hs ?_
    rwa [columns_of_set hr]

end Row

def Table.Operation.rows : Operation → List Row
  | .insertRow row _ => [row]
  | .insertRows rows => rows
  | _ => []

mutual

/-- Rows as they come about: built from data, or taken from a table. -/
inductive Row.Made : Row → Prop
  | build {columns : List Column} {data : List (String × Raw)} {key : Option String} {r : Row}
      (h : Row.build columns data key = .ok r) : Row.Made r
  | taken {t : Table} {k : Value} {r : Row} (ht : Table.Made t) (h : (k, r) ∈ t.toList) :
      Row.Made r

/-- Tables into which no other rows are inserted. -/
inductive Table.Made : Table → Prop
  | create {name : String} {columns : List Column} {key : Option String} {settings : Settings}
      {t : Table} (h : Table.create name columns key settings = .ok t) : Table.Made t
  | ofRows {name : String} {columns : List Column} {key : Option String} {rows : List Row}
      {t : Table} (h : Table.ofRows name columns key rows = .ok t)
      (hrows : ∀ row ∈ rows, Row.Made row) : Table.Made t
  | after {t : Table} (ht : Table.Made t) (op : Table.Operation)
      (hrows : ∀ row ∈ op.rows, Row.Made row) : Table.Made (t.after op)

end

namespace Table

theorem Made.reachable : ∀ {t : Table}, t.Made → t.Reachable
  | _, .create h => .built (.create h)
  | _, .ofRows h _ => .built (.ofRows h)
  | _, .after ht op _ => .after ht.reachable op

theorem Made.run {t : Table} (ht : t.Made) {ops : List Operation}
    (hrows : ∀ op ∈ ops, ∀ row ∈ op.rows, Row.Made row) : (t.run ops).Made := by
  induction ops generalizing t with
  | nil => exact ht
  | cons op ops ih =>
    obtain ⟨hop, hrest⟩ := List.forall_mem_cons.1 hrows
    exact ih (ht.after op hop) hrest

/-- Every cell of every row is what the column of the row stores. -/
def Conforms (t : Table) : Prop := ∀ e ∈ t.entries, e.row.Conforms

variable {t : Table}

theorem Settles.holds {row : Row} {key : Option Raw} {k : Value} {c : Int64}
    (h : t.Settles row key k c) : t.keyColumn.Holds k := by
  cases h with
  | @chosen raw _ _ stored _ => exact ⟨_, (Column.resolve_eq_ok_iff.1 stored).2⟩
  | @generated n _ generates _ =>
    have hinteger : t.keyColumn.affinity = .integer := by simpa [generatesKeys] using generates
    refine ⟨.int n, ?_⟩
    unfold Column.store
    rw [hinteger]
    cases t.keyColumn.strict <;> rfl

namespace WellFormed

theorem column?_eq_some_iff (h : t.WellFormed) {name : String} {c : Column} :
    t.column? name = some c ↔ c ∈ t.columns ∧ c.name = name := by
  unfold column?
  constructor
  · intro hc
    exact ⟨List.mem_of_find?_eq_some hc, by simpa using List.find?_some hc⟩
  · rintro ⟨hc, rfl⟩
    cases hfind : t.columns.find? (·.name == c.name) with
    | none => simpa using List.find?_eq_none.1 hfind c hc
    | some d =>
      have hd : d.name = c.name := by simpa using List.find?_some hfind
      rw [List.inj_on_of_nodup_map h.names_nodup (List.mem_of_find?_eq_some hfind) hc hd]

theorem holds_of_column? (h : t.WellFormed) {row : Row}
    (columns : Column.equalLists row.columns t.columns = true) {d : Column} {v : Value}
    (held : d.Holds v) (hd : t.column? d.name = some d) :
    ∀ c ∈ row.columns, c.name = d.name → c.Holds v := by
  intro c hc hname
  obtain ⟨d', hd', heq⟩ := Column.exists_of_mem_of_equalLists columns hc
  have hsame : t.column? d.name = some d' :=
    h.column?_eq_some_iff.2 ⟨hd', (Column.name_of_equals heq).symm.trans hname⟩
  obtain rfl : d = d' := Option.some.inj (hd.symm.trans hsame)
  exact (Column.holds_congr heq).2 held

end WellFormed

/-- Rows are the only way for cells into a table, beside updates and keys. -/
theorem conforms_rule :
    RowRule (fun _ row => row.Conforms) fun _ op => ∀ row ∈ op.rows, row.Conforms where
  row_congr _ _ _ := Iff.rfl
  brings_congr _ _ _ := Iff.rfl
  insertRow {t row r key k c} h _ settles columns set brings := by
    obtain ⟨hmem, hname⟩ := h.keyColumn_mem
    have hkey := h.column?_eq_some_iff.2 ⟨hmem, rfl⟩
    refine (brings row List.mem_cons_self).set set ?_
    rw [← hname]
    exact h.holds_of_column? columns settles.holds hkey
  insert {t data row} _ hrow _ := by
    intro row' hmem
    obtain rfl := List.mem_singleton.1 hmem
    exact Row.conforms_of_build hrow
  insertRows brings row hrow := by
    intro row' hmem
    obtain rfl := List.mem_singleton.1 hmem
    exact brings row' hrow
  updateRow {t e r key updates changes} h mem stored set held _ := by
    refine held.setAll set fun change hchange => ?_
    obtain ⟨u, -, hu⟩ := Except.exists_of_mem_mapM stored hchange
    obtain ⟨-, d, v, hd, hv, rfl⟩ := change_eq_ok_iff.1 hu
    obtain ⟨-, hname⟩ := h.column?_eq_some_iff.1 hd
    simp only [← hname] at hd ⊢
    exact h.holds_of_column? (h.columns e mem) ⟨_, hv⟩ hd

theorem WellFormed.holds_of_get? (h : t.WellFormed) (held : t.Conforms) {e : Entry}
    (he : e ∈ t.entries) {c : Column} (hc : c ∈ t.columns) {v : Value}
    (hv : e.row.get? c.name = some v) : c.Holds v := by
  obtain ⟨i, hi, hcell⟩ := Option.bind_eq_some_iff.1 hv
  have hi' := hi
  rw [h.position?_eq he] at hi'
  obtain ⟨hlt, hname, -⟩ := List.findIdx?_eq_some_iff_getElem.1 hi'
  obtain rfl : t.columns[i] = c :=
    List.inj_on_of_nodup_map h.names_nodup (List.getElem_mem hlt) hc (beq_iff_eq.1 hname)
  have hequal := Column.forall₂_of_equalLists (h.columns e he)
  have hlt' : i < e.row.columns.length := hequal.length_eq ▸ hlt
  obtain ⟨hcells, rfl⟩ := List.getElem?_eq_some_iff.1 hcell
  exact (Column.holds_congr (hequal.get hlt' hlt)).1 ((held e he).get hlt' hcells)

theorem conforms_of_ofRows {name : String} {columns : List Column} {key : Option String}
    {rows : List Row} (h : ofRows name columns key rows = .ok t)
    (hrows : ∀ row ∈ rows, row.Conforms) : t.Conforms := by
  obtain ⟨t₀, h₀, rfl⟩ := ofRows_cases h
  have hbrings : ∀ row ∈ (Operation.insertRows rows).rows, row.Conforms := hrows
  exact conforms_rule.allRows_after (wellFormed_of_create h₀) (allRows_of_create h₀) hbrings

end Table

mutual

theorem Row.Made.conforms : ∀ {r : Row}, r.Made → r.Conforms
  | _, .build h => Row.conforms_of_build h
  | _, .taken ht h => by
    obtain ⟨e, he, -, rfl⟩ := Table.mem_toList_iff.1 h
    exact ht.conforms e he

theorem Table.Made.conforms : ∀ {t : Table}, t.Made → t.Conforms
  | _, .create h => by simp [Table.Conforms, Table.entries_of_create h]
  | _, .ofRows h hrows => Table.conforms_of_ofRows h fun row hrow => (hrows row hrow).conforms
  | _, .after ht _ hrows =>
    Table.conforms_rule.allRows_after ht.reachable.wellFormed ht.conforms fun row hrow =>
      (hrows row hrow).conforms

end

end Tabular
