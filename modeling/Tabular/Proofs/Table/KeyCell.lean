import Tabular.Proofs.Failure
import Tabular.Proofs.Table.Classes
import Tabular.Proofs.Table.Generated

/-!
Keys that are given apart from the data of a row, and keys that are cells of it. The first are
stored once. The second are stored when the row is built, and once more when it is inserted, so what
was stored as NULL is no key any more, and what a tag diverted is not taken again. On the other hand
data without a key cannot be made into a row if the default of the key column cannot be stored.
-/
namespace Tabular

/-- Both operations fail, or both succeed with one answer and leave one state. -/
def Outcome.Agree {σ α : Type} (o o' : Outcome σ α) : Prop :=
  (∃ a s, o = (.ok a, s) ∧ o' = (.ok a, s)) ∨ (∃ e, o.1 = .error e) ∧ ∃ e, o'.1 = .error e

theorem Outcome.agree_iff {σ α : Type} {o o' : Outcome σ α} :
    o.Agree o' ↔ ((∃ a, o.1 = .ok a) → o = o') ∧ ((∃ a, o'.1 = .ok a) → o = o') := by
  obtain ⟨e | a, s⟩ := o <;> obtain ⟨e' | a', s'⟩ := o' <;> simp [Agree, eq_comm]

theorem Outcome.Agree.symm {σ α : Type} {o o' : Outcome σ α} (h : o.Agree o') : o'.Agree o := by
  rcases h with ⟨a, s, h, h'⟩ | ⟨h, h'⟩
  · exact .inl ⟨a, s, h', h⟩
  · exact .inr ⟨h', h⟩

theorem Outcome.not_agree_of_ok {σ α : Type} {o o' : Outcome σ α} {a : α} {e : Error}
    (ok : o.1 = .ok a) (error : o'.1 = .error e) : ¬ o.Agree o' := by
  intro h
  cases (((agree_iff.1 h).1 ⟨a, ok⟩) ▸ ok).symm.trans error

theorem Column.affinity_ne_integer {c : Column} {raw : Raw} (present : raw.isNull = false)
    (h : c.store raw = .ok .null) : c.affinity ≠ .integer := by
  intro integer
  cases strict : c.strict with
  | false =>
    rw [store_lax strict present, integer] at h
    exact StorageClass.coerce_ne_null (by decide) raw h
  | true =>
    have haccepts := ((store_strict_eq_ok_iff strict present).1 h).1
    have herases : c.erases raw = true := by
      simpa [present] using (store_eq_null_iff h).1 rfl
    have hspells : raw.spellsNull = true := by
      simpa [erases] using (Bool.and_eq_true_iff.1 herases).2
    rw [integer] at haccepts
    unfold Raw.spellsNull at hspells
    unfold Affinity.accepts at haccepts
    cases hu : raw.untagged <;> simp_all

namespace Table

/-- Builds a row from data and inserts it under a key that is given apart. -/
def insertUnder (t : Table) (data : List (String × Raw)) (key : Raw) : Outcome Table Value :=
  match t.row data with
  | .error e => (.error e, t)
  | .ok row => t.insertRow row (some key)

/-- A row of the table with what all columns but the key make of the data. -/
structure Carries (t : Table) (data : List (String × Raw)) (r : Row) : Prop where
  known : ∀ x ∈ data, x.1 ∈ t.columns.map (·.name)
  columns : r.columns = t.columns
  cells : ∀ c ∈ t.columns, c.name ≠ t.keyName → ∃ v,
    c.resolve ((Row.cell? c.name data).getD .null) c.autoincrement = .ok v ∧
      r.get? c.name = some v

variable {t : Table} {data : List (String × Raw)} {raw : Raw} {r s : Row} {k : Value}

namespace WellFormed

theorem row_eq_ok_iff (h : t.WellFormed) : t.row data = .ok r ↔
    (∀ x ∈ data, x.1 ∈ t.columns.map (·.name)) ∧ r.columns = t.columns ∧
      ∀ c ∈ t.columns, ∃ v, c.resolve ((Row.cell? c.name data).getD .null)
        (c.autoincrement || some t.keyName == some c.name) = .ok v ∧ r.get? c.name = some v := by
  unfold row
  rw [Row.build_eq_ok_iff h.names_nodup, known_missing_iff]
  refine and_congr_right fun _ => and_congr_right fun _ => forall₂_congr fun c hc => ?_
  rw [cell?_of_missing hc]
  simp

theorem row_eq_ok_iff_carries (h : t.WellFormed) : t.row data = .ok r ↔
    t.Carries data r ∧ ∃ v,
      t.keyColumn.resolve ((Row.cell? t.keyName data).getD .null) true = .ok v ∧
        r.get? t.keyName = some v := by
  obtain ⟨hmem, hname⟩ := h.keyColumn_mem
  rw [h.row_eq_ok_iff]
  constructor
  · rintro ⟨known, columns, cells⟩
    refine ⟨⟨known, columns, fun c hc hne => ?_⟩, ?_⟩
    · simpa [beq_false_of_ne (Ne.symm hne)] using cells c hc
    · simpa [hname] using cells _ hmem
  · rintro ⟨carries, hkey⟩
    refine ⟨carries.known, carries.columns, fun c hc => ?_⟩
    by_cases hne : c.name = t.keyName
    · obtain rfl := h.eq_keyColumn hc hne
      simpa [hname] using hkey
    · simpa [beq_false_of_ne (Ne.symm hne)] using carries.cells c hc hne

theorem row_absent_eq_ok_iff (h : t.WellFormed) (absent : ∀ x ∈ data, x.1 ≠ t.keyName) :
    t.row data = .ok r ↔ t.Carries data r ∧ ∃ v,
      t.keyColumn.resolve .null true = .ok v ∧ r.get? t.keyName = some v := by
  have hcell : Row.cell? t.keyName data = none := by
    simpa [Row.cell?_eq_none_iff] using absent
  rw [h.row_eq_ok_iff_carries, hcell, Option.getD_none]

theorem carries_append_iff (h : t.WellFormed) :
    t.Carries (data ++ [(t.keyName, raw)]) r ↔ t.Carries data r := by
  have hcell : ∀ {name}, name ≠ t.keyName →
      Row.cell? name (data ++ [(t.keyName, raw)]) = Row.cell? name data := by
    intro name hne
    have hone : Row.cell? name [(t.keyName, raw)] = none := by simp [Row.cell?, hne]
    rw [Row.cell?_append, hone, Option.none_or]
  constructor
  · rintro ⟨known, columns, cells⟩
    refine ⟨fun x hx => known x (List.mem_append_left _ hx), columns, fun c hc hne => ?_⟩
    rw [← hcell hne]
    exact cells c hc hne
  · rintro ⟨known, columns, cells⟩
    refine ⟨fun x hx => ?_, columns, fun c hc hne => ?_⟩
    · rcases List.mem_append.1 hx with hx | hx
      · exact known x hx
      · rw [List.mem_singleton.1 hx]
        exact h.key_named
    · rw [hcell hne]
      exact cells c hc hne

theorem row_append_eq_ok_iff (h : t.WellFormed) (present : raw.isNull = false) :
    t.row (data ++ [(t.keyName, raw)]) = .ok r ↔
      t.Carries data r ∧ ∃ k, t.keyColumn.store raw = .ok k ∧ r.get? t.keyName = some k := by
  have hcell : Row.cell? t.keyName (data ++ [(t.keyName, raw)]) = some raw := by
    simp [Row.cell?]
  rw [h.row_eq_ok_iff_carries, h.carries_append_iff, hcell, Option.getD_some,
    Column.resolve_of_not_isNull present]

end WellFormed

theorem Carries.set (hr : t.Carries data r) (h : r.set t.keyName k = .ok s) :
    t.Carries data s where
  known := hr.known
  columns := (Row.columns_of_set h).trans hr.columns
  cells c hc hne := by
    rw [Row.get?_of_set_of_ne h hne]
    exact hr.cells c hc hne

theorem Carries.eq_of_key (h : t.WellFormed) (hr : t.Carries data r) (hs : t.Carries data s)
    (key : r.get? t.keyName = s.get? t.keyName) : r = s := by
  refine Row.eq_of_get? (hr.columns ▸ h.names_nodup) (hr.columns.trans hs.columns.symm) ?_
  intro c hc
  rw [hr.columns] at hc
  by_cases hne : c.name = t.keyName
  · rw [hne, key]
  · obtain ⟨v, hv, hget⟩ := hr.cells c hc hne
    obtain ⟨w, hw, hget'⟩ := hs.cells c hc hne
    obtain rfl := Except.ok.inj (hv.symm.trans hw)
    rw [hget, hget']

theorem chosenKey?_cell (hkey : r.get? t.keyName = some k) :
    t.chosenKey? r none = if k = .null then none else some k.toRaw := by
  simp [chosenKey?, hkey]

namespace WellFormed

theorem exists_set_of_carries (h : t.WellFormed) (hr : t.Carries data r) (k : Value) :
    ∃ s, r.set t.keyName k = .ok s ∧ t.Carries data s ∧ s.get? t.keyName = some k := by
  obtain ⟨s, hs⟩ := Row.exists_set_eq_ok (hr.columns ▸ h.key_named) k
  exact ⟨s, hs, hr.set hs, Row.get?_of_set hs⟩

/-- Two rows of the same data are inserted alike if the keys chosen for them are stored alike. -/
theorem insertRow_congr (h : t.WellFormed) (hr : t.Carries data r) (hs : t.Carries data s)
    {key key' : Option Raw} (present : key.any Raw.isNull = false)
    (present' : key'.any Raw.isNull = false)
    (settle : t.settleKey r key = t.settleKey s key') : t.insertRow r key = t.insertRow s key' := by
  have hset : ∀ k, r.set t.keyName k = s.set t.keyName k := by
    intro k
    obtain ⟨r', hr', hcr, hkr⟩ := h.exists_set_of_carries hr k
    obtain ⟨s', hs', hcs, hks⟩ := h.exists_set_of_carries hs k
    rw [hr', hs', hcr.eq_of_key h hcs (hkr.trans hks.symm)]
  simp only [insertRow, hr.columns, hs.columns, present, present', settle]
  rcases t.settleKey_cases s key' with ⟨e, he⟩ | ⟨k, c, -, hk⟩
  · simp only [he]
  · simp only [hk, hset]

variable (h : t.WellFormed) (present : raw.isNull = false)

include h present

theorem insertUnder_eq_ok (ok : (t.insertUnder data raw).1 = .ok k) :
    ∃ r, t.row data = .ok r ∧ t.keyColumn.store raw = .ok k ∧
      Column.equalLists t.columns t.columns = true := by
  unfold insertUnder at ok
  split at ok
  · cases ok
  rename_i r hrow
  rcases h.insertRow_cases r (some raw) with ⟨e, he⟩ | ⟨k', c, r', -, settles, fits, -, ho⟩
  · rw [he] at ok
    cases ok
  · rw [ho] at ok
    cases ok
    rw [(h.row_eq_ok_iff.1 hrow).2.1] at fits
    cases settles with
    | chosen chosen stored _ =>
      cases chosen
      rw [Column.resolve_of_not_isNull present] at stored
      exact ⟨r, hrow, stored, fits⟩
    | generated chosen _ _ => cases chosen

theorem insert_cell (hr : t.Carries data r) (stored : t.keyColumn.store raw = .ok k) :
    ∃ s, t.Carries data s ∧ s.get? t.keyName = some k ∧
      t.insert (data ++ [(t.keyName, raw)]) = t.insertRow s none := by
  obtain ⟨s, -, hs, hkey⟩ := h.exists_set_of_carries hr k
  have hrow := (h.row_append_eq_ok_iff present).2 ⟨hs, k, stored, hkey⟩
  exact ⟨s, hs, hkey, by simp [Table.insert, hrow]⟩

theorem insert_cell_eq_ok (ok : (t.insert (data ++ [(t.keyName, raw)])).1 = .ok k) :
    ∃ r k', t.Carries data r ∧ t.keyColumn.store raw = .ok k' ∧ k' ≠ .null ∧
      t.keyColumn.store k'.toRaw = .ok k := by
  rcases t.insert_cases (data ++ [(t.keyName, raw)]) with ⟨e, -, ho⟩ | ⟨r, hrow, ho⟩ <;>
    rw [ho] at ok
  · cases ok
  obtain ⟨hr, k', stored, hkey⟩ := (h.row_append_eq_ok_iff present).1 hrow
  have hchosen := chosenKey?_cell hkey
  rcases h.insertRow_cases r none with ⟨e, he⟩ | ⟨k₂, c, r', -, settles, -, -, ho'⟩
  · rw [he] at ok
    cases ok
  · rw [ho'] at ok
    cases ok
    cases settles with
    | @chosen raw' _ chosen again _ =>
      rw [hchosen] at chosen
      split at chosen
      · cases chosen
      rename_i hk
      obtain rfl := Option.some.inj chosen
      rw [Column.resolve_of_not_isNull (Value.isNull_toRaw_of_ne hk)] at again
      exact ⟨r, k', hr, stored, hk, again⟩
    | generated chosen generates _ =>
      -- only integer keys are generated, and those are not stored as NULL
      have hnull : k' = .null := by
        rw [hchosen] at chosen
        split at chosen
        · assumption
        · cases chosen
      subst hnull
      exact absurd (of_decide_eq_true generates) (Column.affinity_ne_integer present stored)

/-- A key that is stored again as it is may as well be a cell. -/
theorem insert_cell_eq_insertUnder (hrow : t.row data = .ok r)
    (absent : ∀ x ∈ data, x.1 ≠ t.keyName) (stored : t.keyColumn.store raw = .ok k) (hk : k ≠ .null)
    (again : t.keyColumn.store k.toRaw = .ok k) :
    t.insert (data ++ [(t.keyName, raw)]) = t.insertUnder data raw := by
  have hr := ((h.row_absent_eq_ok_iff absent).1 hrow).1
  obtain ⟨s, hs, hkey, ho⟩ := h.insert_cell present hr stored
  have hagain := Value.isNull_toRaw_of_ne hk
  have hsettle : t.settleKey s none = t.settleKey r (some raw) := by
    simp only [settleKey, chosenKey?_cell hkey, if_neg hk, chosenKey?_some, acceptKey,
      Column.resolve_of_not_isNull present, Column.resolve_of_not_isNull hagain, stored, again]
  rw [ho, h.insertRow_congr hs hr rfl (by simpa using present) hsettle]
  simp [insertUnder, hrow]

theorem insert_cell_null (hr : t.Carries data r)
    (fits : Column.equalLists t.columns t.columns = true)
    (stored : t.keyColumn.store raw = .ok .null) :
    (t.insert (data ++ [(t.keyName, raw)])).1 = .error (.keyRequired t.keyName) := by
  obtain ⟨s, hs, hkey, ho⟩ := h.insert_cell present hr stored
  have hgenerates : t.generatesKeys = false :=
    decide_eq_false (Column.affinity_ne_integer present stored)
  rw [ho, h.insertRow_answer (hs.columns ▸ fits) rfl]
  simp [settleKey, chosenKey?_cell hkey, hgenerates]

theorem insert_cell_error (hr : t.Carries data r)
    (fits : Column.equalLists t.columns t.columns = true)
    (stored : t.keyColumn.store raw = .ok k) (hk : k ≠ .null) {e : Error}
    (again : t.keyColumn.store k.toRaw = .error e) :
    (t.insert (data ++ [(t.keyName, raw)])).1 = .error e := by
  obtain ⟨s, hs, hkey, ho⟩ := h.insert_cell present hr stored
  have hagain := Value.isNull_toRaw_of_ne hk
  rw [ho, h.insertRow_answer (hs.columns ▸ fits) rfl]
  simp only [settleKey, chosenKey?_cell hkey, if_neg hk, acceptKey,
    Column.resolve_of_not_isNull hagain, again]

/-- What is stored under a key that was given apart could be stored with the key as a cell, unless
the key was erased or diverted. -/
theorem insertUnder_eq_insert_cell_iff (absent : ∀ x ∈ data, x.1 ≠ t.keyName)
    (ok : (t.insertUnder data raw).1 = .ok k) :
    (t.insertUnder data raw = t.insert (data ++ [(t.keyName, raw)]) ↔
        t.keyColumn.erases raw = false ∧ t.keyColumn.diverts raw = false) ∧
      (t.keyColumn.erases raw = true → k = .null ∧
        (t.insert (data ++ [(t.keyName, raw)])).1 = .error (.keyRequired t.keyName)) ∧
      (t.keyColumn.diverts raw = true → ∃ e,
        (t.insert (data ++ [(t.keyName, raw)])).1 = .error e ∧ e.kind = .typeMismatch) := by
  obtain ⟨r, hrow, stored, fits⟩ := h.insertUnder_eq_ok present ok
  have hr := ((h.row_absent_eq_ok_iff absent).1 hrow).1
  have herased : t.keyColumn.erases raw = true → k = .null ∧
      (t.insert (data ++ [(t.keyName, raw)])).1 = .error (.keyRequired t.keyName) := by
    intro herases
    obtain rfl := (Column.store_eq_null_iff stored).2 (.inr herases)
    exact ⟨rfl, h.insert_cell_null present hr fits stored⟩
  have hdiverted : t.keyColumn.diverts raw = true → ∃ e,
      (t.insert (data ++ [(t.keyName, raw)])).1 = .error e ∧ e.kind = .typeMismatch := by
    intro hdiverts
    rcases Column.store_toRaw_cases stored with ⟨hstraight, -⟩ | ⟨-, hk, e, again⟩
    · cases hdiverts.symm.trans hstraight
    · exact ⟨e, h.insert_cell_error present hr fits stored hk again,
        Column.kind_of_store_error again⟩
  refine ⟨⟨fun same => ⟨?_, ?_⟩, fun ⟨herases, hdiverts⟩ => ?_⟩, herased, hdiverted⟩
  · refine eq_false_of_ne_true fun herases => ?_
    cases (same ▸ ok).symm.trans (herased herases).2
  · refine eq_false_of_ne_true fun hdiverts => ?_
    obtain ⟨e, he, -⟩ := hdiverted hdiverts
    cases (same ▸ ok).symm.trans he
  · have hk : k ≠ .null := by simp [Column.store_eq_null_iff stored, present, herases]
    rcases Column.store_toRaw_cases stored with ⟨-, again⟩ | ⟨hdiverts', -⟩
    · exact (h.insert_cell_eq_insertUnder present hrow absent stored hk again).symm
    · cases hdiverts.symm.trans hdiverts'

theorem insertUnder_eq_insert_cell_iff_resolve (absent : ∀ x ∈ data, x.1 ≠ t.keyName)
    (ok : (t.insert (data ++ [(t.keyName, raw)])).1 = .ok k) :
    t.insertUnder data raw = t.insert (data ++ [(t.keyName, raw)]) ↔
      ∃ v, t.keyColumn.resolve .null true = .ok v := by
  constructor
  · intro same
    obtain ⟨r, hrow, -⟩ := h.insertUnder_eq_ok present (same ▸ ok)
    obtain ⟨-, v, hv, -⟩ := (h.row_absent_eq_ok_iff absent).1 hrow
    exact ⟨v, hv⟩
  · rintro ⟨v, hv⟩
    obtain ⟨r, k', hr, stored, hk, again⟩ := h.insert_cell_eq_ok present ok
    obtain ⟨s, -, hs, hkey⟩ := h.exists_set_of_carries hr v
    have hrow := (h.row_absent_eq_ok_iff absent).2 ⟨hs, v, hv, hkey⟩
    rcases Column.store_toRaw_cases stored with ⟨-, again'⟩ | ⟨-, -, e, he⟩
    · exact (h.insert_cell_eq_insertUnder present hrow absent stored hk again').symm
    · cases again.symm.trans he

end WellFormed

/-- A key that is given apart from the data and the same key as a cell of it come to the same,
unless the column stores it as NULL or a tag diverts it, or the default that it replaces cannot be
stored. A row that is stored under NULL would have no key if the key were a cell, and a diverted key
would be of the wrong type. -/
theorem insertUnder_agree_iff (ht : t.Reachable) (absent : ∀ x ∈ data, x.1 ≠ t.keyName)
    (present : raw.isNull = false) :
    let apart := t.insertUnder data raw
    let cell := t.insert (data ++ [(t.keyName, raw)])
    (apart.Agree cell ↔
        ((∃ k, apart.1 = .ok k) →
            t.keyColumn.erases raw = false ∧ t.keyColumn.diverts raw = false) ∧
          ((∃ k, cell.1 = .ok k) → ∃ v, t.keyColumn.resolve .null true = .ok v)) ∧
      ∀ k, apart.1 = .ok k →
        (t.keyColumn.erases raw = true →
            k = .null ∧ cell.1 = .error (.keyRequired t.keyName)) ∧
          (t.keyColumn.diverts raw = true → ∃ e, cell.1 = .error e ∧ e.kind = .typeMismatch) := by
  intro apart cell
  have h := ht.wellFormed
  refine ⟨Outcome.agree_iff.trans (and_congr ?_ ?_), fun k ok => ?_⟩
  · exact forall_congr' fun ⟨k, ok⟩ => (h.insertUnder_eq_insert_cell_iff present absent ok).1
  · exact forall_congr' fun ⟨k, ok⟩ => h.insertUnder_eq_insert_cell_iff_resolve present absent ok
  · exact (h.insertUnder_eq_insert_cell_iff present absent ok).2

def ratings (rating : Column) : Table where
  name := "ratings"
  columns := [rating, { name := "note", affinity := .text, nullable := true }]
  keyName := rating.name
  implicitKey := false
  settings := {}
  cursor := 1

def numericRating : Column := { name := "rating", affinity := .numeric }

def strictRating : Column := { name := "rating", affinity := .integer, strict := true }

def gradedRating : Column :=
  { name := "rating", affinity := .integer, default := some (.text "low") }

theorem ratings_created :
    create "ratings" (ratings numericRating).columns (some "rating") {} =
      .ok (ratings numericRating) := by decide

/-- A new key, one that is in use, and one that is read as NULL. -/
theorem insertUnder_agree_iff_ratings :
    let t := (ratings numericRating).run [.insert [("rating", .text "4"), ("note", .text "tea")]]
    let data : List (String × Raw) := [("note", .text "milk")]
    let agree : Raw → Prop := fun raw =>
      (t.insertUnder data raw).Agree (t.insert (data ++ [("rating", raw)]))
    agree (.text " 3 ") ∧ agree (.tagged .text (.int 4)) ∧
      (t.insertUnder data (.tagged .text (.int 4))).1 =
        .error (.duplicateKey "ratings" (.integer 4)) ∧
      ¬ agree (.text "None") ∧
      (t.insert (data ++ [("rating", .text "None")])).1 = .error (.keyRequired "rating") := by
  intro t data agree
  have ht : t.Reachable := (Reachable.built (.create ratings_created)).run _
  have hiff := fun raw => @insertUnder_agree_iff t data raw ht (by decide)
  have hnone : (t.insertUnder data (.text "None")).1 = .ok .null := by decide
  refine ⟨?_, ?_, by decide, ?_, ?_⟩
  · exact (hiff (.text " 3 ") rfl).1.2 ⟨fun _ => by decide, fun _ => ⟨.null, by decide⟩⟩
  · exact (hiff (.tagged .text (.int 4)) rfl).1.2 ⟨fun _ => by decide, fun _ => ⟨.null, by decide⟩⟩
  · intro h
    exact absurd (((hiff (.text "None") rfl).1.1 h).1 ⟨_, hnone⟩).1 (by decide)
  · exact (((hiff (.text "None") rfl).2 _ hnone).1 (by decide)).2

/-- Text that is read as NULL and an integer with the tag of a real number are keys only apart from
the data, and where the default is not stored a key is only taken as a cell. -/
theorem not_insertUnder_agree :
    ((ratings numericRating).Built ∧
        ¬ ((ratings numericRating).insertUnder [] (.text "none")).Agree
          ((ratings numericRating).insert [("rating", .text "none")])) ∧
      ((ratings strictRating).Built ∧
        ¬ ((ratings strictRating).insertUnder [] (.tagged .real (.int 5))).Agree
          ((ratings strictRating).insert [("rating", .tagged .real (.int 5))])) ∧
      (ratings gradedRating).Built ∧
        ¬ ((ratings gradedRating).insertUnder [] (.int 5)).Agree
          ((ratings gradedRating).insert [("rating", .int 5)]) := by
  have hstrict : create "ratings" (ratings strictRating).columns (some "rating") {} =
      .ok (ratings strictRating) := by decide
  have hgraded : create "ratings" (ratings gradedRating).columns (some "rating") {} =
      .ok (ratings gradedRating) := by decide
  have hnone : ((ratings numericRating).insertUnder [] (.text "none")).1 = .ok .null ∧
      ((ratings numericRating).insert [("rating", .text "none")]).1 =
        .error (.keyRequired "rating") := by decide
  have hreal : ((ratings strictRating).insertUnder [] (.tagged .real (.int 5))).1 =
      .ok (.real (Binary64.ofInt 5)) ∧
        ((ratings strictRating).insert [("rating", .tagged .real (.int 5))]).1 =
          .error (.strictColumn "rating" .integer (.real (Binary64.ofInt 5))) := by decide
  have hdefault : ((ratings gradedRating).insertUnder [] (.int 5)).1 =
      .error (.notStorable (.text "low") .integer) ∧
        ((ratings gradedRating).insert [("rating", .int 5)]).1 = .ok (.integer 5) := by decide
  exact ⟨⟨.create ratings_created, Outcome.not_agree_of_ok hnone.1 hnone.2⟩,
    ⟨.create hstrict, Outcome.not_agree_of_ok hreal.1 hreal.2⟩,
    .create hgraded, mt Outcome.Agree.symm (Outcome.not_agree_of_ok hdefault.2 hdefault.1)⟩

end Table

end Tabular
