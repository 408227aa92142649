import Tabular.Proofs.Binary64.Integer
import Tabular.Proofs.Literal
import Tabular.Proofs.Query.Membership
import Tabular.Proofs.Query.Order

/-!
Looking up a key and filtering by it. The lookup takes a raw key to the one stored key that it can
be, the filter compares each stored key with the literal. For keys of one class these are the same,
but for the real number `2 ^ 63`, to which the greatest integer keys are rounded when they are
compared with it.
-/
namespace Tabular

theorem StorageClass.coerce_of_store {raw : Raw} (untagged : raw.untagged = raw) {v : Value}
    (h : raw.store = .ok v) : v.storageClass.coerce raw = .ok v := by
  cases raw with
  | tagged a inner => exact absurd untagged (Raw.untagged_ne_tagged _ a inner)
  | _ =>
    cases h
    rfl

theorem Affinity.coerce_of_integer {a : Affinity} (integer : a = .integer) (raw : Raw) :
    a.coerce raw = StorageClass.integer.coerce raw := by rw [integer, coerce_integer]

theorem Affinity.coerce_of_text {a : Affinity} (text : a = .text) (raw : Raw) :
    a.coerce raw = StorageClass.text.coerce raw := by rw [text, coerce_text]

namespace Table

variable {t : Table} {c : StorageClass} {raw : Raw} {u : Value}

theorem Reachable.storageClass_key (h : t.Reachable) (lax : t.keyColumn.strict = false)
    (hc : ∀ raw, t.keyColumn.affinity.coerce raw = c.coerce raw) {e : Entry}
    (he : e ∈ t.entries) : e.key.storageClass = c := by
  have hkey := h.laxKeysCoerced lax e he
  rw [hc, StorageClass.coerce_eq_ok_iff] at hkey
  exact StorageClass.storageClass_of_form? hkey

theorem Reachable.find?_eq_slot? (h : t.Reachable) (lax : t.keyColumn.strict = false)
    (hc : ∀ raw, t.keyColumn.affinity.coerce raw = c.coerce raw) (untagged : raw.untagged = raw)
    (present : raw.isNull = false) (hu : (t.keyColumn.literal raw).store = .ok u) :
    t.find? raw = t.slot? u := by
  obtain ⟨w, hw⟩ := Raw.exists_store untagged
  cases hcoerce : t.keyColumn.affinity.coerce raw with
  | ok v =>
    obtain rfl : v = u :=
      Except.ok.inj ((Column.store_literal present hcoerce).symm.trans hu)
    have hnative : t.slot? w = none ∨ w = v := by
      refine or_iff_not_imp_left.2 fun hsome => ?_
      obtain ⟨slot, hslot⟩ := Option.ne_none_iff_exists'.1 hsome
      obtain ⟨e, he, rfl, -⟩ := h.wellFormed.slot?_iff_mem.1 hslot
      have hform := StorageClass.coerce_of_store untagged hw
      rw [h.storageClass_key lax hc he, ← hc, hcoerce] at hform
      exact (Except.ok.inj hform).symm
    rcases hnative with hnone | rfl
    · simp [find?, hcoerce, hw, hnone, Except.toOption]
    · simp [find?, hcoerce, hw, Except.toOption]
  | error err =>
    have hliteral : t.keyColumn.literal raw = raw := by simp [Column.literal, present, hcoerce]
    rw [hliteral, hw] at hu
    obtain rfl := Except.ok.inj hu
    simp [find?, hcoerce, hw, Except.toOption]

namespace WellFormed

theorem cell_keyName (h : t.WellFormed) {e : Entry} (he : e ∈ t.entries) :
    e.row.cell t.keyName = e.key := by
  rw [Row.cell, h.key_cell e he, Option.getD_some]

theorem filter_rows_by_key (h : t.WellFormed) (p : Value → Bool) :
    t.rows.filter (fun row => p (row.cell t.keyName)) =
      (t.entries.filter fun e => p e.key).map (·.row) := by
  rw [rows_eq, List.filter_map]
  refine congrArg _ (List.filter_congr fun e he => ?_)
  rw [Function.comp_apply, h.cell_keyName he]

theorem filter_entries_by_key (h : t.WellFormed) {e : Entry} (he : e ∈ t.entries) :
    t.entries.filter (fun e' => decide (e'.key = e.key)) = [e] := by
  obtain ⟨before, behind, hsplit, hother⟩ := h.exists_split he
  have hnone : ∀ es, es ⊆ before ++ behind →
      es.filter (fun e' => decide (e'.key = e.key)) = [] := by
    intro es hes
    refine List.filter_eq_nil_iff.2 fun e' he' hkey => ?_
    have hmem : e' ∈ t.entries := by
      rw [hsplit]
      exact List.mem_append.2 ((List.mem_append.1 (hes he')).imp_right (List.mem_cons_of_mem _))
    have hsame := h.eq_of_key_eq hmem he (of_decide_eq_true hkey)
    exact hother e' (hes he') (congrArg Entry.slot hsame)
  rw [hsplit, List.filter_append, List.filter_cons, hnone before (List.subset_append_left _ _),
    hnone behind (List.subset_append_right _ _)]
  simp

theorem toList_get? (h : t.WellFormed) (hf : t.find? raw = t.slot? u) :
    (t.get? raw).toList = (t.entries.filter fun e => decide (e.key = u)).map (·.row) := by
  cases hslot : t.slot? u with
  | some slot =>
    obtain ⟨e, he, rfl, rfl⟩ := h.slot?_iff_mem.1 hslot
    rw [h.get?_of_find? he (hf.trans hslot), h.filter_entries_by_key he]
    rfl
  | none =>
    have hnone : t.entries.filter (fun e => decide (e.key = u)) = [] := by
      refine List.filter_eq_nil_iff.2 fun e he hkey => ?_
      have hlive := h.slot?_of_mem he
      rw [of_decide_eq_true hkey, hslot] at hlive
      cases hlive
    simp [Table.get?, hf, hslot, hnone]

theorem filter_eq_get?_iff (h : t.WellFormed) (hf : t.find? raw = t.slot? u)
    (hkeys : ∀ e ∈ t.entries, e.key ≠ .null ∧ e.key.isNaN = false) :
    t.rows.filter (fun row => Cell.oneOf false [u] (row.cell t.keyName)) = (t.get? raw).toList ↔
      ∀ e ∈ t.entries, e.key.matches? u = true → e.key = u := by
  rw [h.filter_rows_by_key, h.toList_get? hf]
  constructor
  · intro heq e he hmatches
    have hmem : e.row ∈ (t.entries.filter fun e => Cell.oneOf false [u] e.key).map (·.row) := by
      refine List.mem_map.2 ⟨e, List.mem_filter.2 ⟨he, ?_⟩, rfl⟩
      exact Cell.oneOf_singleton.2 ⟨(hkeys e he).1, hmatches⟩
    rw [heq] at hmem
    obtain ⟨e', he', hrow⟩ := List.mem_map.1 hmem
    obtain ⟨hmem', hkey⟩ := List.mem_filter.1 he'
    rw [← h.cell_keyName he, ← hrow, h.cell_keyName hmem']
    exact of_decide_eq_true hkey
  · intro hsame
    refine congrArg _ (List.filter_congr fun e he => ?_)
    obtain ⟨hpresent, hnumber⟩ := hkeys e he
    rw [Bool.eq_iff_iff, Cell.oneOf_singleton, decide_eq_true_iff, and_iff_right hpresent]
    refine ⟨hsame e he, ?_⟩
    rintro rfl
    simp [Value.matches?_self, hnumber]

end WellFormed

end Table

theorem StorageClass.coerce_integer_real (x : Binary64) :
    StorageClass.integer.coerce (.real x) =
      match integral? x with
      | some n => .ok (.integer n)
      | none => .error (.notStorable (.real x) .integer) := by
  cases h : integral? x <;> simp [coerce, form?, Raw.untagged, h]

theorem Column.literal_of_integral? {c : Column} (integer : c.affinity = .integer) {x : Binary64}
    (hx : integral? x = none) : c.literal (.real x) = .real x := by
  simp [literal, integer, StorageClass.coerce_integer_real, hx, Raw.isNull, Raw.untagged]

theorem Column.integral?_of_literal {c : Column} (integer : c.affinity = .integer) {raw : Raw}
    (untagged : raw.untagged = raw) (present : raw.isNull = false) {x : Binary64}
    (hu : (c.literal raw).store = .ok (.real x)) : raw = .real x ∧ integral? x = none := by
  cases hcoerce : c.affinity.coerce raw with
  | ok v =>
    obtain rfl := Except.ok.inj ((store_literal present hcoerce).symm.trans hu)
    rw [Affinity.coerce_of_integer integer, StorageClass.coerce_eq_ok_iff] at hcoerce
    cases StorageClass.storageClass_of_form? hcoerce
  | error e =>
    have hliteral : c.literal raw = raw := by simp [literal, present, hcoerce]
    rw [hliteral] at hu
    have hraw : raw = .real x := by
      cases raw with
      | tagged a inner => exact absurd untagged (Raw.untagged_ne_tagged _ a inner)
      | real y =>
        cases hu
        rfl
      | _ => cases hu
    subst hraw
    rw [Affinity.coerce_of_integer integer, StorageClass.coerce_integer_real] at hcoerce
    split at hcoerce
    · cases hcoerce
    · rename_i hx
      exact ⟨rfl, hx⟩

theorem Binary64.eq_of_sameNumber_of_integral? {n : Int64} {x : Binary64}
    (hsame : (ofInt n.toInt).sameNumber x = true) (hx : integral? x = none) :
    2 ^ 63 - 512 ≤ n.toInt ∧ x = ofInt (2 ^ 63) := by
  have hn : integral? (ofInt n.toInt) = none := by rwa [integral?, toInt?_congr hsame]
  have hle := (integral?_ofInt_eq_none_iff n).1 hn
  rw [ofInt_of_le hle n.toInt_lt] at hsame
  refine ⟨hle, ?_⟩
  rcases eq_or_isZero_of_sameNumber hsame with heq | ⟨hzero, -⟩
  · exact heq.symm
  · exact absurd hzero (by decide)

/-- The real number `2 ^ 63`, where it is looked up as a key among integers that are rounded to
it. -/
def Table.Confuses (t : Table) (raw : Raw) : Prop :=
  t.keyColumn.affinity = .integer ∧ raw = .real (.ofInt (2 ^ 63)) ∧
    ∃ n : Int64, 2 ^ 63 - 512 ≤ n.toInt ∧ ∃ row, (.integer n, row) ∈ t.toList

namespace Table

variable {t : Table} {raw : Raw} {u : Value}

theorem Reachable.exists_integer_key (h : t.Reachable) (lax : t.keyColumn.strict = false)
    (integer : t.keyColumn.affinity = .integer) {e : Entry} (he : e ∈ t.entries) :
    ∃ n, e.key = .integer n :=
  Value.storageClass_eq_integer.1 (h.storageClass_key lax (Affinity.coerce_of_integer integer) he)

/-- The filter takes another key for the one looked up only in the one case. -/
theorem Reachable.confuses_iff_of_integer (h : t.Reachable) (lax : t.keyColumn.strict = false)
    (integer : t.keyColumn.affinity = .integer) (untagged : raw.untagged = raw)
    (present : raw.isNull = false) (hu : (t.keyColumn.literal raw).store = .ok u) :
    t.Confuses raw ↔ ∃ e ∈ t.entries, e.key.matches? u = true ∧ e.key ≠ u := by
  constructor
  · rintro ⟨-, rfl, n, hn, row, hrow⟩
    obtain ⟨e, he, hkey, -⟩ := mem_toList_iff.1 hrow
    have hword : integral? (.ofInt (2 ^ 63)) = none := by decide
    rw [Column.literal_of_integral? integer hword] at hu
    obtain rfl := Except.ok.inj hu
    refine ⟨e, he, ?_, by simp [hkey]⟩
    rw [hkey, Value.matches?, Binary64.ofInt_of_le hn n.toInt_lt]
    decide
  · rintro ⟨e, he, hmatches, hne⟩
    obtain ⟨n, hn⟩ := h.exists_integer_key lax integer he
    rw [hn] at hmatches hne
    cases u with
    | real x =>
      obtain ⟨rfl, hx⟩ := Column.integral?_of_literal integer untagged present hu
      obtain ⟨hle, rfl⟩ := Binary64.eq_of_sameNumber_of_integral? hmatches hx
      exact ⟨integer, rfl, n, hle, e.row, mem_toList_iff.2 ⟨e, he, hn, rfl⟩⟩
    | _ => simp_all [Value.matches?]

theorem Reachable.exists_text_key (h : t.Reachable) (lax : t.keyColumn.strict = false)
    (text : t.keyColumn.affinity = .text) {e : Entry} (he : e ∈ t.entries) :
    ∃ s, e.key = .text s :=
  Value.storageClass_eq_text.1 (h.storageClass_key lax (Affinity.coerce_of_text text) he)

theorem Reachable.eq_of_matches?_of_text (h : t.Reachable) (lax : t.keyColumn.strict = false)
    (text : t.keyColumn.affinity = .text) {e : Entry} (he : e ∈ t.entries)
    (hmatches : e.key.matches? u = true) : e.key = u := by
  obtain ⟨s, hs⟩ := h.exists_text_key lax text he
  rw [hs, Value.matches?_text] at hmatches
  rw [hs, beq_iff_eq.1 hmatches]

theorem Reachable.key_ne_null (h : t.Reachable) (lax : t.keyColumn.strict = false)
    (haffinity : t.keyColumn.affinity = .integer ∨ t.keyColumn.affinity = .text) {e : Entry}
    (he : e ∈ t.entries) : e.key ≠ .null ∧ e.key.isNaN = false := by
  rcases haffinity with integer | text
  · obtain ⟨n, hn⟩ := h.exists_integer_key lax integer he
    simp [hn, Value.isNaN]
  · obtain ⟨s, hs⟩ := h.exists_text_key lax text he
    simp [hs, Value.isNaN]

/-- A query for a key selects what the lookup of the key finds, unless integer keys are taken for
the real number to which they are rounded. -/
theorem Reachable.filter_eq_get?_iff (h : t.Reachable) (lax : t.keyColumn.strict = false)
    (haffinity : t.keyColumn.affinity = .integer ∨ t.keyColumn.affinity = .text)
    (untagged : raw.untagged = raw) (present : raw.isNull = false)
    (hu : (t.keyColumn.literal raw).store = .ok u) :
    t.rows.filter (fun row => Cell.oneOf false [u] (row.cell t.keyName)) = (t.get? raw).toList ↔
      ¬ t.Confuses raw := by
  have hkeys := fun e he => h.key_ne_null lax haffinity (e := e) he
  rcases haffinity with integer | text
  · have hf := h.find?_eq_slot? lax (Affinity.coerce_of_integer integer) untagged present hu
    rw [h.wellFormed.filter_eq_get?_iff hf hkeys,
      h.confuses_iff_of_integer lax integer untagged present hu]
    simp only [not_exists, not_and, not_not]
  · have hf := h.find?_eq_slot? lax (Affinity.coerce_of_text text) untagged present hu
    rw [h.wellFormed.filter_eq_get?_iff hf hkeys]
    refine iff_of_true (fun e he => h.eq_of_matches?_of_text lax text he) ?_
    rintro ⟨integer, -⟩
    rw [text] at integer
    cases integer

end Table

theorem Option.agree_iff_eq_toList {α : Type} {o : Option α} {as : List α} :
    ((∀ a, o = some a ↔ as = [a]) ∧ (o = none ↔ as = [])) ↔ as = o.toList := by
  cases o with
  | none =>
    constructor
    · exact fun h => h.2.1 rfl
    · rintro rfl
      simp
  | some a =>
    constructor
    · exact fun h => (h.1 a).1 rfl
    · rintro rfl
      simp

/-- Looking up a key in a lax column of integers or text and querying for it find the same, except
for the one number that is no word but has words rounded to it. -/
theorem Plan.whereIn_selects_get?_iff {t : Table} (h : t.Reachable)
    (lax : t.keyColumn.strict = false)
    (haffinity : t.keyColumn.affinity = .integer ∨ t.keyColumn.affinity = .text)
    (identifier : Token.isIdentifier t.keyName = true) {raw : Raw}
    (untagged : raw.untagged = raw) (present : raw.isNull = false) {db : Database} {name : String}
    (source : db.table name = .ok t) :
    ∃ p rows, whereIn name t.keyName raw = .ok p ∧ p.selected db = .ok rows ∧
      p.run db = .ok (.rows (t.declared.map (·.name)) (rows.map t.line)) ∧
      ((∀ row, t.get? raw = some row ↔ rows = [row]) ∧ (t.get? raw = none ↔ rows = []) ↔
        ¬ t.Confuses raw) := by
  obtain ⟨hmem, hname⟩ := h.wellFormed.keyColumn_mem
  obtain ⟨u, hu⟩ := t.keyColumn.exists_store_literal untagged
  obtain ⟨p, hp, hselected, hrun⟩ :=
    whereIn_selected h.wellFormed source hmem (hname.symm ▸ identifier) hu
  rw [hname] at hp hselected hrun
  refine ⟨p, _, hp, hselected, hrun, ?_⟩
  rw [Option.agree_iff_eq_toList, h.filter_eq_get?_iff lax haffinity untagged present hu]

/-- The key of the note about salt, spelled out. -/
theorem Plan.whereIn_selects_get?_notes :
    let t := Table.notes.run Table.editNotes
    let salt : Row := ⟨Table.notes.columns, [.integer 4, .text "salt"], rfl⟩
    t.get? (.text "4.0") = some salt ∧
      ∃ p rows, whereIn "notes" "rowid" (.text "4.0") = .ok p ∧ p.selected notebook = .ok rows ∧
        p.run notebook = .ok (.rows ["text"] (rows.map t.line)) ∧
        ((∀ row, t.get? (.text "4.0") = some row ↔ rows = [row]) ∧
            (t.get? (.text "4.0") = none ↔ rows = []) ↔
          ¬ t.Confuses (.text "4.0")) := by
  intro t salt
  have ht : t.Reachable := (Table.Reachable.built Table.notes_built).run Table.editNotes
  have hsource : notebook.table "notes" = .ok t := by decide
  exact ⟨by decide, whereIn_selects_get?_iff ht rfl (.inl rfl) (by decide) rfl rfl hsource⟩

/-- The greatest word is taken for `2 ^ 63` by the query, and not by the lookup. -/
theorem Plan.not_whereIn_selects_get?_notes :
    let t := Table.notes.run [.insert [("rowid", .int 0x7fffffffffffffff), ("text", .text "milk")]]
    let milk : Row := ⟨Table.notes.columns, [.integer 0x7fffffffffffffff, .text "milk"], rfl⟩
    let db := (({ name := "main" } : Database).addTable t).2
    t.Reachable ∧ db.table "notes" = .ok t ∧ t.get? (.real (.ofInt (2 ^ 63))) = none ∧
      ∃ p, whereIn "notes" "rowid" (.real (.ofInt (2 ^ 63))) = .ok p ∧
        p.selected db = .ok [milk] ∧ p.run db = .ok (.rows ["text"] [[.text "milk"]]) := by
  intro t milk db
  refine ⟨(Table.Reachable.built Table.notes_built).run _, by decide, by decide, ?_⟩
  exact ⟨_, whereIn_of_isIdentifier (by decide) "notes" _, by decide, by decide⟩

end Tabular
