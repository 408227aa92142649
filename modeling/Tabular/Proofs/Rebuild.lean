import Tabular.Proofs.Literal
import Tabular.Proofs.Row

/-!
Rows that are built once more from their own cells. The default is not put in again, as a NULL cell
is left only where there is no default to replace it, and a column takes back every value that it
has stored, except for NULL that was made of text.
-/
namespace Tabular

namespace Column

variable {c : Column} {raw : Raw} {v : Value}

theorem fill_null_of_isNull_fill (default : ∀ d, c.default = some d → d.untagged = d)
    (h : (c.fill raw).isNull = true) : c.fill .null = .null := by
  cases hd : c.default with
  | none => simp [fill, hd]
  | some d =>
    have hnull : d.isNull = true := by
      cases hraw : raw.isNull with
      | true => simpa [fill, hraw, hd] using h
      | false => simp [fill, hraw] at h
    have huntagged := default d hd
    cases d with
    | null => simp [fill, hd]
    | tagged a inner => exact absurd huntagged (Raw.untagged_ne_tagged _ a inner)
    | _ => cases hnull

theorem untagged_fill (untagged : raw.untagged = raw)
    (default : ∀ d, c.default = some d → d.untagged = d) :
    (c.fill raw).untagged = c.fill raw := by
  unfold fill
  split
  · cases hd : c.default with
    | none => exact untagged
    | some d => exact default d hd
  · exact untagged

theorem resolve_toRaw (keeps : c.strict = true ∨ c.affinity ≠ .numeric)
    (untagged : raw.untagged = raw) (default : ∀ d, c.default = some d → d.untagged = d)
    {deferred : Bool} (h : c.resolve raw deferred = .ok v) :
    c.resolve v.toRaw deferred = .ok v := by
  obtain ⟨hcheck, hstore⟩ := resolve_eq_ok_iff.1 h
  have hfill := untagged_fill untagged default
  have hagain := store_toRaw hfill hstore
  by_cases hv : v = .null
  · subst hv
    have hnull : (c.fill raw).isNull = true := by
      have herases := erases_of_untagged keeps hfill
      simpa [herases] using (store_eq_null_iff hstore).1 rfl
    have hempty := fill_null_of_isNull_fill default hnull
    refine resolve_eq_ok_iff.2 ⟨fun _ => hcheck hnull, ?_⟩
    rw [Value.toRaw, hempty]
    exact hagain
  · rw [resolve_of_not_isNull (Value.isNull_toRaw_of_ne hv)]
    exact hagain

end Column

namespace Row

variable {columns : List Column} {data : List (String × Raw)} {key : Option String} {r : Row}

theorem mem_of_cell? {name : String} {raw : Raw} (h : cell? name data = some raw) :
    (name, raw) ∈ data := by
  obtain ⟨before, after, hsplit, -⟩ := List.lookup_eq_some_iff.1 h
  rw [← List.mem_reverse, hsplit]
  exact List.mem_append_right _ List.mem_cons_self

theorem cell?_eq_some_of_mem {name : String} {raw : Raw} (names : (data.map (·.1)).Nodup)
    (h : (name, raw) ∈ data) : cell? name data = some raw := by
  have hreverse : (data.reverse.map (·.1)).Nodup := by
    rw [List.map_reverse]
    exact List.nodup_reverse.2 names
  obtain ⟨before, after, hsplit⟩ := List.append_of_mem (List.mem_reverse.2 h)
  rw [hsplit, List.map_append, List.map_cons, List.nodup_middle, List.nodup_cons,
    ← List.map_append] at hreverse
  refine List.lookup_eq_some_iff.2 ⟨before, after, hsplit, fun x hx => ?_⟩
  refine bne_iff_ne.2 fun heq => hreverse.1 ?_
  exact List.mem_map.2 ⟨x, List.mem_append_left _ hx, heq.symm⟩

/-- Every cell is used once, so two columns with one name cannot both have theirs. -/
theorem nodup_names_of_resolveCells {cells : List Value}
    (h : resolveCells key columns data = .ok cells) : (columns.map (·.name)).Nodup := by
  induction columns generalizing data cells with
  | nil => exact List.nodup_nil
  | cons c cs ih =>
    simp only [resolveCells] at h
    split at h
    · cases h
    obtain ⟨v, -, h⟩ := Except.bind_eq_ok_iff.1 h
    obtain ⟨vs, hvs, -⟩ := Except.bind_eq_ok_iff.1 h
    refine List.nodup_cons.2 ⟨fun hmem => ?_, ih hvs⟩
    obtain ⟨d, hd, hname⟩ := List.mem_map.1 hmem
    obtain ⟨i, hi, rfl⟩ := List.mem_iff_getElem.1 hd
    have hall := forall₂_of_resolveCells hvs
    obtain ⟨raw, hraw, -⟩ := hall.get hi (hall.length_eq ▸ hi)
    rw [List.get_eq_getElem, hname, cell?_filter (· != c.name)] at hraw
    simp at hraw

theorem nodup_names_of_build (h : build columns data key = .ok r) :
    (columns.map (·.name)).Nodup := by
  unfold build at h
  split at h
  · cases h
  split at h
  · rename_i cells hcells
    exact nodup_names_of_resolveCells hcells
  · cases h

/-- The data that the cells of a row make. -/
def ownData (r : Row) : List (String × Raw) := r.pairs.map fun x => (x.1, x.2.toRaw)

theorem names_ownData (r : Row) : r.ownData.map (·.1) = r.columns.map (·.name) := by
  have hlength : (r.columns.map (·.name)).length = r.cells.length := by simp [r.length_cells]
  rw [ownData, List.map_map, pairs]
  exact List.map_fst_zip hlength.le

theorem cell?_ownData (names : (r.columns.map (·.name)).Nodup) {c : Column} (hc : c ∈ r.columns) :
    cell? c.name r.ownData = (r.get? c.name).map Value.toRaw := by
  obtain ⟨i, hi, rfl⟩ := List.mem_iff_getElem.1 hc
  have hi' : i < r.cells.length := r.length_cells ▸ hi
  rw [get?_of_getElem? names (List.getElem?_eq_getElem hi), List.getElem?_eq_getElem hi']
  refine cell?_eq_some_of_mem (r.names_ownData ▸ names) (List.mem_map.2 ⟨(_, r.cells[i]), ?_, rfl⟩)
  refine List.mem_iff_getElem.2 ⟨i, by simpa [pairs] using lt_min hi hi', by simp [pairs]⟩

/-- A row is built again from its own cells as it is. Its columns may be strict, and lax ones may
have every affinity but the one that makes NULL of text; tags may not stand in the way. -/
theorem of_ownData (keeps : ∀ c ∈ columns, c.strict = true ∨ c.affinity ≠ .numeric)
    (untagged : ∀ x ∈ data, x.2.untagged = x.2)
    (defaults : ∀ c ∈ columns, ∀ d, c.default = some d → d.untagged = d)
    (h : Row.of columns data = .ok r) : Row.of columns r.ownData = .ok r := by
  have names := nodup_names_of_build h
  obtain ⟨-, hcolumns, hcells⟩ := (build_eq_ok_iff names).1 h
  subst hcolumns
  refine (build_eq_ok_iff names).2 ⟨fun x hx => ?_, rfl, fun c hc => ?_⟩
  · rw [← r.names_ownData]
    exact List.mem_map_of_mem hx
  · obtain ⟨raw, v, hraw, hv, hget⟩ := hcells c hc
    have huntagged := untagged _ (mem_of_cell? hraw)
    have hagain := Column.resolve_toRaw (keeps c hc) huntagged (defaults c hc) hv
    refine ⟨v.toRaw, v, ?_, hagain, hget⟩
    rw [cell?_ownData names hc, hget, Option.map_some]

/-- Parcels: a key that is left open, a weight by default, a label that is given as bytes, an answer
that is stored as a document, and a note that is missing. -/
theorem of_ownData_parcels :
    let columns : List Column := [.generatedKey "id",
      { name := "weight", affinity := .real, strict := true, default := some (.int 2) },
      { name := "label", affinity := .text }, { name := "insured", affinity := .blob },
      { name := "note", affinity := .any, nullable := true, default := some .null }]
    let insured : Value := .object (Raw.bool true).serialize
    let r : Row := ⟨columns, [.null, .integer 2, .text "tea", insured, .null], rfl⟩
    Row.of columns [("note", .null), ("insured", .bool true), ("label", .bytes [116, 101, 97]),
        ("weight", .null), ("id", .null)] = .ok r ∧
      Row.of columns [("id", .null), ("weight", .int 2), ("label", .text "tea"),
        ("insured", insured.toRaw), ("note", .null)] = .ok r := by
  intro columns insured r
  have hbuilt : Row.of columns [("note", .null), ("insured", .bool true),
      ("label", .bytes [116, 101, 97]), ("weight", .null), ("id", .null)] = .ok r := by
    decide +kernel
  exact ⟨hbuilt, of_ownData (by decide) (by decide) (by decide) hbuilt⟩

end Row

end Tabular
