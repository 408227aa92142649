import Tabular.Row
import Tabular.Proofs.Null
import Mathlib.Data.List.Forall2
import Mathlib.Data.List.Nodup

/-! Rows that are built from data: what is in their cells, and which of them are NULL. -/
namespace Tabular.Row

variable {columns : List Column} {data : List (String × Raw)} {key : Option String} {r : Row}

theorem cell?_eq_none_iff {name : String} :
    cell? name data = none ↔ data.all (·.1 != name) = true := by
  simp only [cell?, List.lookup_eq_none_iff, List.mem_reverse, List.all_eq_true, bne_iff_ne, ne_eq]
  exact forall₂_congr fun _ _ => not_congr eq_comm

theorem cell?_map_null (name : String) (cs : List Column) :
    cell? name (cs.map fun c => (c.name, .null)) =
      if name ∈ cs.map (·.name) then some .null else none := by
  induction cs with
  | nil => rfl
  | cons c cs ih =>
    have hone : cell? name [(c.name, .null)] = if name = c.name then some .null else none := by
      by_cases hc : name = c.name <;> simp [cell?, hc]
    rw [List.map_cons, ← List.singleton_append, cell?_append, ih, hone, List.map_cons]
    by_cases hc : name = c.name
    · rw [if_pos hc, if_pos (List.mem_cons.2 (.inl hc))]
      split <;> rfl
    · simp only [hc, if_false, Option.or_none, List.mem_cons, false_or]

theorem forall₂_of_resolveCells {cells : List Value}
    (h : resolveCells key columns data = .ok cells) :
    List.Forall₂ (fun c v => ∃ raw, cell? c.name data = some raw ∧
      c.resolve raw (c.autoincrement || key == some c.name) = .ok v) columns cells := by
  induction columns generalizing data cells with
  | nil =>
    cases h
    exact .nil
  | cons c cs ih =>
    simp only [resolveCells] at h
    split at h
    · cases h
    rename_i raw hraw
    obtain ⟨v, hv, h⟩ := Except.bind_eq_ok_iff.1 h
    obtain ⟨vs, hvs, h⟩ := Except.bind_eq_ok_iff.1 h
    cases h
    refine .cons ⟨raw, hraw, hv⟩ ((ih hvs).imp ?_)
    rintro d w ⟨raw', hraw', hw⟩
    have hcell := cell?_filter (· != c.name) d.name data
    rw [hraw'] at hcell
    split at hcell
    · exact ⟨raw', hcell.symm, hw⟩
    · cases hcell

theorem cell?_filter_of_ne {name used : String} (hne : name ≠ used)
    (data : List (String × Raw)) : cell? name (data.filter (·.1 != used)) = cell? name data := by
  rw [cell?_filter (· != used), if_pos (bne_iff_ne.2 hne)]

theorem resolveCells_eq_ok_iff {cells : List Value} (names : (columns.map (·.name)).Nodup) :
    resolveCells key columns data = .ok cells ↔
      List.Forall₂ (fun c v => ∃ raw, cell? c.name data = some raw ∧
        c.resolve raw (c.autoincrement || key == some c.name) = .ok v) columns cells := by
  refine ⟨forall₂_of_resolveCells, fun h => ?_⟩
  induction columns generalizing data cells with
  | nil =>
    cases h
    rfl
  | cons c cs ih =>
    obtain ⟨hnew, hnames⟩ := List.nodup_cons.1 (List.map_cons ▸ names)
    obtain ⟨v, vs, ⟨raw, hraw, hv⟩, hrest, rfl⟩ := List.forall₂_cons_left_iff.1 h
    have hleft : resolveCells key cs (data.filter (·.1 != c.name)) = .ok vs := by
      have hother : ∀ d ∈ cs, d.name ≠ c.name := fun d hd h => hnew (h ▸ List.mem_map_of_mem hd)
      refine ih hnames (((List.forall₂_and_left _ _).2 ⟨hother, hrest⟩).imp ?_)
      rintro d w ⟨hne, hcell⟩
      rwa [cell?_filter_of_ne hne]
    simp only [resolveCells, hraw, hv, hleft]
    rfl

theorem resolveCells_eq_error {c : Column} {e : Error} (names : (columns.map (·.name)).Nodup)
    {cell : Column → Raw} (given : ∀ d ∈ columns, cell? d.name data = some (cell d))
    (hc : c ∈ columns)
    (fails : c.resolve (cell c) (c.autoincrement || key == some c.name) = .error e)
    (others : ∀ d ∈ columns, d ≠ c →
      ∃ v, d.resolve (cell d) (d.autoincrement || key == some d.name) = .ok v) :
    resolveCells key columns data = .error e := by
  induction columns generalizing data with
  | nil => cases hc
  | cons d cs ih =>
    obtain ⟨hd, hgiven⟩ := List.forall_mem_cons.1 given
    obtain ⟨hfirst, hrest⟩ := List.forall_mem_cons.1 others
    obtain ⟨hnew, hnames⟩ := List.nodup_cons.1 (List.map_cons ▸ names)
    simp only [resolveCells, hd]
    by_cases hne : d = c
    · rw [hne, fails]
      rfl
    · obtain ⟨v, hv⟩ := hfirst hne
      have hmem : c ∈ cs := (List.mem_cons.1 hc).resolve_left (Ne.symm hne)
      have hleft : ∀ d' ∈ cs, cell? d'.name (data.filter (·.1 != d.name)) = some (cell d') := by
        intro d' hd'
        have hother : d'.name ≠ d.name := fun h => hnew (h ▸ List.mem_map_of_mem hd')
        rw [cell?_filter_of_ne hother]
        exact hgiven d' hd'
      rw [hv, ih hnames hleft hmem hrest]
      rfl

theorem find?_unknown_eq_none_iff :
    (data.find? fun (name, _) => columns.all (·.name != name)) = none ↔
      ∀ x ∈ data, x.1 ∈ columns.map (·.name) := by
  rw [List.find?_eq_none]
  refine forall₂_congr fun x _ => ?_
  simp only [Bool.not_eq_true, List.all_eq_false, bne_iff_ne, ne_eq, not_not, List.mem_map]

theorem build_eq_error {e : Error} (known : ∀ x ∈ data, x.1 ∈ columns.map (·.name))
    (h : resolveCells key columns data = .error e) : build columns data key = .error e := by
  unfold build
  rw [find?_unknown_eq_none_iff.2 known]
  dsimp only
  split
  · rename_i heq
    cases h.symm.trans heq
  · rename_i heq
    rw [Except.error.inj (h.symm.trans heq)]

theorem exists_get? {name : String} (h : name ∈ r.columns.map (·.name)) :
    ∃ v, r.get? name = some v := by
  have hp : (r.position? name).isSome := by simpa [position?] using h
  obtain ⟨i, hi⟩ := Option.isSome_iff_exists.1 hp
  have hlt := position?_lt hi
  exact ⟨r.cells[i], by simp [get?, hi]⟩

theorem get?_of_getElem? (names : (r.columns.map (·.name)).Nodup) {c : Column} {i : Nat}
    (h : r.columns[i]? = some c) : r.get? c.name = r.cells[i]? := by
  obtain ⟨hi, rfl⟩ := List.getElem?_eq_some_iff.1 h
  have hposition : r.position? r.columns[i].name = some i := by
    refine List.findIdx?_eq_some_iff_getElem.2 ⟨hi, by simp, fun j hj => ?_⟩
    have hne := List.pairwise_iff_getElem.1 names j i (by simpa using hj.trans hi)
      (by simpa using hi) hj
    simpa using hne
  simp [get?, hposition]

theorem columns_of_build (h : build columns data key = .ok r) : r.columns = columns := by
  unfold build at h
  split at h
  · cases h
  split at h
  · cases h
    rfl
  · cases h

theorem get?_of_build (names : (columns.map (·.name)).Nodup) (h : build columns data key = .ok r)
    {c : Column} (hc : c ∈ columns) :
    ∃ raw v, cell? c.name data = some raw ∧
      c.resolve raw (c.autoincrement || key == some c.name) = .ok v ∧ r.get? c.name = some v := by
  unfold build at h
  split at h
  · cases h
  split at h
  · rename_i cells hcells
    cases h
    obtain ⟨i, hi, rfl⟩ := List.mem_iff_getElem.1 hc
    have hall := forall₂_of_resolveCells hcells
    have hi' : i < cells.length := hall.length_eq ▸ hi
    obtain ⟨raw, hraw, hv⟩ := hall.get hi hi'
    refine ⟨raw, cells[i], hraw, hv, ?_⟩
    rw [get?_of_getElem? names (List.getElem?_eq_getElem hi)]
    exact List.getElem?_eq_getElem hi'
  · cases h

/-- A row is built exactly if the data names nothing but columns and every column resolves its
cell. -/
theorem build_eq_ok_iff (names : (columns.map (·.name)).Nodup) : build columns data key = .ok r ↔
    (∀ x ∈ data, x.1 ∈ columns.map (·.name)) ∧ r.columns = columns ∧
      ∀ c ∈ columns, ∃ raw v, cell? c.name data = some raw ∧
        c.resolve raw (c.autoincrement || key == some c.name) = .ok v ∧ r.get? c.name = some v := by
  constructor
  · intro h
    refine ⟨find?_unknown_eq_none_iff.1 ?_, columns_of_build h,
      fun c hc => get?_of_build names h hc⟩
    unfold build at h
    split at h
    · cases h
    · assumption
  · rintro ⟨known, rfl, hcells⟩
    have hall : List.Forall₂ (fun c v => ∃ raw, cell? c.name data = some raw ∧
        c.resolve raw (c.autoincrement || key == some c.name) = .ok v) r.columns r.cells := by
      refine List.forall₂_iff_get.2 ⟨r.length_cells.symm, fun i hi hi' => ?_⟩
      obtain ⟨raw, v, hraw, hv, hget⟩ := hcells _ (List.getElem_mem hi)
      rw [get?_of_getElem? names (List.getElem?_eq_getElem hi), List.getElem?_eq_getElem hi',
        Option.some.injEq] at hget
      obtain rfl : r.cells[i] = v := hget
      exact ⟨raw, hraw, hv⟩
    have hresolve := (resolveCells_eq_ok_iff names).2 hall
    unfold build
    rw [find?_unknown_eq_none_iff.2 known]
    dsimp only
    split
    · rename_i cells heq
      obtain rfl := Except.ok.inj (hresolve.symm.trans heq)
      rfl
    · rename_i heq
      cases hresolve.symm.trans heq

theorem eq_of_get? {s : Row} (names : (r.columns.map (·.name)).Nodup)
    (columns : r.columns = s.columns)
    (cells : ∀ c ∈ r.columns, r.get? c.name = s.get? c.name) : r = s := by
  have hcells : r.cells = s.cells := by
    refine List.ext_getElem? fun i => ?_
    cases hc : r.columns[i]? with
    | none =>
      have hlen := List.getElem?_eq_none_iff.1 hc
      rw [List.getElem?_eq_none (r.length_cells ▸ hlen),
        List.getElem?_eq_none (by rw [s.length_cells, ← columns]; exact hlen)]
    | some c =>
      rw [← get?_of_getElem? names hc, cells c (List.mem_of_getElem? hc),
        get?_of_getElem? (columns ▸ names) (columns ▸ hc)]
  cases r
  cases s
  simp_all

theorem get?_eq_null_iff_of_build (names : (columns.map (·.name)).Nodup)
    (h : build columns data key = .ok r) {c : Column} (hc : c ∈ columns)
    (required : c.nullable = false) (ordinary : key ≠ some c.name) :
    r.get? c.name = some .null ↔ ∃ raw, cell? c.name data = some raw ∧ c.leavesNull raw = true := by
  obtain ⟨raw, v, hraw, hv, hr⟩ := get?_of_build names h hc
  have hkey : (key == some c.name) = false := by simpa using ordinary
  rw [hkey, Bool.or_false] at hv
  simp [hr, hraw, Column.resolve_eq_null_iff required hv]

end Tabular.Row
