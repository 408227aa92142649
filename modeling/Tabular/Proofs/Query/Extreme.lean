import Tabular.Proofs.Query.Reordered

/-!
The extremes of a column beside its order. MAX and MIN pass over the cells once and keep the best
one so far; a query in the order of the column sorts them, with NULL at one end. Both single out a
value that no other value comes before, and a lax column of numbers or text has only one.
-/
namespace Tabular

/-- The order in which a value comes before another one. -/
def Direction.ordering : Direction → Ordering
  | .asc => .lt
  | .desc => .gt

/-- The aggregate that singles out the value that comes first. -/
def Direction.extreme : Direction → AggregateFunction
  | .asc => .min
  | .desc => .max

@[simp] theorem Value.isNull_eq_false_iff (v : Value) : v.isNull = false ↔ v ≠ .null := by
  rw [← Bool.not_eq_true, isNull_iff]

namespace Sorting

variable {c : StorageClass} {d : Direction} {u v w : Value} {vs ws : List Value}

theorem comesBefore_eq (d : Direction) (v w : Value) :
    comesBefore d v w = (keyOrder v w == d.ordering) := by
  cases d <;> rfl

theorem Key.eq_of_compare (hv : Key c v) (hw : Key c w) (h : v.compare w = .ok .eq) : v = w := by
  have hclass : v = .null ∨ w = .null ∨ v.storageClass = w.storageClass := by
    rcases hv with hv | hv
    · exact .inl hv
    rcases hw with hw | hw
    · exact .inr (.inl hw)
    · exact .inr (.inr (hv.1.trans hw.1.symm))
  rw [Value.compare_eq_ok_iff] at h
  clear hv hw
  cases v <;> cases w <;>
    simp_all [Value.order?, Value.storageClass, Binary64.totalOrder_eq_eq, Int64.toInt_inj]

/-- A value, other than NULL, that no other one comes before. -/
structure Foremost (d : Direction) (vs : List Value) (v : Value) : Prop where
  mem : v ∈ vs
  present : v ≠ .null
  first : ∀ u ∈ vs, u ≠ .null → comesBefore d u v = false

theorem Foremost.unique (hkeys : ∀ v ∈ vs, Key c v) (hv : Foremost d vs v)
    (hw : Foremost d vs w) : v = w := by
  have hvk := hkeys v hv.mem
  have hwk := hkeys w hw.mem
  have hequal : v.compare w = .ok .eq :=
    compare_eq_of_comesBefore hvk hwk (hw.first v hv.mem hv.present) (hv.first w hw.mem hw.present)
  exact hvk.eq_of_compare hwk hequal

theorem Foremost.perm (h : Foremost d vs v) (hperm : vs.Perm ws) : Foremost d ws v where
  mem := hperm.subset h.mem
  present := h.present
  first u hu := h.first u (hperm.symm.subset hu)

theorem Foremost.of_filter (h : Foremost d (vs.filter (!·.isNull)) v) : Foremost d vs v where
  mem := List.mem_of_mem_filter h.mem
  present := h.present
  first u hu hun := h.first u (by simpa [hu] using hun) hun

theorem comesBefore_self (d : Direction) (v : Value) : comesBefore d v v = false :=
  eq_false_of_ne_true fun h => by simp [comesBefore_asymm h] at h

theorem foremost_singleton (d : Direction) (hv : v ≠ .null) : Foremost d [v] v where
  mem := List.mem_singleton_self v
  present := hv
  first u hu _ := by
    rw [List.mem_singleton.1 hu]
    exact comesBefore_self d v

/-- The first value that is not NULL of sorted values comes before all others. -/
theorem exists_find?_foremost (hsorted : vs.Pairwise fun v w => comesBefore d w v = false)
    (h : ∃ v ∈ vs, v ≠ .null) : ∃ v, vs.find? (!·.isNull) = some v ∧ Foremost d vs v := by
  have hsome : (vs.find? (!·.isNull)).isSome = true := by
    simpa [List.find?_isSome] using h
  obtain ⟨v, hv⟩ := Option.isSome_iff_exists.1 hsome
  obtain ⟨hpresent, before, after, rfl, hbefore⟩ := List.find?_eq_some_iff_append.1 hv
  refine ⟨v, hv, by simp, by simpa using hpresent, fun u hu hun => ?_⟩
  have hafter := (List.pairwise_cons.1 (List.pairwise_append.1 hsorted).2.1).1
  rcases List.mem_append.1 hu with hu | hu
  · exact absurd (by simpa using hbefore u hu) hun
  rcases List.mem_cons.1 hu with rfl | hu
  · exact comesBefore_self d u
  · exact hafter u hu

theorem head?_eq_find? (hsorted : vs.Pairwise fun v w => comesBefore .desc w v = false)
    (h : ∃ v ∈ vs, v ≠ .null) : vs.head? = vs.find? (!·.isNull) := by
  cases vs with
  | nil => rfl
  | cons v vs =>
    have hv : v.isNull = false := by
      refine eq_false_of_ne_true fun hnull => ?_
      obtain rfl := (Value.isNull_iff v).1 hnull
      obtain ⟨u, hu, hun⟩ := h
      have hu : u ∈ vs := (List.mem_cons.1 hu).resolve_left hun
      have hlast := (List.pairwise_cons.1 hsorted).1 u hu
      have hprecedes : Precedes .desc u .null := .inl ⟨hun, rfl⟩
      simp [comesBefore_iff.2 hprecedes] at hlast
    simp [hv]

end Sorting

namespace Aggregate

open Sorting

variable {c : StorageClass} {d : Direction} {b v : Value} {seen vs : List Value}

theorem extremeNext_eq (hv : Key c v) (hb : Key c b) (hvn : v ≠ .null) (hbn : b ≠ .null) :
    extremeNext d.ordering (some b) v = .ok (some (if comesBefore d v b then v else b)) := by
  have horder := Value.compare_eq_ok_iff.2 (hv.keyOrder_eq hb hvn hbn)
  simp only [extremeNext, horder, Except.map, comesBefore_eq, beq_iff_eq]
  split <;> rfl

/-- The best value so far stays the best one when one more value is seen. -/
theorem foremost_next (hkeys : ∀ v ∈ seen, Key c v) (hv : Key c v) (hvn : v ≠ .null)
    (hb : Foremost d seen b) :
    Foremost d (seen ++ [v]) (if comesBefore d v b then v else b) := by
  have hweak := weak_comesBefore c d
  split
  case isTrue hbefore =>
    refine ⟨by simp, hvn, fun u hu hun => ?_⟩
    rcases List.mem_append.1 hu with hu | hu
    · exact hweak.trans (hkeys u hu) (hkeys b hb.mem) hv (hb.first u hu hun)
        (comesBefore_asymm hbefore)
    · rw [List.mem_singleton.1 hu]
      exact comesBefore_self d v
  case isFalse hbehind =>
    refine ⟨by simp [hb.mem], hb.present, fun u hu hun => ?_⟩
    rcases List.mem_append.1 hu with hu | hu
    · exact hb.first u hu hun
    · rw [List.mem_singleton.1 hu]
      exact eq_false_of_ne_true hbehind

/-- The pass keeps a value that none of those it has seen comes before. -/
theorem foremost_foldlM (hkeys : ∀ v ∈ seen ++ vs, Key c v ∧ v ≠ .null)
    (hb : Foremost d seen b) :
    ∃ best, vs.foldlM (extremeNext d.ordering) (some b) = .ok (some best) ∧
      Foremost d (seen ++ vs) best := by
  induction vs generalizing seen b with
  | nil => exact ⟨b, rfl, by simpa using hb⟩
  | cons v vs ih =>
    obtain ⟨hv, hvn⟩ := hkeys v (by simp)
    have hseen : ∀ u ∈ seen, Key c u := fun u hu => (hkeys u (by simp [hu])).1
    have hnext := foremost_next hseen hv hvn hb
    obtain ⟨best, hbest, hforemost⟩ := ih (by simpa using hkeys) hnext
    refine ⟨best, ?_, by simpa using hforemost⟩
    rw [List.foldlM_cons, extremeNext_eq hv (hseen b hb.mem) hvn hb.present]
    exact hbest

/-- Over keys, the aggregate of a direction is NULL if they all are, and otherwise the value that
comes first. -/
theorem exists_apply_extreme (hkeys : ∀ v ∈ vs, Key c v) (d : Direction) (argument : Argument) :
    ∃ best, apply ⟨d.extreme, argument⟩ vs = .ok best ∧ ((∀ v ∈ vs, v = .null) → best = .null) ∧
      ((∃ v ∈ vs, v ≠ .null) → Foremost d vs best) := by
  have happly : apply ⟨d.extreme, argument⟩ vs = extreme d.ordering (vs.filter (!·.isNull)) := by
    cases d <;> rfl
  have hpresent : ∀ v ∈ vs.filter (!·.isNull), Key c v ∧ v ≠ .null := by
    intro v hv
    obtain ⟨hmem, hv⟩ := List.mem_filter.1 hv
    exact ⟨hkeys v hmem, by simpa using hv⟩
  rw [happly]
  cases hvs : vs.filter (!·.isNull) with
  | nil =>
    refine ⟨.null, rfl, fun _ => rfl, fun ⟨v, hv, hvn⟩ => ?_⟩
    have hmem : v ∈ vs.filter (!·.isNull) := by simpa [hv] using hvn
    simp [hvs] at hmem
  | cons v rest =>
    rw [hvs] at hpresent
    have hv := hpresent v List.mem_cons_self
    have hfirst := foremost_singleton d hv.2
    obtain ⟨best, hbest, hforemost⟩ := foremost_foldlM (by simpa using hpresent) hfirst
    refine ⟨best, Except.map_eq_ok_iff.2 ⟨some best, hbest, rfl⟩, fun hnull => ?_, fun _ => ?_⟩
    · have hmem : v ∈ vs.filter (!·.isNull) := hvs ▸ List.mem_cons_self
      exact absurd (hnull v (List.mem_of_mem_filter hmem)) hv.2
    · exact Foremost.of_filter (by simpa [hvs] using hforemost)

end Aggregate

section

variable {t : Table} {c : Column}

theorem Table.WellFormed.exists_fieldCells (hw : t.WellFormed) (hc : c ∈ t.columns) :
    ∃ vs, t.fieldCells c.name = .ok vs ∧
      ∀ places, Broadcast.gather vs places = places.map (t.cellAt c.name) :=
  ⟨_, hw.fieldCells_eq hc, fun _ => List.map_congr_left fun i _ =>
    (hw.cellAt_eq (hw.columnCells_eq hc) i).symm⟩

theorem Table.WellFormed.project_eq (hw : t.WellFormed) (hc : c ∈ t.columns) (places : List Nat) :
    t.project places c.name = .ok (c.name, places.map (t.cellAt c.name)) := by
  obtain ⟨vs, hvs, hgather⟩ := hw.exists_fieldCells hc
  rw [Table.project, hvs, ← hgather]
  rfl

theorem Table.WellFormed.aggregate_eq (hw : t.WellFormed) (hc : c ∈ t.columns) (places : List Nat)
    (f : AggregateFunction) :
    t.aggregate places ⟨f, .column c.name⟩ =
      ((Aggregate.mk f (.column c.name)).apply (places.map (t.cellAt c.name))).map
        ((Aggregate.mk f (.column c.name)).text, ·) := by
  obtain ⟨vs, hvs, hgather⟩ := hw.exists_fieldCells hc
  simp only [Table.aggregate, hvs, ← hgather]
  rfl

theorem Answer.ofColumns_singleton (name : String) (vs : List Value) :
    ofColumns vs.length [(name, vs)] = .rows [name] (vs.map ([·])) := by
  have hlines : (List.range vs.length).map (fun i => [vs[i]?.getD .null]) = vs.map ([·]) :=
    List.ext_getElem (by simp) fun i hi _ => by
      have hi : i < vs.length := by simpa using hi
      simp [hi]
  simp [ofColumns, hlines]

end

namespace Plan

def ofColumn (table column : String) (f : Filter) (d : Direction) (limit : Option Nat) : Plan :=
  ⟨.columns [.column column], table, f, some (column, d), limit⟩

def ofAggregate (function : AggregateFunction) (table column : String) (f : Filter) : Plan :=
  ⟨.aggregates [⟨function, .column column⟩], table, f, none, none⟩

variable {t : Table} {c : Column} {db : Database} {name : String} {f : Filter} {mask : List Bool}

theorem run_ofAggregate (hw : t.WellFormed) (hc : c ∈ t.columns) (source : db.table name = .ok t)
    (hm : f.mask db t = .ok mask) (function : AggregateFunction) :
    (ofAggregate function name c.name f).run db =
      ((Aggregate.mk function (.column c.name)).apply
        ((Broadcast.places mask).map (t.cellAt c.name))).map
          fun v => .aggregates [((Aggregate.mk function (.column c.name)).text, v)] := by
  have hrun := run_eq (p := ofAggregate function name c.name f) source hm rfl
  rw [hrun]
  simp only [ofAggregate, Selection.project, Table.limitPlaces, List.mapM_cons, List.mapM_nil,
    hw.aggregate_eq hc]
  cases (Aggregate.mk function (.column c.name)).apply
    ((Broadcast.places mask).map (t.cellAt c.name)) <;> rfl

theorem run_ofColumn (hw : t.WellFormed) (hc : c ∈ t.columns) (source : db.table name = .ok t)
    (hm : f.mask db t = .ok mask) {d : Direction} {sorted : List Nat}
    (hs : t.sortPlaces (some (c.name, d)) (Broadcast.places mask) = .ok sorted)
    (limit : Option Nat) :
    (ofColumn name c.name f d limit).run db = .ok (.rows [c.name]
      (((Table.limitPlaces limit sorted).map (t.cellAt c.name)).map ([·]))) := by
  have hrun := run_eq (p := ofColumn name c.name f d limit) source hm hs
  rw [hrun]
  simp only [ofColumn, Selection.project, Projection.readAll, Projection.read, hw.project_eq hc]
  refine Except.bind_eq_ok_iff.2 ⟨_, rfl, ?_⟩
  have hanswer := Answer.ofColumns_singleton c.name
    ((Table.limitPlaces limit sorted).map (t.cellAt c.name))
  rw [List.length_map] at hanswer
  exact congrArg Except.ok hanswer

/-- The aggregate of a direction beside the column in the order of this direction. -/
theorem exists_extreme_sorted (ht : t.Made) (hc : c ∈ t.columns) (lax : c.strict = false)
    (haffinity : c.affinity = .integer ∨ c.affinity = .real ∨ c.affinity = .text)
    (source : db.table name = .ok t) (hm : f.mask db t = .ok mask) (d : Direction) :
    ∃ (best : Value) (cells : List Value),
      cells.Perm ((Broadcast.places mask).map (t.cellAt c.name)) ∧
      cells.Pairwise (fun v w => Sorting.comesBefore d w v = false) ∧
      (ofAggregate d.extreme name c.name f).run db =
        .ok (.aggregates [((Aggregate.mk d.extreme (.column c.name)).text, best)]) ∧
      (∀ limit, (ofColumn name c.name f d limit).run db =
        .ok (.rows [c.name] ((limit.elim cells cells.take).map ([·])))) ∧
      ((∀ v ∈ cells, v = .null) → best = .null) ∧
      ((∃ v ∈ cells, v ≠ .null) → cells.find? (!·.isNull) = some best) := by
  have hw := ht.reachable.wellFormed
  obtain ⟨k, hkeys⟩ := ht.exists_key hc lax haffinity
  obtain ⟨sorted, hsorted, hpairwise⟩ :=
    ht.exists_sortPlaces hc lax haffinity d (Broadcast.pairwise_places mask)
  have hperm := (Table.sortPlaces_perm hsorted).map (t.cellAt c.name)
  have hcells : ∀ v ∈ (Broadcast.places mask).map (t.cellAt c.name), Sorting.Key k v := by
    intro v hv
    obtain ⟨i, -, rfl⟩ := List.mem_map.1 hv
    exact hkeys i
  have hordered : (sorted.map (t.cellAt c.name)).Pairwise
      fun v w => Sorting.comesBefore d w v = false :=
    List.pairwise_map.2 (hpairwise.imp fun hij => hij.1)
  obtain ⟨best, hbest, hnull, hforemost⟩ :=
    Aggregate.exists_apply_extreme hcells d (.column c.name)
  refine ⟨best, _, hperm, hordered, ?_, fun limit => ?_, fun h => ?_, fun h => ?_⟩
  · rw [run_ofAggregate hw hc source hm, hbest]
    rfl
  · rw [run_ofColumn hw hc source hm hsorted]
    cases limit with
    | none => rfl
    | some k => simp [Table.limitPlaces]
  · exact hnull fun v hv => h v (hperm.symm.subset hv)
  · obtain ⟨v, hv, hfirst⟩ := Sorting.exists_find?_foremost hordered h
    obtain ⟨u, hu, hun⟩ := h
    have hbest := hforemost ⟨u, hperm.subset hu, hun⟩
    rw [hv, hbest.unique hcells (hfirst.perm hperm)]

/-- Where the filter succeeds, MAX and MIN of a lax column of numbers or text are NULL if the rows
that it keeps have no other value there. Otherwise MAX is the only cell of the query in descending
order with limit one, and MIN the first cell, apart from NULL, of the query in ascending order. -/
theorem extremes_of_made (ht : t.Made) (hc : c ∈ t.columns) (lax : c.strict = false)
    (haffinity : c.affinity = .integer ∨ c.affinity = .real ∨ c.affinity = .text)
    (source : db.table name = .ok t) (hm : f.mask db t = .ok mask) :
    ∃ (greatest least : Value) (descending ascending : List Value),
      (ofAggregate .max name c.name f).run db =
        .ok (.aggregates [("MAX(" ++ c.name ++ ")", greatest)]) ∧
      (ofAggregate .min name c.name f).run db =
        .ok (.aggregates [("MIN(" ++ c.name ++ ")", least)]) ∧
      (ofColumn name c.name f .desc (some 1)).run db =
        .ok (.rows [c.name] (descending.map ([·]))) ∧
      (ofColumn name c.name f .asc none).run db =
        .ok (.rows [c.name] (ascending.map ([·]))) ∧
      ((∀ i ∈ Broadcast.places mask, t.cellAt c.name i = .null) →
        greatest = .null ∧ least = .null) ∧
      ((∃ i ∈ Broadcast.places mask, t.cellAt c.name i ≠ .null) →
        descending = [greatest] ∧ ascending.find? (!·.isNull) = some least) := by
  obtain ⟨greatest, descending, hdesc, hdescending, hmax, hdescrun, hmaxnull, hgreatest⟩ :=
    exists_extreme_sorted ht hc lax haffinity source hm .desc
  obtain ⟨least, ascending, hasc, -, hmin, hascrun, hminnull, hleast⟩ :=
    exists_extreme_sorted ht hc lax haffinity source hm .asc
  refine ⟨greatest, least, descending.take 1, ascending, hmax, hmin, hdescrun (some 1),
    hascrun none, fun h => ⟨hmaxnull ?_, hminnull ?_⟩, fun ⟨i, hi, hn⟩ => ⟨?_, hleast ?_⟩⟩
  · intro v hv
    obtain ⟨i, hi, rfl⟩ := List.mem_map.1 (hdesc.subset hv)
    exact h i hi
  · intro v hv
    obtain ⟨i, hi, rfl⟩ := List.mem_map.1 (hasc.subset hv)
    exact h i hi
  · have hpresent : ∃ v ∈ descending, v ≠ .null :=
      ⟨_, hdesc.symm.subset (List.mem_map_of_mem hi), hn⟩
    have hhead := (Sorting.head?_eq_find? hdescending hpresent).trans (hgreatest hpresent)
    rw [List.take_one, hhead]
    rfl
  · exact ⟨_, hasc.symm.subset (List.mem_map_of_mem hi), hn⟩

/-- Two games are tied with the least points, and one has none at all. -/
theorem extremes_of_made_games :
    (ofAggregate .max "games" "points" .all).run scoreboard =
        .ok (.aggregates [("MAX(points)", .integer 7)]) ∧
      (ofAggregate .min "games" "points" .all).run scoreboard =
        .ok (.aggregates [("MIN(points)", .integer 3)]) ∧
      (ofColumn "games" "points" .all .desc (some 1)).run scoreboard =
        .ok (.rows ["points"] [[.integer 7]]) ∧
      (ofColumn "games" "points" .all .asc none).run scoreboard =
        .ok (.rows ["points"] [[.null], [.integer 3], [.integer 3], [.integer 7]]) := by
  let t := games.run playGames
  let points : Column := { name := "points", affinity := .integer, nullable := true }
  have hcreate : Table.create "games" [points] none {} = .ok games := by decide
  have ht : t.Made := (Table.Made.create hcreate).run (by simp [playGames, Table.Operation.rows])
  have hc : points ∈ t.columns := by decide
  have hsource : scoreboard.table "games" = .ok t := by decide
  have hmask : Filter.all.mask scoreboard t = .ok [true, true, true, true] := by decide
  have hdesc : (ofColumn "games" "points" .all .desc (some 1)).run scoreboard =
      .ok (.rows ["points"] [[.integer 7]]) := by decide
  have hasc : (ofColumn "games" "points" .all .asc none).run scoreboard =
      .ok (.rows ["points"] [[.null], [.integer 3], [.integer 3], [.integer 7]]) := by decide
  obtain ⟨greatest, least, descending, ascending, hmax, hmin, hdescending, hascending, -, hsame⟩ :=
    extremes_of_made ht hc rfl (.inl rfl) hsource hmask
  obtain ⟨rfl, hleast⟩ := hsame ⟨0, by decide, by decide⟩
  obtain ⟨-, rfl⟩ : points.name = "points" ∧ greatest = .integer 7 := by
    simpa using hdescending.symm.trans hdesc
  have hcells : ascending = [.null, .integer 3, .integer 3, .integer 7] := by
    have hlines := hascending.symm.trans hasc
    simp only [Except.ok.injEq, Answer.rows.injEq, List.map_eq_cons_iff,
      List.map_eq_nil_iff] at hlines
    simp_all
  obtain rfl : .integer 3 = least := by simpa [hcells] using hleast
  exact ⟨hmax, hmin, hdesc, hasc⟩

end Plan

end Tabular
