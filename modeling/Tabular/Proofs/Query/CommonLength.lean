import Tabular.Query.Build
import Tabular.Query.Evaluate
import Tabular.Proofs.Query.Broadcast

/-!
The length that vectors have in common. A scalar serves for any number of rows, zero included, and
any other vector for its own length only. The common length is the least one for which all vectors
serve, so it does not depend on the order in which they meet, and where there is none every order
fails. Vectors that meet are read place by place, and below their common length none is read out of
range.
-/
namespace Tabular

namespace Broadcast

/-- A vector of `m` values has one for each of `n` rows, or one for all of them. -/
def Serves (m n : Nat) : Prop := m = 1 ∨ m = n

/-- The least length for which all of these serve: it serves wherever they all do. -/
def Joins (lengths : List Nat) (n : Nat) : Prop :=
  ∀ k, Serves n k ↔ ∀ m ∈ lengths, Serves m k

/-- The same length, or two mismatches, whatever lengths they name. -/
inductive Alike : Except Error Nat → Except Error Nat → Prop
  | length (n : Nat) : Alike (.ok n) (.ok n)
  | mismatch (l m l' m' : Nat) :
      Alike (.error (.arityMismatch l m)) (.error (.arityMismatch l' m'))

/-- An operation that gives the join of two lengths where there is one. The scalar length adds
nothing to a join. -/
structure IsJoin (join : Nat → Nat → Except Error Nat) : Prop where
  eq_ok_iff : ∀ l m n, join l m = .ok n ↔ Joins [l, m] n
  comm : ∀ l m, Alike (join l m) (join m l)
  assoc : ∀ l m n, Alike (join l m >>= (join · n)) (join m n >>= join l)
  one_left : ∀ n, join 1 n = .ok n
  one_right : ∀ n, join n 1 = .ok n

section

variable {l m n p k : Nat} {lengths lengths' : List Nat}

theorem Joins.serves (h : Joins lengths n) (hm : m ∈ lengths) : Serves m n :=
  (h n).1 (.inr rfl) m hm

theorem joins_congr (h : lengths.Perm lengths') : Joins lengths n ↔ Joins lengths' n := by
  simp only [Joins, h.mem_iff]

theorem Joins.cons_iff (h : Joins lengths k) : Joins [l, k] n ↔ Joins (l :: lengths) n := by
  simp only [Joins, List.forall_mem_cons, h _, List.not_mem_nil, false_implies, implies_true,
    and_true]

theorem commonLength_eq_ok_iff_joins : commonLength l m = .ok n ↔ Joins [l, m] n := by
  rw [commonLength_eq_ok_iff]
  simp only [Joins, Serves, List.forall_mem_cons, List.not_mem_nil, false_implies, implies_true,
    and_true]
  constructor
  · intro h k
    omega
  · intro h
    have hself := h n
    have hone := h 1
    omega

/-- Lengths that serve for the same number of rows have a join. -/
theorem exists_joins (hl : Serves l k) (hm : Serves m k) : ∃ n, Joins [l, m] n := by
  simp only [← commonLength_eq_ok_iff_joins, commonLength_eq_ok_iff]
  rcases hl with rfl | rfl
  · exact ⟨m, .inr ⟨rfl, rfl⟩⟩
  · exact ⟨l, .inl ⟨rfl, hm.symm⟩⟩

theorem exists_joins_cons_iff :
    (∃ k, Joins [m, n] k ∧ Joins [l, k] p) ↔ Joins [l, m, n] p := by
  constructor
  · rintro ⟨k, hk, hp⟩
    exact hk.cons_iff.1 hp
  · intro hp
    obtain ⟨k, hk⟩ : ∃ k, Joins [m, n] k :=
      exists_joins (hp.serves (m := m) (by simp)) (hp.serves (m := n) (by simp))
    exact ⟨k, hk, hk.cons_iff.2 hp⟩

theorem bind_commonLength_eq_ok_iff :
    (commonLength m n >>= commonLength l) = .ok p ↔ Joins [l, m, n] p := by
  simp only [Except.bind_eq_ok_iff, commonLength_eq_ok_iff_joins, exists_joins_cons_iff]

theorem commonLength_bind_eq_ok_iff :
    (commonLength l m >>= (commonLength · n)) = .ok p ↔ Joins [l, m, n] p := by
  have hrotate : [n, l, m].Perm [l, m, n] := (List.perm_append_singleton n [l, m]).symm
  simp only [Except.bind_eq_ok_iff, commonLength_eq_ok_iff_joins, ← joins_congr hrotate,
    ← exists_joins_cons_iff, joins_congr (List.Perm.swap n _ [])]

def IsMismatch (e : Error) : Prop := ∃ l m, e = .arityMismatch l m

theorem commonLength_failsByMismatch (l m : Nat) : Except.Fails IsMismatch (commonLength l m) := by
  unfold commonLength
  split
  · exact Except.fails_ok _
  split
  · exact Except.fails_ok _
  split
  · exact Except.fails_ok _
  · exact Except.fails_error ⟨l, m, rfl⟩

theorem alike_of_ok_iff {x y : Except Error Nat} (hx : Except.Fails IsMismatch x)
    (hy : Except.Fails IsMismatch y) (h : ∀ n, x = .ok n ↔ y = .ok n) : Alike x y := by
  cases x with
  | ok n =>
    rw [(h n).1 rfl]
    exact .length n
  | error e =>
    cases y with
    | ok n => cases (h n).2 rfl
    | error e' =>
      obtain ⟨l, m, rfl⟩ := hx e rfl
      obtain ⟨l', m', rfl⟩ := hy e' rfl
      exact .mismatch l m l' m'

end

theorem isJoin_commonLength : IsJoin commonLength where
  eq_ok_iff l m n := commonLength_eq_ok_iff_joins
  comm l m := by
    refine alike_of_ok_iff (commonLength_failsByMismatch l m) (commonLength_failsByMismatch m l)
      fun n => ?_
    rw [commonLength_eq_ok_iff_joins, commonLength_eq_ok_iff_joins]
    exact joins_congr (.swap m l [])
  assoc l m n := by
    refine alike_of_ok_iff
      ((commonLength_failsByMismatch l m).bind fun k _ => commonLength_failsByMismatch k n)
      ((commonLength_failsByMismatch m n).bind fun k _ => commonLength_failsByMismatch l k)
      fun p => ?_
    rw [commonLength_bind_eq_ok_iff, bind_commonLength_eq_ok_iff]
  one_left := commonLength_one_left
  one_right := commonLength_one_right

section

variable {α β γ : Type}

theorem valueAt?_eq (i : Nat) (as : List α) :
    valueAt? i as = if as.length = 1 then as[0]? else as[i]? := by
  match as with
  | [] => rfl
  | [a] => rfl
  | a :: b :: as => rfl

structure Covers (n : Nat) (as : List α) : Prop where
  serves : Serves as.length n
  inRange : ∀ i < n, ∃ a, valueAt? i as = some a

theorem Serves.covers {n : Nat} {as : List α} (h : Serves as.length n) : Covers n as := by
  refine ⟨h, fun i hi => ?_⟩
  simp only [valueAt?_eq]
  rcases h with h | h
  · exact ⟨as[0], by rw [if_pos h, List.getElem?_eq_getElem]⟩
  · split
    · exact ⟨as[0], List.getElem?_eq_getElem (by omega)⟩
    · exact ⟨as[i], List.getElem?_eq_getElem (h ▸ hi)⟩

/-- The rows below a length, each from its place. There is no outcome if a place is out of range. -/
def rowsByPlace (length : Except Error Nat) (row? : Nat → Option α) :
    Option (Except Error (List α)) :=
  match length with
  | .error e => some (.error e)
  | .ok n => ((List.range n).mapM row?).map .ok

def pairedByPlace (as : List α) (bs : List β) : Option (Except Error (List (α × β))) :=
  rowsByPlace (commonLength as.length bs.length) fun i => do
    return (← valueAt? i as, ← valueAt? i bs)

def tripledByPlace (as : List α) (bs : List β) (cs : List γ) :
    Option (Except Error (List (α × β × γ))) :=
  rowsByPlace (commonLength as.length bs.length >>= (commonLength · cs.length)) fun i => do
    return (← valueAt? i as, ← valueAt? i bs, ← valueAt? i cs)

theorem mapM_range_eq_some {n : Nat} {row? : Nat → Option α} {rows : List α}
    (hlength : rows.length = n) (h : ∀ i < n, row? i = rows[i]?) :
    (List.range n).mapM row? = some rows := by
  subst hlength
  induction rows generalizing row? with
  | nil => rfl
  | cons row rows ih =>
    have hfirst : row? 0 = some row := h 0 (Nat.succ_pos _)
    have hrest : (List.range rows.length).mapM (row? ∘ Nat.succ) = some rows :=
      ih fun i hi => h (i + 1) (Nat.succ_lt_succ hi)
    rw [List.length_cons, List.range_succ_eq_map, List.mapM_cons, List.mapM_map]
    simp [hfirst, hrest]

theorem rowsByPlace_eq {length : Except Error Nat} {row? : Nat → Option α} {rows : Nat → List α}
    (hlength : ∀ n, length = .ok n → (rows n).length = n)
    (hrows : ∀ n, length = .ok n → ∀ i < n, row? i = (rows n)[i]?) :
    rowsByPlace length row? = some (length.map rows) := by
  cases length with
  | error e => rfl
  | ok n =>
    have hread := mapM_range_eq_some (hlength n rfl) (hrows n rfl)
    simp only [rowsByPlace, hread, Option.map_some, Except.map]

theorem covers_of_commonLength {as : List α} {bs : List β} {n : Nat}
    (h : commonLength as.length bs.length = .ok n) : Covers n as ∧ Covers n bs := by
  have hjoins := commonLength_eq_ok_iff_joins.1 h
  exact ⟨(hjoins.serves (by simp)).covers, (hjoins.serves (by simp)).covers⟩

theorem covers_of_commonLength_bind {as : List α} {bs : List β} {cs : List γ} {n : Nat}
    (h : (commonLength as.length bs.length >>= (commonLength · cs.length)) = .ok n) :
    Covers n as ∧ Covers n bs ∧ Covers n cs := by
  have hjoins := commonLength_bind_eq_ok_iff.1 h
  exact ⟨(hjoins.serves (by simp)).covers, (hjoins.serves (by simp)).covers,
    (hjoins.serves (by simp)).covers⟩

theorem pairedByPlace_eq (as : List α) (bs : List β) :
    pairedByPlace as bs = some (paired as bs) := by
  refine rowsByPlace_eq (fun n hn => length_zip_stretch hn) fun n hn i hi => ?_
  obtain ⟨has, hbs⟩ := covers_of_commonLength hn
  obtain ⟨a, ha⟩ := has.inRange i hi
  obtain ⟨b, hb⟩ := hbs.inRange i hi
  have hrow : ((stretch n as).zip (stretch n bs))[i]? = some (a, b) := by
    simp only [List.getElem?_zip_eq_some, getElem?_stretch hi]
    exact ⟨ha, hb⟩
  rw [hrow, ha, hb]
  rfl

theorem tripled_eq_map (as : List α) (bs : List β) (cs : List γ) :
    tripled as bs cs = (commonLength as.length bs.length >>= (commonLength · cs.length)).map
      fun n => (stretch n as).zip ((stretch n bs).zip (stretch n cs)) := by
  unfold tripled
  cases commonLength as.length bs.length with
  | error e => rfl
  | ok m => rfl

theorem tripledByPlace_eq (as : List α) (bs : List β) (cs : List γ) :
    tripledByPlace as bs cs = some (tripled as bs cs) := by
  rw [tripled_eq_map]
  refine rowsByPlace_eq (fun n hn => ?_) fun n hn i hi => ?_
  · obtain ⟨m, hm, hn⟩ := Except.bind_eq_ok_iff.1 hn
    exact length_tripled hm hn
  · obtain ⟨has, hbs, hcs⟩ := covers_of_commonLength_bind hn
    obtain ⟨a, ha⟩ := has.inRange i hi
    obtain ⟨b, hb⟩ := hbs.inRange i hi
    obtain ⟨c, hc⟩ := hcs.inRange i hi
    have hrow : ((stretch n as).zip ((stretch n bs).zip (stretch n cs)))[i]? =
        some (a, b, c) := by
      simp only [List.getElem?_zip_eq_some, getElem?_stretch hi]
      exact ⟨ha, hb, hc⟩
    rw [hrow, ha, hb, hc]
    rfl

end

end Broadcast

open Broadcast

structure Condition.Ranges (db : Database) (c : Condition) (negated : Bool)
    (vs lows highs : List Value) : Prop where
  op : c.op = .between negated
  values : c.left.values db = .ok vs
  range : ∃ r, c.right = .condition r ∧ r.left.values db = .ok lows ∧ r.right.values db = .ok highs

theorem Condition.Ranges.mask_eq {db : Database} {c : Condition} {negated : Bool}
    {vs lows highs : List Value} (h : c.Ranges db negated vs lows highs) :
    c.mask db = tripled vs lows highs >>=
      testAll fun (v, low, high) => Cell.between negated v low high := by
  obtain ⟨left, op, right, label⟩ := c
  obtain ⟨hop, hvs, ⟨low, rop, high, rlabel⟩, hright, hlows, hhighs⟩ := h
  dsimp only at hop hvs hright hlows hhighs
  subst hop hright
  simp only [Condition.mask, hvs, hlows, hhighs]
  rfl

/-- Lengths are joined in any order, and a scalar adds nothing to a join. Vectors whose lengths have
one are read in range for every row, and give a row for each: two of them for arithmetic and
comparisons, three for BETWEEN. -/
theorem Broadcast.isJoin_and_covers :
    IsJoin commonLength ∧
      (∀ (vs ws : List Value) n, commonLength vs.length ws.length = .ok n →
        Covers n vs ∧ Covers n ws ∧
          ∃ ps, pairedByPlace vs ws = some (.ok ps) ∧ paired vs ws = .ok ps ∧ ps.length = n) ∧
      ∀ (db : Database) (c : Condition) negated vs lows highs n,
        c.Ranges db negated vs lows highs →
        (commonLength vs.length lows.length >>= (commonLength · highs.length)) = .ok n →
        Covers n vs ∧ Covers n lows ∧ Covers n highs ∧
          ∃ ts, tripledByPlace vs lows highs = some (.ok ts) ∧ ts.length = n ∧
            c.mask db = testAll (fun (v, low, high) => Cell.between negated v low high) ts ∧
            ∀ mask, c.mask db = .ok mask → mask.length = n := by
  refine ⟨isJoin_commonLength, fun vs ws n hn => ?_, fun db c negated vs lows highs n h hn => ?_⟩
  · obtain ⟨hvs, hws⟩ := covers_of_commonLength hn
    have hpaired := paired_eq_ok_iff.2 ⟨n, hn, rfl⟩
    exact ⟨hvs, hws, _, by rw [pairedByPlace_eq, hpaired], hpaired, length_zip_stretch hn⟩
  · obtain ⟨hvs, hlows, hhighs⟩ := covers_of_commonLength_bind hn
    obtain ⟨m, hm, hn⟩ := Except.bind_eq_ok_iff.1 hn
    have htripled := tripled_eq_ok_iff.2 ⟨m, n, hm, hn, rfl⟩
    have hlength := length_tripled hm hn
    have hmask := h.mask_eq
    rw [htripled] at hmask
    refine ⟨hvs, hlows, hhighs, _, by rw [tripledByPlace_eq, htripled], hlength, hmask,
      fun mask h => ?_⟩
    exact (length_testAll (hmask.symm.trans h)).trans hlength

/-- A scalar beside a column without rows, and a column of lower ends between two scalars. -/
theorem Broadcast.isJoin_and_covers_scalars :
    let norows : List Value := []
    let five : List Value := [.integer 5]
    let lows : List Value := [.integer 1, .null, .integer 9]
    let highs : List Value := [.integer 7]
    let c := Condition.between (.literal (.int 5)) false (.series ⟨lows, none⟩) (.literal (.int 7))
    let db : Database := { name := "main" }
    Alike (commonLength 2 3 >>= (commonLength · 1)) (commonLength 3 1 >>= commonLength 2) ∧
      commonLength norows.length five.length = .ok 0 ∧ Covers 0 five ∧
      (∃ ps, pairedByPlace norows five = some (.ok ps) ∧ paired norows five = .ok ps ∧
        ps.length = 0) ∧
      c.Ranges db false five lows highs ∧
      (commonLength five.length lows.length >>= (commonLength · highs.length)) = .ok 3 ∧
      Covers 3 five ∧ c.mask db = .ok [true, false, false] ∧
      ∃ ts, tripledByPlace five lows highs = some (.ok ts) ∧ ts.length = 3 ∧
        c.mask db = testAll (fun (v, low, high) => Cell.between false v low high) ts ∧
        ∀ mask, c.mask db = .ok mask → mask.length = 3 := by
  intro norows five lows highs c db
  have hempty : commonLength norows.length five.length = .ok 0 := rfl
  have hranges : c.Ranges db false five lows highs := ⟨rfl, rfl, _, rfl, rfl, rfl⟩
  have hthree : (commonLength five.length lows.length >>= (commonLength · highs.length)) = .ok 3 :=
    rfl
  obtain ⟨hjoin, hpairs, htriples⟩ := isJoin_and_covers
  obtain ⟨-, hscalar, hps⟩ := hpairs norows five 0 hempty
  obtain ⟨hfive, -, -, hts⟩ := htriples db c false five lows highs 3 hranges hthree
  exact ⟨hjoin.assoc 2 3 1, hempty, hscalar, hps, hranges, hthree, hfive, rfl, hts⟩

end Tabular
