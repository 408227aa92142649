import Tabular.Query.Build
import Tabular.Proofs.Query.Rowwise
import Tabular.Proofs.Query.Places
import Mathlib.Data.List.Chain

/-!
Filters as they are built, call by call. Predicates under one connective are kept in a group, and a
keyword operator changes the last predicate of what has been built so far. What is built still reads
from left to right, where a keyword operator belongs to the bare field right before it.
-/
namespace Tabular

inductive Call where
  | predicate (connective : Connective) (p : Predicate)
  | keyword (t : FieldTest)

def Clause.call : Clause → Except Error Call
  | .text connective s => (Predicate.parse s).map (.predicate connective)
  | .condition connective c => .ok (.predicate connective (.condition c))
  | .keyword t => .ok (.keyword t)

namespace Call

def isKeyword : Call → Bool
  | .keyword _ => true
  | .predicate .. => false

def isBare : Call → Bool
  | .predicate _ (.bare _) => true
  | _ => false

/-- A keyword operator comes right after a bare field. -/
def Admits (a b : Call) : Prop := b.isKeyword = true → a.isBare = true

instance (a b : Call) : Decidable (a.Admits b) :=
  inferInstanceAs (Decidable (b.isKeyword = true → a.isBare = true))

/-- Why a call takes no keyword operator: it is a condition, or it has an operator already. -/
def refusal : Call → ErrorKind
  | .predicate _ (.condition _) => .danglingOperator
  | _ => .ambiguousOperator

/-- The predicates that are meant, each with the connective before it. A bare field and the keyword
operator after it are one test. -/
def predicates : List Call → List (Connective × Predicate)
  | [] => []
  | .predicate connective (.bare field) :: .keyword t :: calls =>
    (connective, .test field t) :: predicates calls
  | .predicate connective p :: calls => (connective, p) :: predicates calls
  | .keyword _ :: calls => predicates calls

/-- Whether every keyword operator has the bare field that it needs. -/
def wellPlaced : List Call → Bool
  | [] => true
  | .predicate _ (.bare _) :: .keyword _ :: calls => wellPlaced calls
  | .predicate _ _ :: calls => wellPlaced calls
  | .keyword _ :: _ => false

theorem wellPlaced_iff {calls : List Call} : wellPlaced calls = true ↔
    (∀ call ∈ calls.head?, call.isKeyword = false) ∧ calls.IsChain Admits := by
  fun_induction wellPlaced calls with
  | case1 => simp
  | case2 c field t calls ih =>
    rw [ih]
    cases calls <;> simp [List.isChain_cons_cons, Admits, isKeyword, isBare]
  | case3 c p calls hnext ih =>
    rw [ih]
    cases calls with
    | nil => simp [isKeyword]
    | cons call calls =>
      have hadmits : (predicate c p).Admits call ↔ call.isKeyword = false := by
        cases call with
        | predicate c' p' => simp [Admits, isKeyword]
        | keyword t =>
          cases p with
          | bare field => exact absurd rfl (hnext field t calls rfl)
          | _ => simp [Admits, isKeyword, isBare]
      simp [List.isChain_cons_cons, hadmits, isKeyword]
  | case4 t calls => simp [isKeyword]

theorem exists_last_predicate {calls : List Call} (placed : wellPlaced calls = true) {last : Call}
    (hlast : calls.getLast? = some last) (taken : last.isBare = false) :
    ∃ ps c q, predicates calls = ps ++ [(c, q)] ∧
      ∀ t, ∃ e, q.attach t = .error e ∧ e.kind = last.refusal := by
  fun_induction wellPlaced calls with
  | case1 => cases hlast
  | case2 c field t calls ih =>
    cases calls with
    | nil =>
      cases hlast
      exact ⟨[], c, _, rfl, fun _ => ⟨_, rfl, rfl⟩⟩
    | cons call calls =>
      obtain ⟨ps, c', q, hps, hq⟩ := ih placed (by simpa using hlast)
      exact ⟨(c, .test field t) :: ps, c', q, by rw [predicates, hps, List.cons_append], hq⟩
  | case3 c p calls hnext ih =>
    cases calls with
    | nil =>
      cases hlast
      cases p with
      | bare field => cases taken
      | test field t => exact ⟨[], c, _, rfl, fun _ => ⟨_, rfl, rfl⟩⟩
      | condition cond => exact ⟨[], c, _, rfl, fun _ => ⟨_, rfl, rfl⟩⟩
    | cons call calls =>
      obtain ⟨ps, c', q, hps, hq⟩ := ih placed (by simpa using hlast)
      exact ⟨(c, p) :: ps, c', q, by rw [predicates, hps, List.cons_append]; exact hnext, hq⟩
  | case4 t calls => cases placed

end Call

theorem exists_first_break {α : Type} {R : α → α → Prop} {l : List α} (h : ¬ l.IsChain R) :
    ∃ before a b after, l = before ++ a :: b :: after ∧ (before ++ [a]).IsChain R ∧ ¬ R a b := by
  induction l with
  | nil => exact absurd .nil h
  | cons x l ih =>
    cases l with
    | nil => exact absurd (.singleton x) h
    | cons y l =>
      by_cases hxy : R x y
      · obtain ⟨before, a, b, after, hl, hchain, hab⟩ :=
          ih fun hl => h (List.isChain_cons_cons.2 ⟨hxy, hl⟩)
        refine ⟨x :: before, a, b, after, by rw [hl, List.cons_append], ?_, hab⟩
        cases before with
        | nil =>
          obtain ⟨rfl, -⟩ := List.cons.inj hl
          exact List.isChain_pair.2 hxy
        | cons z before =>
          obtain ⟨rfl, -⟩ := List.cons.inj hl
          exact List.isChain_cons_cons.2 ⟨hxy, hchain⟩
      · exact ⟨[], x, y, l, rfl, .singleton x, hxy⟩

/-- The truth of predicates in a row, joined from left to right. -/
def leftToRight (holds : Predicate → Bool) : List (Connective × Predicate) → Bool
  | [] => true
  | first :: others =>
    others.foldl (fun b next =>
      match next.1 with
      | .and => b && holds next.2
      | .or => b || holds next.2) (holds first.2)

theorem leftToRight_cons (holds : Predicate → Bool) (first : Connective × Predicate)
    (others : List (Connective × Predicate)) :
    leftToRight holds (first :: others) =
      others.foldl (fun b next => next.1.apply b (holds next.2)) (holds first.2) := by
  refine congrArg (others.foldl · (holds first.2)) (funext fun b => funext fun next => ?_)
  cases next.1 <;> rfl

/-- Whether the mask of a predicate marks a row. -/
def Predicate.marks (p : Predicate) (db : Database) (t : Table) (i : Nat) : Bool :=
  match p.mask db t with
  | .ok mask => mask[i]?.getD false
  | .error _ => false

namespace Filter

def take (f : Filter) : Call → Except Error Filter
  | .predicate connective p => .ok (f.extend connective p)
  | .keyword t => f.attach t

def joinAll (f : Filter) (ps : List (Connective × Predicate)) : Filter :=
  ps.foldl (fun f p => f.extend p.1 p.2) f

theorem add_eq_take {f : Filter} {clause : Clause} {call : Call} (h : clause.call = .ok call) :
    f.add clause = f.take call := by
  cases clause with
  | text connective s =>
    obtain ⟨p, hp, rfl⟩ := Except.map_eq_ok_iff.1 h
    simp [add, take, hp, Except.map]
  | condition connective c =>
    cases h
    rfl
  | keyword t =>
    cases h
    rfl

theorem foldlM_add_eq {clauses : List Clause} {calls : List Call}
    (h : List.Forall₂ (fun clause call => clause.call = .ok call) clauses calls) (f : Filter) :
    clauses.foldlM add f = calls.foldlM take f := by
  induction h generalizing f with
  | nil => rfl
  | cons hcall _ ih => simp only [List.foldlM_cons, add_eq_take hcall, ih]

theorem build_eq_of_calls {clauses : List Clause} {calls : List Call}
    (h : clauses.mapM Clause.call = .ok calls) : build clauses = calls.foldlM take .all :=
  foldlM_add_eq (Except.mapM_eq_ok_iff.1 h) .all

/-- Calls that are well placed build the predicates that are meant. -/
theorem foldlM_take {calls : List Call} (placed : Call.wellPlaced calls = true) (f : Filter) :
    calls.foldlM take f = .ok (f.joinAll (Call.predicates calls)) := by
  fun_induction Call.wellPlaced calls generalizing f with
  | case1 => rfl
  | case2 c field t calls ih =>
    have hstep : (f.extend c (.bare field)).attach t = .ok (f.extend c (.test field t)) := by
      rw [attach_extend]
      rfl
    simp only [List.foldlM_cons, take, bind, Except.bind, hstep, ih placed, Call.predicates,
      joinAll, List.foldl_cons]
  | case3 c p calls hnext ih =>
    simp only [List.foldlM_cons, take, bind, Except.bind, ih placed]
    rw [Call.predicates]
    · rfl
    · exact hnext
  | case4 t calls => cases placed

end Filter

section

variable {db : Database} {t : Table}

theorem Broadcast.mem_places_map_range {n i : Nat} {b : Nat → Bool} :
    i ∈ places ((List.range n).map b) ↔ i < n ∧ b i = true := by
  simp [mem_places_iff, List.getElem?_eq_some_iff]

theorem Predicate.mask_eq_marks {p : Predicate} {mask : List Bool} (h : p.mask db t = .ok mask) :
    mask = (List.range t.size).map (p.marks db t) := by
  have hlength := length_mask h
  refine List.ext_getElem (by simpa using hlength) fun i hi _ => ?_
  simp [marks, h, hi]

/-- A bare field that is left without an operator counts as false. -/
theorem Predicate.marks_bare (field : String) (i : Nat) :
    (bare field).marks db t i = false := by
  unfold marks
  split
  · rename_i mask h
    obtain ⟨cells, -, h⟩ := Except.bind_eq_ok_iff.1 h
    obtain rfl := Except.pure_eq_ok_iff.1 h
    rw [List.getElem?_map]
    cases cells[i]? <;> rfl
  · rfl

namespace PredicateTree

theorem join_append (members others : List PredicateTree) (c : Connective) (mask : List Bool) :
    join db t c mask (members ++ others) =
      (do join db t c (← join db t c mask members) others) := by
  induction members generalizing mask with
  | nil => rfl
  | cons member members ih => simp only [List.cons_append, join, ih, bind_assoc]

/-- In whatever way the tree grows, its mask is joined with the one of the new predicate. -/
theorem mask_push (root : PredicateTree) (p : Predicate) (c : Connective) :
    (root.push c p).mask db t = (do
      let as ← root.mask db t
      let bs ← p.mask db t
      return List.zipWith c.apply as bs) := by
  have hnew : mask db t (.group c [root, .leaf p]) = (do
      let as ← root.mask db t
      let bs ← p.mask db t
      return List.zipWith c.apply as bs) := by
    rw [mask]
    simp only [join, mask]
    cases hroot : root.mask db t with
    | error e => rfl
    | ok as =>
      have hunit : List.zipWith c.apply (List.replicate t.size c.unit) as = as := by
        refine List.ext_getElem (by simp [length_mask hroot]) fun i _ _ => ?_
        simp
      simp only [bind, Except.bind, hunit]
      rfl
  cases root with
  | leaf q => exact hnew
  | group current members =>
    by_cases hsame : current = c
    · subst hsame
      rw [push, if_pos rfl, mask, join_append, mask]
      rfl
    · rw [push, if_neg hsame]
      exact hnew

theorem mask_foldl_push {ps : List (Connective × Predicate)}
    (evaluate : ∀ p ∈ ps, ∃ mask, p.2.mask db t = .ok mask) {root : PredicateTree} {b : Nat → Bool}
    (hroot : root.mask db t = .ok ((List.range t.size).map b)) :
    (ps.foldl (fun root p => root.push p.1 p.2) root).mask db t =
      .ok ((List.range t.size).map fun i =>
        ps.foldl (fun b p => p.1.apply b (p.2.marks db t i)) (b i)) := by
  induction ps generalizing root b with
  | nil => exact hroot
  | cons p ps ih =>
    obtain ⟨⟨bs, hp⟩, hps⟩ := List.forall_mem_cons.1 evaluate
    refine ih hps (b := fun i => p.1.apply (b i) (p.2.marks db t i)) ?_
    rw [mask_push, hroot, hp, Predicate.mask_eq_marks hp]
    simp only [bind, Except.bind, List.zipWith_map, List.zipWith_self]
    rfl

end PredicateTree

namespace Filter

theorem joinAll_tree (root : PredicateTree) (ps : List (Connective × Predicate)) :
    (tree root).joinAll ps = tree (ps.foldl (fun root p => root.push p.1 p.2) root) := by
  induction ps generalizing root with
  | nil => rfl
  | cons p ps ih => exact ih _

theorem mask_joinAll {ps : List (Connective × Predicate)}
    (evaluate : ∀ p ∈ ps, ∃ mask, p.2.mask db t = .ok mask) :
    (all.joinAll ps).mask db t =
      .ok ((List.range t.size).map fun i => leftToRight (·.marks db t i) ps) := by
  cases ps with
  | nil => simp [joinAll, mask, leftToRight]
  | cons p ps =>
    obtain ⟨⟨bs, hp⟩, hps⟩ := List.forall_mem_cons.1 evaluate
    have hleaf : (PredicateTree.leaf p.2).mask db t =
        .ok ((List.range t.size).map (p.2.marks db t)) := by
      rw [PredicateTree.mask, hp, Predicate.mask_eq_marks hp]
    have hstart : all.joinAll (p :: ps) = (tree (.leaf p.2)).joinAll ps := rfl
    simp only [leftToRight_cons, hstart, joinAll_tree, mask]
    exact PredicateTree.mask_foldl_push hps hleaf

end Filter

end

namespace Filter

theorem exists_attach_eq_error {calls : List Call} (placed : Call.wellPlaced calls = true)
    {last : Call} (hlast : calls.getLast? = some last) (taken : last.isBare = false)
    (t : FieldTest) :
    ∃ e, (all.joinAll (Call.predicates calls)).attach t = .error e ∧ e.kind = last.refusal := by
  obtain ⟨ps, c, q, hps, hq⟩ := Call.exists_last_predicate placed hlast taken
  obtain ⟨e, he, hkind⟩ := hq t
  refine ⟨e, ?_, hkind⟩
  rw [hps, joinAll, List.foldl_append]
  exact (attach_extend t _ c q).trans (by rw [he]; rfl)

/-- The first operator out of place decides the error. -/
theorem exists_foldlM_take_eq_error {calls : List Call}
    (opens : ∀ call ∈ calls.head?, call.isKeyword = false) (broken : ¬ calls.IsChain Call.Admits) :
    ∃ before last t after e, calls = before ++ last :: .keyword t :: after ∧
      (before ++ [last]).IsChain Call.Admits ∧ last.isBare = false ∧
      calls.foldlM take .all = .error e ∧ e.kind = last.refusal := by
  obtain ⟨before, last, next, after, rfl, hchain, hrefused⟩ := exists_first_break broken
  obtain ⟨hnext, htaken⟩ : next.isKeyword = true ∧ last.isBare = false := by
    simpa [Call.Admits] using hrefused
  cases next with
  | predicate c p => cases hnext
  | keyword t =>
    have hplaced : Call.wellPlaced (before ++ [last]) = true := by
      refine Call.wellPlaced_iff.2 ⟨?_, hchain⟩
      cases before <;> simpa using opens
    obtain ⟨e, he, hkind⟩ := exists_attach_eq_error hplaced (by simp) htaken t
    refine ⟨before, last, t, after, e, rfl, hchain, htaken, ?_, hkind⟩
    have hsplit : before ++ last :: .keyword t :: after =
        (before ++ [last]) ++ .keyword t :: after := by simp
    rw [hsplit, List.foldlM_append, foldlM_take hplaced]
    simp only [List.foldlM_cons, take, he, bind, Except.bind]

/-- A first predicate and what follows it build a filter exactly if every keyword operator comes
right after a bare field. The first one that does not is refused, because of the operator or the
condition before it. The filter that is built keeps the rows in which the predicates hold when they
are joined from left to right; a bare field without an operator holds nowhere. -/
theorem build_reads_leftToRight {clauses : List Clause} {c : Connective} {p : Predicate}
    {rest : List Call} (read : clauses.mapM Clause.call = .ok (.predicate c p :: rest)) :
    let calls := Call.predicate c p :: rest
    ((∃ f, build clauses = .ok f) ↔ calls.IsChain Call.Admits) ∧
      (¬ calls.IsChain Call.Admits → ∃ before last t after e,
        calls = before ++ last :: .keyword t :: after ∧ (before ++ [last]).IsChain Call.Admits ∧
        last.isBare = false ∧ build clauses = .error e ∧ e.kind = last.refusal) ∧
      (∀ f, build clauses = .ok f → ∀ db t,
        (∀ p ∈ Call.predicates calls, ∃ mask, p.2.mask db t = .ok mask) →
        ∃ mask, f.mask db t = .ok mask ∧ ∀ i, i ∈ Broadcast.places mask ↔
          i < t.size ∧ leftToRight (·.marks db t i) (Call.predicates calls) = true) ∧
      ∀ field db t i, (Predicate.bare field).marks db t i = false := by
  intro calls
  have hopens : ∀ call ∈ calls.head?, call.isKeyword = false := by simp [calls, Call.isKeyword]
  have hok : calls.IsChain Call.Admits →
      build clauses = .ok (all.joinAll (Call.predicates calls)) := by
    intro hchain
    rw [build_eq_of_calls read, foldlM_take (Call.wellPlaced_iff.2 ⟨hopens, hchain⟩)]
  have herror := exists_foldlM_take_eq_error hopens
  rw [← build_eq_of_calls read] at herror
  have hchain : ∀ f, build clauses = .ok f → calls.IsChain Call.Admits := by
    intro f hf
    by_contra hbreak
    obtain ⟨-, -, -, -, e, -, -, -, he, -⟩ := herror hbreak
    rw [he] at hf
    cases hf
  refine ⟨⟨fun ⟨f, hf⟩ => hchain f hf, fun h => ⟨_, hok h⟩⟩, herror, ?_,
    fun field db t i => Predicate.marks_bare field i⟩
  intro f hf db t evaluate
  obtain rfl := Except.ok.inj ((hok (hchain f hf)).symm.trans hf)
  exact ⟨_, mask_joinAll evaluate, fun i => Broadcast.mem_places_map_range⟩

/-- Notes after the second or with a text in r, and in any case not the fourth. -/
def ryeClauses : List Clause :=
  [.text .and "rowid > 2", .text .or "text", .keyword (.like false "r%"), .text .and "rowid",
    .keyword (.oneOf false [.int 1, .int 2, .int 3])]

def ryeCalls : List Call :=
  [.predicate .and (.test "rowid" (.compare .gt (.int 2))), .predicate .or (.bare "text"),
    .keyword (.like false "r%"), .predicate .and (.bare "rowid"),
    .keyword (.oneOf false [.int 1, .int 2, .int 3])]

theorem ryeClauses_read (more : List FieldTest) :
    (ryeClauses ++ more.map Clause.keyword).mapM Clause.call =
      .ok (ryeCalls ++ more.map Call.keyword) := by
  have hfirst : FieldPredicate.parse "rowid > 2" = .ok ⟨"rowid", some (.gt, .int 2)⟩ := by
    decide +kernel
  have hcall : Clause.call (.text .and "rowid > 2") =
      .ok (.predicate .and (.test "rowid" (.compare .gt (.int 2)))) := by
    simp [Clause.call, Predicate.parse, hfirst, Except.map]
  have hmore : List.Forall₂ (fun clause call => Clause.call clause = .ok call)
      (more.map Clause.keyword) (more.map Call.keyword) :=
    List.forall₂_map_left_iff.2 (List.forall₂_map_right_iff.2 (List.forall₂_same.2 fun _ _ => rfl))
  exact Except.mapM_eq_ok_iff.2
    (.cons hcall (.cons rfl (.cons rfl (.cons rfl (.cons rfl hmore)))))

/-- Of four notes the second and the third are kept. The last predicate alone would keep the first
as well, and from right to left the fourth would be kept. A further operator has no bare field to go
with. -/
theorem build_reads_leftToRight_notes :
    let t := Table.notes.run jotGrain
    let holds := fun i => leftToRight (·.marks grainbook t i) (Call.predicates ryeCalls)
    ryeClauses.mapM Clause.call = .ok ryeCalls ∧
      (∃ f mask, build ryeClauses = .ok f ∧ f.mask grainbook t = .ok mask ∧
        (∀ i, i ∈ Broadcast.places mask ↔ i < t.size ∧ holds i = true) ∧
        t.size = 4 ∧ holds 0 = false ∧ holds 1 = true ∧ holds 2 = true ∧ holds 3 = false) ∧
      ¬ ∃ f, build (ryeClauses ++ [.keyword (.isNull false)]) = .ok f := by
  intro t holds
  have hread : ryeClauses.mapM Clause.call = .ok ryeCalls := ryeClauses_read []
  obtain ⟨hiff, -, hmask, -⟩ := build_reads_leftToRight hread
  obtain ⟨hmore, -⟩ := build_reads_leftToRight (ryeClauses_read [.isNull false])
  have hevaluate : ∀ p ∈ Call.predicates ryeCalls, ∃ mask, p.2.mask grainbook t = .ok mask := by
    have hkey : (Predicate.test "rowid" (.compare .gt (.int 2))).mask grainbook t =
        .ok [false, false, true, true] := by decide
    have hlike : (Predicate.test "text" (.like false "r%")).mask grainbook t =
        .ok [false, true, false, true] := by decide
    have hset : (Predicate.test "rowid" (.oneOf false [.int 1, .int 2, .int 3])).mask grainbook t =
        .ok [true, true, true, false] := by decide
    simp [Call.predicates, ryeCalls, hkey, hlike, hset]
  obtain ⟨f, hf⟩ := hiff.2 (by decide)
  obtain ⟨mask, hm, hplaces⟩ := hmask f hf grainbook t hevaluate
  exact ⟨hread, ⟨f, mask, hf, hm, hplaces, by decide, by decide, by decide, by decide, by decide⟩,
    mt hmore.1 (by decide)⟩

end Filter

end Tabular
