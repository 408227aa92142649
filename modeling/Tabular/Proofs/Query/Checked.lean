import Tabular.Query.Build
import Tabular.Proofs.Query.Failures

/-!
Conditions that are checked when they are built. Evaluation expects operands of certain shapes, and
the check asks for the same shapes, so what still fails fails on what the tables hold. The one
exception is a pattern with tags: the check sees the text below them, and evaluation what they make
of it.
-/
namespace Tabular

open Tabular.Except

def TestOp.isBetween : TestOp → Bool
  | .between _ => true
  | _ => false

mutual

/-- The conditions in an operand, through expressions and nested queries. -/
def Operand.nodes : Operand → List Condition
  | .expression e => e.nodes
  | .condition c => c.nodes
  | .subquery p => p.nodes
  | .field _ | .series _ | .literal _ | .list _ => []

def Expression.nodes : Expression → List Condition
  | ⟨left, _, right, _⟩ => left.nodes ++ right.nodes

/-- The condition itself comes first. -/
def Condition.nodes : Condition → List Condition
  | ⟨left, op, right, label⟩ =>
    ⟨left, op, right, label⟩ ::
      (left.nodes ++ if op.isBetween then right.rangeNodes else right.nodes)

/-- A range is no condition of its own: BETWEEN reads its ends. -/
def Operand.rangeNodes : Operand → List Condition
  | .condition c => c.endNodes
  | .expression e => e.nodes
  | .subquery p => p.nodes
  | .field _ | .series _ | .literal _ | .list _ => []

def Condition.endNodes : Condition → List Condition
  | ⟨low, _, high, _⟩ => low.nodes ++ high.nodes

def FieldTest.nodes : FieldTest → List Condition
  | .inQuery _ p => p.nodes
  | .compare .. | .like .. | .oneOf .. | .between .. | .isNull _ => []

def Predicate.nodes : Predicate → List Condition
  | .bare _ => []
  | .test _ t => t.nodes
  | .condition c => c.nodes

def PredicateTree.nodes : PredicateTree → List Condition
  | .leaf p => p.nodes
  | .group _ members => PredicateTree.nodesOfAll members

def PredicateTree.nodesOfAll : List PredicateTree → List Condition
  | [] => []
  | member :: members => member.nodes ++ PredicateTree.nodesOfAll members

def Filter.nodes : Filter → List Condition
  | .all => []
  | .tree root => root.nodes

def Projection.nodes : Projection → List Condition
  | .column _ => []
  | .computed e => e.nodes

def Projection.nodesOfAll : List Projection → List Condition
  | [] => []
  | p :: ps => p.nodes ++ Projection.nodesOfAll ps

def Selection.nodes : Selection → List Condition
  | .columns ps => Projection.nodesOfAll ps
  | .star | .aggregates _ => []

def Plan.nodes : Plan → List Condition
  | ⟨selection, _, filter, _, _⟩ => selection.nodes ++ filter.nodes

end

theorem Condition.mem_nodes : ∀ c : Condition, c ∈ c.nodes
  | ⟨_, _, _, _⟩ => List.mem_cons_self

section

variable {d : Condition}

mutual

theorem Operand.nodes_subset : ∀ o : Operand, d ∈ o.nodes → d.nodes ⊆ o.nodes
  | .expression e, h => e.nodes_subset h
  | .condition c, h => c.nodes_subset h
  | .subquery p, h => p.nodes_subset h
  | .field _, h => nomatch h
  | .series _, h => nomatch h
  | .literal _, h => nomatch h
  | .list _, h => nomatch h

theorem Expression.nodes_subset : ∀ e : Expression, d ∈ e.nodes → d.nodes ⊆ e.nodes
  | ⟨left, _, right, _⟩, h => by
    rcases List.mem_append.1 h with h | h
    · exact List.subset_append_of_subset_left _ (left.nodes_subset h)
    · exact List.subset_append_of_subset_right _ (right.nodes_subset h)

theorem Condition.nodes_subset : ∀ c : Condition, d ∈ c.nodes → d.nodes ⊆ c.nodes
  | ⟨left, op, right, label⟩, h => by
    rcases List.mem_cons.1 h with rfl | h
    · exact List.Subset.refl _
    refine List.subset_cons_of_subset _ ?_
    rcases List.mem_append.1 h with h | h
    · exact List.subset_append_of_subset_left _ (left.nodes_subset h)
    refine List.subset_append_of_subset_right _ ?_
    by_cases hop : op.isBetween
    · rw [if_pos hop] at h ⊢
      exact right.rangeNodes_subset h
    · rw [if_neg hop] at h ⊢
      exact right.nodes_subset h

theorem Operand.rangeNodes_subset : ∀ o : Operand, d ∈ o.rangeNodes → d.nodes ⊆ o.rangeNodes
  | .expression e, h => e.nodes_subset h
  | .condition c, h => c.endNodes_subset h
  | .subquery p, h => p.nodes_subset h
  | .field _, h => nomatch h
  | .series _, h => nomatch h
  | .literal _, h => nomatch h
  | .list _, h => nomatch h

theorem Condition.endNodes_subset : ∀ c : Condition, d ∈ c.endNodes → d.nodes ⊆ c.endNodes
  | ⟨low, _, high, _⟩, h => by
    rcases List.mem_append.1 h with h | h
    · exact List.subset_append_of_subset_left _ (low.nodes_subset h)
    · exact List.subset_append_of_subset_right _ (high.nodes_subset h)

theorem FieldTest.nodes_subset : ∀ t : FieldTest, d ∈ t.nodes → d.nodes ⊆ t.nodes
  | .inQuery _ p, h => p.nodes_subset h
  | .compare .., h => nomatch h
  | .like .., h => nomatch h
  | .oneOf .., h => nomatch h
  | .between .., h => nomatch h
  | .isNull _, h => nomatch h

theorem Predicate.nodes_subset : ∀ p : Predicate, d ∈ p.nodes → d.nodes ⊆ p.nodes
  | .bare _, h => nomatch h
  | .test _ t, h => t.nodes_subset h
  | .condition c, h => c.nodes_subset h

theorem PredicateTree.nodes_subset : ∀ root : PredicateTree, d ∈ root.nodes →
    d.nodes ⊆ root.nodes
  | .leaf p, h => p.nodes_subset h
  | .group _ members, h => PredicateTree.nodesOfAll_subset members h

theorem PredicateTree.nodesOfAll_subset : ∀ members : List PredicateTree,
    d ∈ PredicateTree.nodesOfAll members → d.nodes ⊆ PredicateTree.nodesOfAll members
  | [], h => nomatch h
  | member :: members, h => by
    rcases List.mem_append.1 h with h | h
    · exact List.subset_append_of_subset_left _ (member.nodes_subset h)
    · exact List.subset_append_of_subset_right _ (PredicateTree.nodesOfAll_subset members h)

theorem Filter.nodes_subset : ∀ f : Filter, d ∈ f.nodes → d.nodes ⊆ f.nodes
  | .all, h => nomatch h
  | .tree root, h => root.nodes_subset h

theorem Projection.nodes_subset : ∀ p : Projection, d ∈ p.nodes → d.nodes ⊆ p.nodes
  | .column _, h => nomatch h
  | .computed e, h => e.nodes_subset h

theorem Projection.nodesOfAll_subset : ∀ ps : List Projection, d ∈ Projection.nodesOfAll ps →
    d.nodes ⊆ Projection.nodesOfAll ps
  | [], h => nomatch h
  | p :: ps, h => by
    rcases List.mem_append.1 h with h | h
    · exact List.subset_append_of_subset_left _ (p.nodes_subset h)
    · exact List.subset_append_of_subset_right _ (Projection.nodesOfAll_subset ps h)

theorem Selection.nodes_subset : ∀ s : Selection, d ∈ s.nodes → d.nodes ⊆ s.nodes
  | .columns ps, h => Projection.nodesOfAll_subset ps h
  | .star, h => nomatch h
  | .aggregates _, h => nomatch h

theorem Plan.nodes_subset : ∀ p : Plan, d ∈ p.nodes → d.nodes ⊆ p.nodes
  | ⟨selection, _, filter, _, _⟩, h => by
    rcases List.mem_append.1 h with h | h
    · exact List.subset_append_of_subset_left _ (selection.nodes_subset h)
    · exact List.subset_append_of_subset_right _ (filter.nodes_subset h)

end

end

def Operand.isTextPattern : Operand → Bool
  | .literal raw =>
    match raw.store with
    | .ok (.text _) | .error _ => true
    | .ok _ => false
  | _ => false

theorem Operand.pattern_failsOnData {o : Operand} (h : o.isTextPattern = true) :
    FailsOnData o.pattern := by
  cases o with
  | literal raw =>
    refine raw.store_failsOnData.bind fun v hv => ?_
    cases v with
    | text s => exact fails_ok _
    | _ => simp [isTextPattern, hv] at h
  | _ => cases h

def Condition.readsPattern (c : Condition) : Bool :=
  match c.op with
  | .like _ => c.right.isTextPattern
  | _ => true

/-- What evaluation expects of the operands. -/
def Condition.Fit (c : Condition) : Prop :=
  c.op.fits c.left c.right = true ∧ c.readsPattern = true

section

variable (db : Database)

mutual

theorem Operand.values_failsOnData : ∀ o : Operand, (∀ d ∈ o.nodes, d.Fit) →
    FailsOnData (o.values db)
  | .field f, _ =>
    (db.table_failsOnData f.table).bind fun t _ => t.columnCells_failsOnData f.column
  | .expression e, h => e.values_failsOnData h
  | .condition c, h => (c.mask_failsOnData h).bind fun _ _ => fails_ok _
  | .series _, _ => fails_ok _
  | .literal raw, _ => raw.store_failsOnData.bind fun _ _ => fails_ok _
  | .list _, _ => fails_mapM fun raw _ => raw.store_failsOnData
  | .subquery p, h => (p.run_failsOnData h).bind fun _ _ => fails_ok _

theorem Expression.values_failsOnData : ∀ e : Expression, (∀ d ∈ e.nodes, d.Fit) →
    FailsOnData (e.values db)
  | ⟨left, op, right, _⟩, h => by
    obtain ⟨hleft, hright⟩ := List.forall_mem_append.1 h
    refine (left.values_failsOnData hleft).bind fun vs _ => ?_
    refine (right.values_failsOnData hright).bind fun ws _ => ?_
    refine (Broadcast.paired_failsOnData vs ws).bind fun pairs _ => ?_
    exact fails_mapM fun p _ => Cell.arithmetic_failsOnData op p.1 p.2

theorem Operand.mask_failsOnData : ∀ o : Operand, o.isCondition = true →
    (∀ d ∈ o.nodes, d.Fit) → FailsOnData (o.mask db)
  | .condition c, _, h => c.mask_failsOnData h

theorem Condition.mask_failsOnData : ∀ c : Condition, (∀ d ∈ c.nodes, d.Fit) →
    FailsOnData (c.mask db)
  | ⟨left, .compare c, right, label⟩, h => by
    obtain ⟨-, h⟩ := List.forall_mem_cons.1 h
    obtain ⟨hleft, hright⟩ := List.forall_mem_append.1 h
    refine (left.values_failsOnData hleft).bind fun vs _ => ?_
    refine (right.values_failsOnData hright).bind fun ws _ => ?_
    refine (Broadcast.paired_failsOnData vs ws).bind fun pairs _ => ?_
    exact Broadcast.fails_testAll (fun p => Cell.test_failsOnData c p.1 p.2) pairs
  | ⟨left, .is negated, right, label⟩, h => by
    obtain ⟨-, h⟩ := List.forall_mem_cons.1 h
    obtain ⟨hleft, hright⟩ := List.forall_mem_append.1 h
    refine (left.values_failsOnData hleft).bind fun vs _ => ?_
    refine (right.values_failsOnData hright).bind fun ws _ => ?_
    exact (Broadcast.paired_failsOnData vs ws).bind fun _ _ => fails_ok _
  | ⟨left, .join c, right, label⟩, h => by
    obtain ⟨⟨hfits, -⟩, h⟩ := List.forall_mem_cons.1 h
    obtain ⟨hleft, hright⟩ := List.forall_mem_append.1 h
    obtain ⟨hl, hr⟩ := Bool.and_eq_true_iff.1 hfits
    refine (left.mask_failsOnData hl hleft).bind fun as _ => ?_
    refine (right.mask_failsOnData hr hright).bind fun bs _ => ?_
    exact Broadcast.combine_failsOnData c as bs
  | ⟨left, .between negated, right, label⟩, h => by
    obtain ⟨⟨hfits, -⟩, h⟩ := List.forall_mem_cons.1 h
    obtain ⟨hleft, hright⟩ := List.forall_mem_append.1 h
    match right, hfits, hright with
    | .condition ⟨low, _, high, _⟩, _, hright =>
      obtain ⟨hlow, hhigh⟩ := List.forall_mem_append.1 hright
      refine (left.values_failsOnData hleft).bind fun vs _ => ?_
      refine (low.values_failsOnData hlow).bind fun lows _ => ?_
      refine (high.values_failsOnData hhigh).bind fun highs _ => ?_
      refine (Broadcast.tripled_failsOnData vs lows highs).bind fun triples _ => ?_
      exact Broadcast.fails_testAll
        (fun p => Cell.between_failsOnData negated p.1 p.2.1 p.2.2) triples
  | ⟨left, .like negated, right, label⟩, h => by
    obtain ⟨⟨-, hreads⟩, h⟩ := List.forall_mem_cons.1 h
    obtain ⟨hleft, -⟩ := List.forall_mem_append.1 h
    refine (Operand.pattern_failsOnData hreads).bind fun pattern _ => ?_
    exact (left.values_failsOnData hleft).bind fun _ _ => fails_ok _
  | ⟨left, .oneOf negated, right, label⟩, h => by
    obtain ⟨-, h⟩ := List.forall_mem_cons.1 h
    obtain ⟨hleft, hright⟩ := List.forall_mem_append.1 h
    refine (left.values_failsOnData hleft).bind fun vs _ => ?_
    exact (right.values_failsOnData hright).bind fun _ _ => fails_ok _

theorem FieldTest.mask_failsOnData (column : Column) (cells : List Value) : ∀ t : FieldTest,
    (∀ d ∈ t.nodes, d.Fit) → FailsOnData (t.mask db column cells)
  | .compare c raw, _ =>
    (column.literal raw).store_failsOnData.bind fun w _ =>
      Broadcast.fails_testAll (fun v => Cell.test_failsOnData c v w) cells
  | .like .., _ => fails_ok _
  | .oneOf .., _ =>
    (fails_mapM fun raw _ => (column.literal raw).store_failsOnData).bind fun _ _ => fails_ok _
  | .inQuery _ p, h => (p.run_failsOnData h).bind fun _ _ => fails_ok _
  | .between low high, _ =>
    (column.literal low).store_failsOnData.bind fun low _ =>
      (column.literal high).store_failsOnData.bind fun high _ =>
        Broadcast.fails_testAll (fun v => Cell.between_failsOnData false v low high) cells
  | .isNull _, _ => fails_ok _

theorem Predicate.mask_failsOnData (t : Table) : ∀ p : Predicate, (∀ d ∈ p.nodes, d.Fit) →
    FailsOnData (p.mask db t)
  | .bare field, _ => (t.fieldCells_failsOnData field).bind fun _ _ => fails_ok _
  | .test field test, h => by
    unfold Predicate.mask
    split
    · exact fails_error rfl
    · rename_i column _
      exact (t.columnCells_failsOnData field).bind fun cells _ =>
        test.mask_failsOnData column cells h
  | .condition c, h =>
    (c.mask_failsOnData h).bind fun mask _ => Broadcast.fit_failsOnData t.size mask

theorem PredicateTree.mask_failsOnData (t : Table) : ∀ root : PredicateTree,
    (∀ d ∈ root.nodes, d.Fit) → FailsOnData (root.mask db t)
  | .leaf p, h => p.mask_failsOnData t h
  | .group connective members, h => PredicateTree.join_failsOnData t connective members h _

theorem PredicateTree.join_failsOnData (t : Table) (connective : Connective) :
    ∀ members : List PredicateTree, (∀ d ∈ PredicateTree.nodesOfAll members, d.Fit) →
      ∀ mask : List Bool, FailsOnData (PredicateTree.join db t connective mask members)
  | [], _, _ => fails_ok _
  | member :: members, h, mask => by
    obtain ⟨hmember, hmembers⟩ := List.forall_mem_append.1 h
    exact (member.mask_failsOnData t hmember).bind fun _ _ =>
      PredicateTree.join_failsOnData t connective members hmembers _

theorem Filter.mask_failsOnData (t : Table) : ∀ f : Filter, (∀ d ∈ f.nodes, d.Fit) →
    FailsOnData (f.mask db t)
  | .all, _ => fails_ok _
  | .tree root, h => root.mask_failsOnData t h

theorem Projection.read_failsOnData (t : Table) (places : List Nat) : ∀ p : Projection,
    (∀ d ∈ p.nodes, d.Fit) → FailsOnData (p.read db t places)
  | .column name, _ => t.project_failsOnData places name
  | .computed e, h =>
    (e.values_failsOnData h).bind fun vs _ =>
      (t.spread_failsOnData vs places).bind fun _ _ => fails_ok _

theorem Projection.readAll_failsOnData (t : Table) (places : List Nat) :
    ∀ ps : List Projection, (∀ d ∈ Projection.nodesOfAll ps, d.Fit) →
      FailsOnData (Projection.readAll db t places ps)
  | [], _ => fails_ok _
  | p :: ps, h => by
    obtain ⟨hp, hps⟩ := List.forall_mem_append.1 h
    exact (p.read_failsOnData t places hp).bind fun _ _ =>
      (Projection.readAll_failsOnData t places ps hps).bind fun _ _ => fails_ok _

theorem Selection.project_failsOnData (t : Table) (places : List Nat) : ∀ s : Selection,
    (∀ d ∈ s.nodes, d.Fit) → FailsOnData (s.project db t places)
  | .star, _ =>
    (fails_mapM fun c _ => t.project_failsOnData places c.name).bind fun _ _ => fails_ok _
  | .columns ps, h =>
    (Projection.readAll_failsOnData t places ps h).bind fun _ _ => fails_ok _
  | .aggregates _, _ =>
    (fails_mapM fun a _ => t.aggregate_failsOnData places a).bind fun _ _ => fails_ok _

theorem Plan.run_failsOnData : ∀ p : Plan, (∀ d ∈ p.nodes, d.Fit) → FailsOnData (p.run db)
  | ⟨selection, table, filter, order, limit⟩, h => by
    obtain ⟨hselection, hfilter⟩ := List.forall_mem_append.1 h
    refine (db.table_failsOnData table).bind fun t _ => ?_
    refine (filter.mask_failsOnData t hfilter).bind fun mask _ => ?_
    refine (t.sortPlaces_failsOnData order _).bind fun places _ => ?_
    exact selection.project_failsOnData t _ hselection

end

end

/-- Whether the check takes the condition. Its label may have been given later. -/
def Condition.Accepted (c : Condition) : Prop :=
  Condition.of c.left c.op c.right = .ok { c with label := none }

theorem Condition.accepted_iff {c : Condition} :
    c.Accepted ↔ c.op.fits c.left c.right = true := by
  unfold Accepted Condition.of
  split <;> simp_all

/-- An accepted pattern that is not read as a text is refused over every database. -/
theorem Condition.mask_of_not_readsPattern {c : Condition} (accepted : c.Accepted)
    (h : c.readsPattern = false) : ∃ v, ∀ db, c.mask db = .error (.patternNotText v) := by
  obtain ⟨left, op, right, label⟩ := c
  rw [accepted_iff] at accepted
  cases op with
  | like negated =>
    cases right with
    | literal raw =>
      cases hs : raw.store with
      | error e => simp [readsPattern, Operand.isTextPattern, hs] at h
      | ok v =>
        refine ⟨v, fun db => ?_⟩
        have hpattern : (Operand.literal raw).pattern = .error (.patternNotText v) := by
          cases v with
          | text s => simp [readsPattern, Operand.isTextPattern, hs] at h
          | _ => simp only [Operand.pattern, hs]; rfl
        simp only [mask, hpattern]
        rfl
    | _ => cases accepted
  | _ => cases h

/-- In a tree of accepted conditions none meets operands of a shape that it does not expect, exactly
if every pattern is read as a text. All that can fail then is the data. -/
theorem Condition.not_isMisshapen_iff {c : Condition} (accepted : ∀ d ∈ c.nodes, d.Accepted) :
    ((∀ d ∈ c.nodes, ∀ db e, d.mask db = .error e → e.isMisshapen = false) ↔
      ∀ d ∈ c.nodes, d.readsPattern = true) ∧
    ((∀ d ∈ c.nodes, d.readsPattern = true) →
      ∀ db e, c.mask db = .error e → e.isOfData = true) := by
  have hdata : (∀ d ∈ c.nodes, d.readsPattern = true) → ∀ d ∈ c.nodes, ∀ db,
      FailsOnData (d.mask db) := fun hreads d hd db =>
    d.mask_failsOnData db fun e he =>
      have he := Condition.nodes_subset c hd he
      ⟨accepted_iff.1 (accepted e he), hreads e he⟩
  refine ⟨⟨fun h d hd => ?_, fun hreads d hd db e he => ?_⟩, fun hreads db => ?_⟩
  · by_contra hreads
    obtain ⟨v, hv⟩ := mask_of_not_readsPattern (accepted d hd) (Bool.eq_false_iff.2 hreads)
    exact nomatch h d hd { name := "main" } _ (hv _)
  · exact Error.isMisshapen_of_isOfData (hdata hreads d hd db e he)
  · exact hdata hreads c c.mem_nodes db

def someChapters : Condition :=
  .join .and
    (.between (.field ⟨"chapters", "number"⟩) false (.literal (.int 1)) (.literal (.int 3)))
    ⟨.field ⟨"chapters", "title"⟩, .oneOf false, .subquery {
      selection := .columns [.column "title"]
      table := "chapters"
      filter := .tree (.leaf (.condition
        ⟨.field ⟨"chapters", "title"⟩, .like false, .literal (.tagged .text (.text "%1%")), none⟩))
      order := none
      limit := none }, some "numbered"⟩

theorem Condition.not_isMisshapen_iff_chapters :
    (∀ d ∈ someChapters.nodes, d.Accepted) ∧ someChapters.nodes.length = 4 ∧
      (∀ d ∈ someChapters.nodes, ∀ db e, d.mask db = .error e → e.isMisshapen = false) ∧
      ∀ db e, someChapters.mask db = .error e → e.isOfData = true := by
  have haccepted : ∀ d ∈ someChapters.nodes, d.Accepted := by
    simp only [accepted_iff]
    decide
  have hreads : ∀ d ∈ someChapters.nodes, d.readsPattern = true := by decide
  obtain ⟨hshape, hdata⟩ := not_isMisshapen_iff haccepted
  exact ⟨haccepted, by decide, hshape.2 hreads, hdata hreads⟩

/-- The pattern is a text with a tag that makes it a number. -/
theorem Condition.mask_taggedPattern :
    let c : Condition :=
      ⟨.series ⟨[.text "12"], none⟩, .like false, .literal (.tagged .integer (.text "12")), none⟩
    (∀ d ∈ c.nodes, d.Accepted) ∧
      c.mask { name := "main" } = .error (.patternNotText (.integer 12)) ∧
      (Error.patternNotText (.integer 12)).isMisshapen = true := by
  intro c
  refine ⟨?_, by decide, rfl⟩
  simp only [accepted_iff]
  decide

end Tabular
