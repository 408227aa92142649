import Tabular.Proofs.Text
import Tabular.Proofs.Written
import Tabular.Proofs.Query.Count

/-!
Aggregates and the calls that spell them. A call is read whatever its letter case and its blanks,
and an aggregate is written in one way, which is read as the same aggregate. So the text of an
aggregate belongs to no other that a text spells, and the answer of a query has its value under it.
-/
namespace Tabular

theorem AggregateFunction.ofName_name (f : AggregateFunction) : ofName f.name = .ok f := by
  cases f <;> decide

def Argument.text : Argument → String
  | .column name => name
  | .star => "*"

namespace Aggregate

variable {a b : Aggregate} {s : String} {cs name argument : List Char}

theorem toList_text (a : Aggregate) :
    a.text.toList = a.function.name.toList ++ '(' :: (a.argument.text.toList ++ [')']) := by
  rcases a with ⟨f, name | _⟩
  · simp [text, Argument.text]
  · simp [text, Argument.text]

/-- What a call can have between its parentheses, less the blanks around it. -/
structure IsArgument (cs : List Char) : Prop where
  nonempty : cs ≠ []
  trimmed : Text.trimChars cs = cs
  plain : ∀ c ∈ cs, c ≠ '(' ∧ c ≠ ')'

/-- The aggregates that some text spells. Only COUNT takes a star, and no column has this name. -/
structure Spelled (a : Aggregate) : Prop where
  argument : IsArgument a.argument.text.toList
  column : a.argument ≠ .column "*"
  star : a.argument = .star → a.function = .count

theorem parts?_trimChars (cs : List Char) : parts? (Text.trimChars cs) = parts? cs := by
  unfold parts?
  rw [Text.trimChars_trimChars]

theorem parts?_eq_some (h : parts? cs = some (name, argument)) :
    IsArgument argument ∧ '(' ∈ Text.trimChars cs ∧
      (Text.trimChars cs).getLast? = some ')' := by
  dsimp only [parts?] at h
  split at h
  case isFalse => cases h
  case isTrue hlast =>
  split at h
  case h_1 => cases h
  case h_2 opening rest hdrop =>
  split at h
  case isTrue => cases h
  case isFalse hparts =>
  cases h
  simp only [Bool.or_eq_true, List.isEmpty_iff, List.any_eq_true, decide_eq_true_eq] at hparts
  push Not at hparts
  refine ⟨⟨hparts.1.2, Text.trimChars_trimChars rest, hparts.2⟩, ?_, hlast⟩
  have hopening : opening = '(' := by
    have hhead := List.head?_dropWhile_not (fun c => decide (c ≠ '(')) (Text.trimChars cs).dropLast
    rw [hdrop] at hhead
    simpa using hhead
  have hmem : opening ∈ (Text.trimChars cs).dropLast :=
    (List.dropWhile_suffix _).mem (hdrop ▸ List.mem_cons_self)
  exact hopening ▸ List.dropLast_subset _ hmem

theorem name_plain (f : AggregateFunction) :
    (f.name.toList.all (· ≠ '(') = true ∧ Text.trimChars f.name.toList = f.name.toList) ∧
      f.name.toList.head?.map Text.isBlank = some false := by
  cases f <;> decide +kernel

theorem parts?_call (f : AggregateFunction) (h : IsArgument argument) :
    parts? (f.name.toList ++ '(' :: (argument ++ [')'])) = some (f.name.toList, argument) := by
  obtain ⟨⟨hplain, htrim⟩, hblank⟩ := name_plain f
  obtain ⟨first, hfirst, hfirstBlank⟩ := Option.map_eq_some_iff.1 hblank
  have hne : f.name.toList.isEmpty = false := by
    cases hname : f.name.toList with
    | nil => rw [hname] at hfirst; cases hfirst
    | cons c cs => rfl
  have hcall : f.name.toList ++ '(' :: (argument ++ [')']) =
      (f.name.toList ++ '(' :: argument) ++ [')'] := by
    rw [List.append_assoc, List.cons_append]
  have htrimmed : Text.trimChars (f.name.toList ++ '(' :: (argument ++ [')'])) =
      (f.name.toList ++ '(' :: argument) ++ [')'] := by
    have hhead : ((f.name.toList ++ '(' :: argument) ++ [')']).head? = some first := by
      rw [List.append_assoc, List.head?_append, hfirst, Option.some_or]
    have hnone : ∀ c ∈ [], Text.isBlank c = true := fun _ h => nomatch h
    have hends := Text.trimChars_append hnone hnone hhead List.getLast?_concat
      ⟨hfirstBlank, by decide⟩
    rw [List.append_nil, List.nil_append] at hends
    rw [hcall, hends]
  have hbefore : (f.name.toList ++ '(' :: argument).takeWhile (· ≠ '(') = f.name.toList := by
    rw [List.takeWhile_append_of_pos (List.all_eq_true.1 hplain),
      List.takeWhile_cons_of_neg (by decide), List.append_nil]
  have hbehind : (f.name.toList ++ '(' :: argument).dropWhile (· ≠ '(') = '(' :: argument := by
    rw [List.dropWhile_append_of_pos (List.all_eq_true.1 hplain),
      List.dropWhile_cons_of_neg (by decide)]
  have hargument : (f.name.toList.isEmpty || argument.isEmpty ||
      argument.any fun c => c = '(' || c = ')') = false := by
    simpa [hne, h.nonempty] using h.plain
  dsimp only [parts?]
  rw [htrimmed, if_pos List.getLast?_concat, List.dropLast_concat, hbefore, hbehind]
  simp only [htrim, h.trimmed, hargument, Bool.false_eq_true, if_false]

theorem ofParts_eq_ok_iff {name argument : String} :
    ofParts name argument = .ok a ↔
      AggregateFunction.ofName name = .ok a.function ∧ argument = a.argument.text ∧
        a.argument ≠ .column "*" ∧ (a.argument = .star → a.function = .count) := by
  simp only [ofParts, Except.bind_eq_ok_iff]
  constructor
  · rintro ⟨f, hf, h⟩
    split at h
    case isFalse hname =>
      cases h
      exact ⟨hf, rfl, fun hstar => hname (Argument.column.inj hstar), nofun⟩
    case isTrue hname =>
      split at h <;> cases h
      rename_i hcount
      exact ⟨hf, hname, nofun, fun _ => hcount⟩
  · rintro ⟨hf, htext, hcolumn, hstar⟩
    refine ⟨_, hf, ?_⟩
    rcases a with ⟨f, column | _⟩
    · have hname : ¬ argument = "*" := fun hname => hcolumn (htext.symm.trans hname ▸ rfl)
      rw [if_neg hname, htext]
      rfl
    · have hname : argument = "*" := htext
      rw [if_pos hname, if_pos (hstar rfl)]
      rfl

theorem Spelled.parse_text (h : a.Spelled) : parse a.text = .ok a := by
  rw [parse, toList_text, parts?_call a.function h.argument]
  simp only [String.ofList_toList]
  exact ofParts_eq_ok_iff.2 ⟨a.function.ofName_name, rfl, h.column, h.star⟩

theorem spelled_of_parse (h : parse s = .ok a) : a.Spelled := by
  unfold parse at h
  split at h
  case h_2 => cases h
  case h_1 name argument hparts =>
    obtain ⟨-, htext, hcolumn, hstar⟩ := ofParts_eq_ok_iff.1 h
    refine ⟨?_, hcolumn, hstar⟩
    rw [← htext, String.toList_ofList]
    exact (parts?_eq_some hparts).1

theorem Spelled.eq_of_text (ha : a.Spelled) (hb : b.Spelled) (h : a.text = b.text) : a = b := by
  have hparse := ha.parse_text
  rw [h, hb.parse_text] at hparse
  exact (Except.ok.inj hparse).symm

/-- What spells an aggregate selects it, blanks around it or not. -/
theorem selectItem_parse_eq_ok_iff : SelectItem.parse s = .ok (.aggregate a) ↔ parse s = .ok a := by
  have hparse : ∀ {a}, parse (Text.trim s) = .ok a ↔ parse s = .ok a := by
    intro a
    simp only [parse, Text.trim, String.toList_ofList, parts?_trimChars]
    cases parts? s.toList <;> simp
  constructor
  · intro h
    dsimp only [SelectItem.parse] at h
    split at h
    · cases h
    split at h
    · obtain ⟨b, hb, ⟨⟩⟩ := Except.map_eq_ok_iff.1 h
      exact hparse.1 hb
    split at h <;> cases h
  · intro h
    obtain ⟨name, argument, hparts⟩ : ∃ name argument, parts? s.toList = some (name, argument) := by
      unfold parse at h
      split at h
      · exact ⟨_, _, by assumption⟩
      · cases h
    obtain ⟨-, hopening, hlast⟩ := parts?_eq_some hparts
    have hcall : isCall (Text.trim s) = true := by
      simp [isCall, Text.trim, Text.trimChars_trimChars, hopening, hlast]
    have hstar : Text.trim s ≠ "*" := by
      rintro hstar
      rw [hstar] at hcall
      cases hcall
    dsimp only [SelectItem.parse]
    rw [if_neg hstar, if_pos hcall, hparse.2 h]
    rfl

end Aggregate

theorem forall₂_of_mapM_eq_some {α β : Type} {f : α → Option β} {as : List α} {bs : List β}
    (h : as.mapM f = some bs) : List.Forall₂ (fun a b => f a = some b) as bs := by
  induction as generalizing bs with
  | nil =>
    cases h
    exact .nil
  | cons a as ih =>
    rw [List.mapM_cons] at h
    obtain ⟨b, hb, h⟩ := Option.bind_eq_some_iff.1 h
    obtain ⟨bs', hbs, ⟨⟩⟩ := Option.bind_eq_some_iff.1 h
    exact .cons hb (ih hbs)

theorem mapM_eq_none_of_mem {α β : Type} {f : α → Option β} {as : List α} {a : α} (ha : a ∈ as)
    (h : f a = none) : as.mapM f = none := by
  induction as with
  | nil => cases ha
  | cons b bs ih =>
    rw [List.mapM_cons]
    rcases List.mem_cons.1 ha with rfl | ha
    · rw [h]
      rfl
    · rw [ih ha]
      cases f b <;> rfl

theorem SelectItem.aggregate?_eq_some_iff {item : SelectItem} {a : Aggregate} :
    item.aggregate? = some a ↔ item = .aggregate a := by
  cases item <;> simp [aggregate?]

theorem Selection.of_eq_ok_of_mem {items : List SelectItem} {selection : Selection} {a : Aggregate}
    (h : Selection.of items = .ok selection) (ha : .aggregate a ∈ items) :
    ∃ as, selection = .aggregates as ∧ items = as.map .aggregate := by
  unfold Selection.of at h
  split at h
  · cases h
  split at h
  case isTrue hstar =>
    split at h
    · cases h
    case isFalse hlength =>
      obtain ⟨item, rfl⟩ : ∃ item, items = [item] :=
        List.length_eq_one_iff.1 (Nat.le_antisymm (by omega) (List.length_pos_of_mem ha))
      rw [← List.mem_singleton.1 ha] at hstar
      cases hstar
  case isFalse =>
    split at h
    case h_1 _ as has =>
      cases h
      have hitems :=
        (forall₂_of_mapM_eq_some has).imp fun _ _ => SelectItem.aggregate?_eq_some_iff.1
      refine ⟨as, rfl, ?_⟩
      rwa [← List.forall₂_map_right_iff, List.forall₂_eq_eq_eq] at hitems
    case h_2 ps _ hps =>
      rw [mapM_eq_none_of_mem ha rfl] at hps
      cases hps
    case h_3 => cases h

/-- The column that an aggregate reads. A star reads the key column. -/
def Aggregate.column (a : Aggregate) (t : Table) : String :=
  match a.argument with
  | .column name => name
  | .star => t.keyName

theorem Table.aggregate_eq_ok_iff {t : Table} {places : List Nat} {a : Aggregate}
    {pair : String × Value} :
    t.aggregate places a = .ok pair ↔
      ∃ cells v, t.fieldCells (a.column t) = .ok cells ∧
        a.apply (Broadcast.gather cells places) = .ok v ∧ (a.text, v) = pair := by
  simp only [Table.aggregate, Except.bind_eq_ok_iff, Except.pure_eq_ok_iff, exists_and_left]
  rfl

theorem lookup_text {t : Table} {places : List Nat} {as : List Aggregate}
    {pairs : List (String × Value)}
    (h : List.Forall₂ (fun a pair => t.aggregate places a = .ok pair) as pairs)
    (spelled : ∀ a ∈ as, a.Spelled) {a : Aggregate} (ha : a ∈ as) :
    ∃ cells v, t.fieldCells (a.column t) = .ok cells ∧
      a.apply (Broadcast.gather cells places) = .ok v ∧ pairs.lookup a.text = some v := by
  have hspelled := spelled a ha
  induction h with
  | nil => cases ha
  | @cons b pair as pairs hpair _ ih =>
    obtain ⟨hb, hrest⟩ := List.forall_mem_cons.1 spelled
    obtain ⟨cells, v, hcells, hv, rfl⟩ := Table.aggregate_eq_ok_iff.1 hpair
    by_cases htext : a.text = b.text
    · obtain rfl := hspelled.eq_of_text hb htext
      exact ⟨cells, v, hcells, hv, List.lookup_cons_self⟩
    · have ha : a ∈ as := (List.mem_cons.1 ha).resolve_left fun heq => htext (heq ▸ rfl)
      have hne : (a.text == b.text) = false := beq_eq_false_iff_ne.2 htext
      rw [List.lookup_cons, hne]
      exact ih hrest ha

/-- The value of an aggregate over the rows that a query selects. -/
def Plan.Computes (p : Plan) (db : Database) (a : Aggregate) (v : Value) : Prop :=
  ∃ t places cells, db.table p.table = .ok t ∧ p.places db t = .ok places ∧
    t.fieldCells (a.column t) = .ok cells ∧ a.apply (Broadcast.gather cells places) = .ok v

theorem Plan.computes_of_run {db : Database} {p : Plan} {as : List Aggregate} {answer : Answer}
    (selects : p.selection = .aggregates as) (spelled : ∀ a ∈ as, a.Spelled)
    (h : p.run db = .ok answer) {a : Aggregate} (ha : a ∈ as) :
    ∃ v, p.Computes db a v ∧ answer.aggregate? a.text = some v := by
  obtain ⟨t, mask, sorted, source, hmask, hsorted, hproject⟩ := Plan.run_eq_ok_iff.1 h
  rw [selects] at hproject
  obtain ⟨pairs, hpairs, hanswer⟩ := Except.bind_eq_ok_iff.1 hproject
  obtain rfl := Except.pure_eq_ok_iff.1 hanswer
  obtain ⟨cells, v, hcells, hv, hlookup⟩ :=
    lookup_text (Except.mapM_eq_ok_iff.1 hpairs) spelled ha
  have hplaces : p.places db t = .ok (Table.limitPlaces p.limit sorted) :=
    Except.bind_eq_ok_iff.2 ⟨mask, hmask, Except.bind_eq_ok_iff.2 ⟨sorted, hsorted, rfl⟩⟩
  exact ⟨v, ⟨t, _, cells, source, hplaces, hcells, hv⟩, hlookup⟩

namespace Aggregate

variable {s : String} {a : Aggregate}

/-- A text that spells an aggregate selects it. The aggregate is written in one way, which spells it
again and none of the others. A query that selects it beside whatever else answers with its value
under this text. -/
theorem answered_of_parse (h : parse s = .ok a) :
    SelectItem.parse s = .ok (.aggregate a) ∧ parse a.text = .ok a ∧
      (∀ s' b, parse s' = .ok b → a ≠ b → a.text ≠ b.text) ∧
      ∀ (texts : List String) (p : Plan) (db : Database) (answer : Answer), s ∈ texts →
        (do Selection.of (← texts.mapM SelectItem.parse)) = .ok p.selection →
        p.run db = .ok answer →
        ∃ v, p.Computes db a v ∧ answer.aggregate? a.text = some v := by
  have hspelled := spelled_of_parse h
  have hitem := selectItem_parse_eq_ok_iff.2 h
  refine ⟨hitem, hspelled.parse_text, fun s' b hb hne htext => hne ?_, ?_⟩
  · exact hspelled.eq_of_text (spelled_of_parse hb) htext
  · intro texts p db answer hs hselect hrun
    obtain ⟨items, hitems, hselection⟩ := Except.bind_eq_ok_iff.1 hselect
    have ha : .aggregate a ∈ items := by
      obtain ⟨item, hmem, hparse⟩ := Except.exists_mem_of_mapM hitems hs
      rw [hitem] at hparse
      cases hparse
      exact hmem
    obtain ⟨as, has, rfl⟩ := Selection.of_eq_ok_of_mem hselection ha
    refine Plan.computes_of_run has (fun b hb => ?_) hrun ?_
    · obtain ⟨s', -, hs'⟩ := Except.exists_of_mem_mapM hitems (List.mem_map_of_mem hb)
      exact spelled_of_parse (selectItem_parse_eq_ok_iff.1 hs')
    · simpa using ha

/-- Calls in any letter case, with blanks inside, and one of them twice. -/
theorem answered_of_parse_points :
    let texts := ["COUNT(*)", " sum( points )", "Max(points) ", "SUM(points)"]
    let p : Plan := { leaders with
      selection := .aggregates [⟨.count, .star⟩, ⟨.sum, .column "points"⟩, ⟨.max, .column "points"⟩,
        ⟨.sum, .column "points"⟩] }
    parse " sum( points )" = .ok ⟨.sum, .column "points"⟩ ∧
      parse "COUNT(*)" = .ok ⟨.count, .star⟩ ∧
      (do Selection.of (← texts.mapM SelectItem.parse)) = .ok p.selection ∧
      p.run scoreboard = .ok (.aggregates [("COUNT(*)", .integer 3), ("SUM(points)", .integer 13),
        ("MAX(points)", .integer 7), ("SUM(points)", .integer 13)]) ∧
      SelectItem.parse " sum( points )" = .ok (.aggregate ⟨.sum, .column "points"⟩) ∧
      parse "SUM(points)" = .ok ⟨.sum, .column "points"⟩ ∧ "SUM(points)" ≠ "COUNT(*)" ∧
      p.Computes scoreboard ⟨.sum, .column "points"⟩ (.integer 13) := by
  intro texts p
  have hsum : parse " sum( points )" = .ok ⟨.sum, .column "points"⟩ := by decide +kernel
  have hcount : parse "COUNT(*)" = .ok ⟨.count, .star⟩ := by decide +kernel
  have hselect : (do Selection.of (← texts.mapM SelectItem.parse)) = .ok p.selection := by
    have hitems : texts.mapM SelectItem.parse = .ok [.aggregate ⟨.count, .star⟩,
        .aggregate ⟨.sum, .column "points"⟩, .aggregate ⟨.max, .column "points"⟩,
        .aggregate ⟨.sum, .column "points"⟩] := by rfl
    rw [hitems]
    rfl
  have hrun : p.run scoreboard = .ok (.aggregates [("COUNT(*)", .integer 3),
      ("SUM(points)", .integer 13), ("MAX(points)", .integer 7),
      ("SUM(points)", .integer 13)]) := by
    decide +kernel
  obtain ⟨hitem, htext, hother, hanswers⟩ := answered_of_parse hsum
  obtain ⟨v, hcomputes, hv⟩ := hanswers texts p scoreboard _ (by decide) hselect hrun
  obtain rfl : Value.integer 13 = v := Option.some.inj hv
  exact ⟨hsum, hcount, hselect, hrun, hitem, htext, hother _ _ hcount (by decide), hcomputes⟩

end Aggregate

end Tabular
