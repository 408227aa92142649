import Tabular.Proofs.Table.Search
import Tabular.Proofs.Table.Step

/-!
Generated keys. The cursor stands behind every integer that was given out as a key, as far as there
are words, so the search for a key ends at the cursor itself. A key comes back only at the last
word, which the cursor cannot pass.
-/
namespace Tabular.Table

/-- The first key, or one more than the greatest integer among keys if that is more. -/
def nextKey (first : Int) : List Value → Int
  | [] => first
  | .integer n :: keys => max (n.toInt + 1) (nextKey first keys)
  | _ :: keys => nextKey first keys

theorem nextKey_max (a b : Int) (keys : List Value) :
    nextKey (max a b) keys = max a (nextKey b keys) := by
  induction keys with
  | nil => rfl
  | cons key keys ih =>
    cases key <;> simp only [nextKey, ih]
    omega

theorem lt_nextKey {first : Int} {n : Int64} {keys : List Value} (h : .integer n ∈ keys) :
    n.toInt < nextKey first keys := by
  induction keys with
  | nil => cases h
  | cons key keys ih =>
    rcases List.mem_cons.1 h with rfl | h
    · simp only [nextKey]
      omega
    · have := ih h
      cases key <;> simp only [nextKey] <;> omega

theorem nextKey_cases (first : Int) (keys : List Value) :
    nextKey first keys = first ∨ ∃ n, .integer n ∈ keys ∧ nextKey first keys = n.toInt + 1 := by
  induction keys with
  | nil => exact .inl rfl
  | cons key keys ih =>
    have hrest : nextKey first keys = first ∨
        ∃ n, .integer n ∈ key :: keys ∧ nextKey first keys = n.toInt + 1 :=
      ih.imp_right fun ⟨n, hn, he⟩ => ⟨n, List.mem_cons_of_mem _ hn, he⟩
    cases key with
    | integer n =>
      rcases Int.le_total (nextKey first keys) (n.toInt + 1) with hle | hle
      · exact .inr ⟨n, List.mem_cons_self, by simp only [nextKey]; omega⟩
      · have he : nextKey first (.integer n :: keys) = nextKey first keys := by
          simp only [nextKey]
          omega
        rwa [he]
    | _ => exact hrest

theorem toInt_nextWord (n : Int64) :
    (nextWord n).toInt = min (n.toInt + 1) 0x7fffffffffffffff := by
  have hlow := n.le_toInt
  have hhigh := n.toInt_lt
  unfold nextWord
  cases h : toWord? (n.toInt + 1) with
  | none =>
    have := toWord?_eq_none_iff.1 h
    simp only [Option.getD_none]
    omega
  | some w =>
    have := toWord?_eq_some_iff.1 h
    have := w.toInt_lt
    simp only [Option.getD_some]
    omega

theorem toInt_cursorAfter (c n : Int64) :
    (cursorAfter c (.integer n)).toInt = max c.toInt (min (n.toInt + 1) 0x7fffffffffffffff) := by
  have hn := toInt_nextWord n
  simp only [cursorAfter]
  split <;> omega

theorem cursorAfter_of_le {c n : Int64} (h : c.toInt ≤ n.toInt) :
    cursorAfter c (.integer n) = nextWord n := by
  refine Int64.toInt_inj.1 ?_
  have hn := n.toInt_lt
  rw [toInt_cursorAfter, toInt_nextWord]
  omega

/-- After some keys the cursor stands at the next key, or at the last word if that is no word. -/
theorem toInt_foldl_cursorAfter (c : Int64) (keys : List Value) :
    (keys.foldl cursorAfter c).toInt = min (nextKey c.toInt keys) 0x7fffffffffffffff := by
  induction keys generalizing c with
  | nil =>
    have := c.toInt_lt
    simp only [List.foldl_nil, nextKey]
    omega
  | cons key keys ih =>
    rw [List.foldl_cons, ih]
    cases key with
    | integer n =>
      have hmax := nextKey_max (min (n.toInt + 1) 0x7fffffffffffffff) c.toInt keys
      rw [toInt_cursorAfter, Int.max_comm, hmax, nextKey]
      omega
    | _ => rfl

variable {t s : Table}

theorem cursor_le_of_freeKey? {n : Int64} (h : t.freeKey? = some n) :
    t.cursor.toInt ≤ n.toInt := by
  obtain ⟨passed, hscan⟩ := freeKey?_eq_iff.1 h
  exact hscan.le

theorem Settles.cursor_eq {row : Row} {key : Option Raw} {k : Value} {c : Int64}
    (h : t.Settles row key k c) : c = cursorAfter t.cursor k := by
  cases h with
  | chosen => rfl
  | generated _ _ free => exact (cursorAfter_of_le (cursor_le_of_freeKey? free)).symm

theorem Steps.cursor_eq {es : List Event} (h : t.Steps es s) :
    s.cursor = (es.filterMap Event.givenKey?).foldl cursorAfter t.cursor := by
  induction h with
  | refl => rfl
  | head step _ ih =>
    rw [ih]
    cases step with
    | insert _ settles _ _ =>
      simp [Event.givenKey?, append, settles.cursor_eq]
    | issue free =>
      have hc := cursorAfter_of_le (cursor_le_of_freeKey? free)
      simp [Event.givenKey?, hc]
    | update => rfl
    | delete => rfl
    | rename => rfl

namespace WellFormed

theorem mem_taken_of_slot? (h : t.WellFormed) {k : Value} (hs : (t.slot? k).isSome = true) :
    k ∈ t.taken := by
  obtain ⟨slot, hs⟩ := Option.isSome_iff_exists.1 hs
  obtain ⟨e, he, rfl, -⟩ := h.slot?_iff_mem.1 hs
  exact h.key_taken e he

theorem isFree_eq_true_iff (h : t.WellFormed) {k : Value} : t.isFree k = true ↔ k ∉ t.taken := by
  simp only [isFree, Bool.and_eq_true, Bool.not_eq_true', List.contains_eq_mem,
    decide_eq_false_iff_not]
  refine ⟨fun hfree => hfree.1, fun hk => ⟨hk, ?_⟩⟩
  cases hs : t.slot? k with
  | none => rfl
  | some slot => exact absurd (h.mem_taken_of_slot? (by rw [hs]; rfl)) hk

theorem isTaken_eq_true_iff (h : t.WellFormed) (generates : t.generatesKeys = true) {k : Value} :
    t.isTaken k = true ↔ k ∈ t.taken := by
  simp only [isTaken, generates, Bool.true_and, Bool.or_eq_true, List.contains_eq_mem,
    decide_eq_true_eq]
  exact ⟨fun htaken => htaken.elim h.mem_taken_of_slot? id, .inr⟩

theorem insertRow_answer (h : t.WellFormed) {row : Row} {key : Option Raw}
    (fits : Column.equalLists row.columns t.columns = true)
    (present : key.any Raw.isNull = false) :
    (t.insertRow row key).1 = (t.settleKey row key).1 := by
  unfold insertRow
  rcases t.settleKey_cases row key with ⟨e, he⟩ | ⟨k, c, -, hk⟩
  · simp [fits, present, he]
  · obtain ⟨r, hr⟩ := h.exists_set_key fits k
    simp [fits, present, hk, hr]

theorem insertRow_blank (h : t.WellFormed) (generates : t.generatesKeys = true) {row : Row}
    (fits : Column.equalLists row.columns t.columns = true)
    (blank : row.get? t.keyName = some .null) : (t.insertRow row none).1 = t.issueKey.1 := by
  have hnone : t.chosenKey? row none = none := by simp [chosenKey?, blank]
  rw [h.insertRow_answer fits rfl]
  simp [settleKey, hnone, generates]

theorem insertRow_chosen_isTaken (h : t.WellFormed) {row : Row} {key : Option Raw}
    (fits : Column.equalLists row.columns t.columns = true)
    (present : key.any Raw.isNull = false) {raw : Raw} (chosen : t.chosenKey? row key = some raw)
    {k : Value} (stored : t.keyColumn.resolve raw true = .ok k) :
    (t.insertRow row key).1 =
      if t.isTaken k = true then .error (.duplicateKey t.name k) else .ok k := by
  rw [h.insertRow_answer fits present]
  simp only [settleKey, chosen, acceptKey, stored]
  split <;> rfl

theorem insertRow_chosen (h : t.WellFormed) (generates : t.generatesKeys = true) {row : Row}
    {key : Option Raw} (fits : Column.equalLists row.columns t.columns = true)
    (present : key.any Raw.isNull = false) {raw : Raw} (chosen : t.chosenKey? row key = some raw)
    {k : Value} (stored : t.keyColumn.resolve raw true = .ok k) :
    (t.insertRow row key).1 =
      if k ∈ t.taken then .error (.duplicateKey t.name k) else .ok k := by
  rw [h.insertRow_chosen_isTaken fits present chosen stored]
  simp only [h.isTaken_eq_true_iff generates]

end WellFormed

theorem givenKey?_of_mem_rowsEvents {rows : List Row} {e : Event} (he : e ∈ t.rowsEvents rows) :
    e.givenKey? = e.insertedKey? := by
  induction rows generalizing t with
  | nil => cases he
  | cons row rows ih =>
    unfold rowsEvents at he
    split at he
    · cases he
    · rcases List.mem_cons.1 he with rfl | he
      · rfl
      · exact ih he

theorem givenKey?_of_mem_events {op : Operation} (indirect : op ≠ .issueKey) {e : Event}
    (he : e ∈ t.events op) : e.givenKey? = e.insertedKey? := by
  have hrow : ∀ {row key}, e ∈ t.rowEvents row key → e.givenKey? = e.insertedKey? := by
    intro row key he
    unfold rowEvents at he
    split at he
    · rw [List.mem_singleton.1 he]
      rfl
    · cases he
  cases op with
  | insert data =>
    simp only [events] at he
    split at he
    · exact hrow he
    · cases he
  | insertRow row key => exact hrow he
  | insertRows rows => exact givenKey?_of_mem_rowsEvents he
  | issueKey => exact absurd rfl indirect
  | _ =>
    simp only [events, List.mem_ite_nil_right, List.mem_singleton] at he
    rw [he.2]
    rfl

theorem givenKeys_eq_insertedKeys {ops : List Operation} (indirect : ∀ op ∈ ops, op ≠ .issueKey) :
    t.givenKeys ops = t.insertedKeys ops := by
  refine List.filterMap_congr fun e he => ?_
  induction ops generalizing t with
  | nil => cases he
  | cons op ops ih =>
    obtain ⟨hop, hops⟩ := List.forall_mem_cons.1 indirect
    rcases List.mem_append.1 he with he | he
    · exact givenKey?_of_mem_events hop he
    · exact ih hops he

theorem issueKey_eq_ok_iff {k : Value} :
    t.issueKey.1 = .ok k ↔ ∃ n, t.freeKey? = some n ∧ k = .integer n := by
  unfold issueKey
  cases t.freeKey? with
  | none => simp
  | some n => simp [eq_comm]

section

variable {name : String} {columns : List Column} {key : Option String} {settings : Settings}

theorem taken_run (h : create name columns key settings = .ok t) (ops : List Operation) :
    (t.run ops).taken = (t.insertedKeys ops).reverse := by
  have hstart : t.taken = [] := by
    obtain ⟨-, ⟨k, -, -, rfl⟩ | ⟨-, -, rfl⟩⟩ := create_cases h <;> rfl
  rw [((wellFormed_of_create h).steps_run ops).taken_eq, hstart, List.append_nil]
  rfl

theorem cursor_run (h : create name columns key settings = .ok t) (ops : List Operation) :
    (t.run ops).cursor.toInt =
      min (nextKey settings.firstKey.toInt (t.givenKeys ops)) 0x7fffffffffffffff := by
  have hstart : t.cursor = settings.firstKey := by
    obtain ⟨-, ⟨k, -, -, rfl⟩ | ⟨-, -, rfl⟩⟩ := create_cases h <;> rfl
  rw [((wellFormed_of_create h).steps_run ops).cursor_eq, toInt_foldl_cursorAfter, hstart]
  rfl

theorem isFree_run_iff (h : create name columns key settings = .ok t) (ops : List Operation)
    {k : Value} : (t.run ops).isFree k = true ↔ k ∉ t.insertedKeys ops := by
  have hw := (wellFormed_of_create h).run ops
  rw [hw.isFree_eq_true_iff, taken_run h, List.mem_reverse]

/-- While no key was given out on its own, the search for the next key ends at its first
candidate. -/
theorem scans_run (h : create name columns key settings = .ok t) {ops : List Operation}
    (indirect : ∀ op ∈ ops, op ≠ .issueKey) :
    let m := nextKey settings.firstKey.toInt (t.insertedKeys ops)
    (m ≤ 0x7fffffffffffffff → (t.run ops).cursor.toInt = m ∧
        (t.run ops).Scans (t.run ops).cursor [] (some (t.run ops).cursor)) ∧
      (0x7fffffffffffffff < m → (t.run ops).Scans (t.run ops).cursor [] none) := by
  intro m
  have hcursor := cursor_run h ops
  rw [givenKeys_eq_insertedKeys indirect] at hcursor
  refine ⟨fun hm => ?_, fun hm => ?_⟩
  · have hc : (t.run ops).cursor.toInt = m := by omega
    refine ⟨hc, .found ((isFree_run_iff h ops).2 fun hmem => ?_)⟩
    have hlt : (t.run ops).cursor.toInt < m := lt_nextKey hmem
    omega
  · rcases nextKey_cases settings.firstKey.toInt (t.insertedKeys ops) with hfirst | ⟨n, hn, hnext⟩
    · have := settings.firstKey.toInt_lt
      omega
    · have hhigh := n.toInt_lt
      have hc : (t.run ops).cursor = n := Int64.toInt_inj.1 (by omega)
      have hused : (t.run ops).isFree (.integer n) = false :=
        eq_false_of_ne_true fun hfree => (isFree_run_iff h ops).1 hfree hn
      have hlast : toWord? (n.toInt + 1) = none := toWord?_eq_none_iff.2 (.inr (by omega))
      rw [hc]
      exact .exhausted hused hlast

/-- A row without a key is inserted under the next key after all keys under which rows were ever
inserted, and is refused if that is no word. The search ends at its first candidate. -/
theorem insertRow_nextKey (h : create name columns key settings = .ok t)
    (integer : t.keyColumn.affinity = .integer) {ops : List Operation}
    (indirect : ∀ op ∈ ops, op ≠ .issueKey) {row : Row}
    (fits : Column.equalLists row.columns t.columns = true)
    (blank : row.get? t.keyName = some .null) :
    let s := t.run ops
    let m := nextKey settings.firstKey.toInt (t.insertedKeys ops)
    (m ≤ 0x7fffffffffffffff → ∃ n : Int64, n.toInt = m ∧ s.Scans s.cursor [] (some n) ∧
        (s.insertRow row none).1 = .ok (.integer n)) ∧
      (0x7fffffffffffffff < m → s.Scans s.cursor [] none ∧
        s.insertRow row none = (.error (.keysExhausted s.name), s)) := by
  intro s m
  have hw : s.WellFormed := (wellFormed_of_create h).run ops
  have hsteps := (wellFormed_of_create h).steps_run ops
  have hgen : s.generatesKeys = true := by
    rw [hsteps.generatesKeys_eq]
    exact decide_eq_true integer
  have hanswer : (s.insertRow row none).1 = s.issueKey.1 := by
    refine hw.insertRow_blank hgen ?_ ?_
    · rwa [hsteps.columns_eq]
    · rwa [hsteps.keyName_eq]
  obtain ⟨hfound, hexhausted⟩ := scans_run h indirect
  refine ⟨fun hm => ?_, fun hm => ?_⟩
  · obtain ⟨hc, hscan⟩ := hfound hm
    refine ⟨s.cursor, hc, hscan, ?_⟩
    rw [hanswer, issueKey_eq_ok_iff]
    exact ⟨s.cursor, freeKey?_eq_iff.2 ⟨[], hscan⟩, rfl⟩
  · have hscan := hexhausted hm
    have hnone : s.freeKey? = none := freeKey?_eq_iff.2 ⟨[], hscan⟩
    have herror : (s.insertRow row none).1 = .error (.keysExhausted s.name) := by
      rw [hanswer]
      simp [issueKey, hnone]
    exact ⟨hscan, Prod.ext herror (hw.failsIntact.insertRow row none _ herror)⟩

theorem notes_created :
    create "notes" [{ name := "text", affinity := .text }] none {} = .ok notes := by decide

def twoNotes : List Operation :=
  [.insertRow ⟨notes.columns, [.null, .text "milk"], rfl⟩ (some (.int 41)), .deleteRow (.int 41),
    .insert [("text", .text "bread")]]

def lastNotes : List Operation :=
  [.insertRow ⟨notes.columns, [.null, .text "milk"], rfl⟩ (some (.int 0x7ffffffffffffffe)),
    .insert [("text", .text "bread")]]

theorem insertRow_nextKey_notes :
    let tea : Row := ⟨notes.columns, [.null, .text "tea"], rfl⟩
    (∃ n : Int64, n.toInt = 43 ∧
        (notes.run twoNotes).Scans (notes.run twoNotes).cursor [] (some n) ∧
        ((notes.run twoNotes).insertRow tea none).1 = .ok (.integer n)) ∧
      (notes.run lastNotes).Scans (notes.run lastNotes).cursor [] none ∧
      (notes.run lastNotes).insertRow tea none =
        (.error (.keysExhausted "notes"), notes.run lastNotes) := by
  intro tea
  have htwo : nextKey 1 (notes.insertedKeys twoNotes) = 43 := by decide
  have hlast : nextKey 1 (notes.insertedKeys lastNotes) = 0x8000000000000000 := by decide
  have hfound := (@insertRow_nextKey notes _ _ _ _ notes_created rfl twoNotes (by simp [twoNotes])
    tea (by decide) (by decide)).1 (Int.le_trans (Int.le_of_eq htwo) (by decide))
  have hrefused := (@insertRow_nextKey notes _ _ _ _ notes_created rfl lastNotes
    (by simp [lastNotes]) tea (by decide) (by decide)).2
    (Int.lt_of_lt_of_le (by decide) (Int.le_of_eq hlast.symm))
  obtain ⟨n, hn, hscan, hok⟩ := hfound
  exact ⟨⟨n, hn.trans htwo, hscan, hok⟩, hrefused⟩

theorem issueKey_given_iff (h : create name columns key settings = .ok t) {ops : List Operation}
    {k : Value} (given : k ∈ t.givenKeys ops) :
    (t.run ops).issueKey.1 = .ok k ↔
      k = .integer Int64.maxValue ∧ k ∉ t.insertedKeys ops := by
  have hcursor := cursor_run h ops
  have hmax : Int64.maxValue.toInt = 0x7fffffffffffffff := by decide
  rw [issueKey_eq_ok_iff]
  constructor
  · rintro ⟨n, hn, rfl⟩
    obtain ⟨passed, hscan⟩ := freeKey?_eq_iff.1 hn
    have hle := hscan.le
    have hlt : n.toInt < nextKey settings.firstKey.toInt (t.givenKeys ops) := lt_nextKey given
    have hhigh := n.toInt_lt
    refine ⟨congrArg Value.integer (Int64.toInt_inj.1 ?_), (isFree_run_iff h ops).1 hscan.isFree⟩
    omega
  · rintro ⟨rfl, hnew⟩
    have hlt : Int64.maxValue.toInt < nextKey settings.firstKey.toInt (t.givenKeys ops) :=
      lt_nextKey given
    have hc : (t.run ops).cursor = Int64.maxValue := Int64.toInt_inj.1 (by omega)
    refine ⟨Int64.maxValue, freeKey?_eq_iff.2 ⟨[], ?_⟩, rfl⟩
    rw [hc]
    exact .found ((isFree_run_iff h ops).2 hnew)

/-- A key that was given out comes back only if it is the last word and no row was inserted under
it. Chosen again, it is refused exactly if a row was inserted under it. -/
theorem givenKey_again (h : create name columns key settings = .ok t)
    (integer : t.keyColumn.affinity = .integer) {ops : List Operation} {k : Value}
    (given : k ∈ t.givenKeys ops) :
    let s := t.run ops
    let returns := k = .integer Int64.maxValue ∧ k ∉ t.insertedKeys ops
    (s.issueKey.1 = .ok k ↔ returns) ∧
      (∀ row : Row, Column.equalLists row.columns t.columns = true →
        row.get? t.keyName = some .null → ((s.insertRow row none).1 = .ok k ↔ returns)) ∧
      ∀ (row : Row) (chosen : Option Raw) (raw : Raw),
        Column.equalLists row.columns t.columns = true → chosen.any Raw.isNull = false →
        s.chosenKey? row chosen = some raw → t.keyColumn.resolve raw true = .ok k →
        (s.insertRow row chosen).1 =
          if k ∈ t.insertedKeys ops then .error (.duplicateKey s.name k) else .ok k := by
  intro s returns
  have hw : s.WellFormed := (wellFormed_of_create h).run ops
  have hsteps := (wellFormed_of_create h).steps_run ops
  have hgen : s.generatesKeys = true := by
    rw [hsteps.generatesKeys_eq]
    exact decide_eq_true integer
  have hissue := issueKey_given_iff h given
  refine ⟨hissue, fun row fits blank => ?_, fun row chosen raw fits present hraw hk => ?_⟩
  · rw [hw.insertRow_blank hgen (by rwa [hsteps.columns_eq]) (by rwa [hsteps.keyName_eq])]
    exact hissue
  · have hanswer := hw.insertRow_chosen hgen (by rwa [hsteps.columns_eq]) present hraw
      (by rwa [hsteps.keyColumn_eq])
    rw [hanswer, taken_run h]
    simp only [List.mem_reverse]

theorem givenKey_again_notes :
    let ops : List Operation := [.issueKey, .insert [("text", .text "milk")], .deleteRow (.int 2)]
    let tea : Row := ⟨notes.columns, [.null, .text "tea"], rfl⟩
    notes.givenKeys ops = [.integer 1, .integer 2] ∧
      (notes.run ops).issueKey.1 ≠ .ok (.integer 2) ∧
      ((notes.run ops).insertRow tea none).1 ≠ .ok (.integer 2) ∧
      ((notes.run ops).insertRow tea (some (.text "2"))).1 =
        .error (.duplicateKey "notes" (.integer 2)) := by
  intro ops tea
  have hgiven : notes.givenKeys ops = [.integer 1, .integer 2] := by decide
  have hinserted : notes.insertedKeys ops = [.integer 2] := by decide
  have hmem : .integer 2 ∈ notes.givenKeys ops := by simp [hgiven]
  obtain ⟨hissue, hblank, hchosen⟩ := givenKey_again notes_created rfl hmem
  have hold : ¬ (Value.integer 2 = .integer Int64.maxValue ∧
      .integer 2 ∉ notes.insertedKeys ops) := by simp [hinserted]
  refine ⟨hgiven, mt hissue.1 hold, mt (hblank tea (by decide) (by decide)).1 hold, ?_⟩
  rw [hchosen tea (some (.text "2")) (.text "2") (by decide) rfl (by decide) (by decide)]
  simp [hinserted]
  rfl

/-- A key that was issued can be chosen for a row, and the last word is issued again and again. -/
theorem not_givenKey_once :
    let start := { notes with settings := { firstKey := Int64.maxValue }, cursor := Int64.maxValue }
    let tea : Row := ⟨notes.columns, [.null, .text "tea"], rfl⟩
    let last : Value := .integer Int64.maxValue
    start.Built ∧ start.issueKey.1 = .ok last ∧ (start.run [.issueKey]).issueKey.1 = .ok last ∧
      ((start.run [.issueKey]).insertRow tea (some last.toRaw)).1 = .ok last ∧
      notes.issueKey.1 = .ok (.integer 1) ∧
      ((notes.run [.issueKey]).insertRow tea (some (.int 1))).1 = .ok (.integer 1) := by
  intro start tea last
  have hstart : create "notes" [{ name := "text", affinity := .text }] none
      { firstKey := Int64.maxValue } = .ok start := by decide
  exact ⟨.create hstart, by decide, by decide, by decide, by decide, by decide⟩

end

end Tabular.Table
