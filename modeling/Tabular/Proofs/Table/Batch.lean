import Tabular.Proofs.Table.Step

/-!
Batches of rows. A batch does what single insertions do one after another. The first row that cannot
be inserted ends it: it leaves the table as the rows before it made it, and those after it are not
looked at.
-/
namespace Tabular.Table

/-- Rows that can be inserted one after another, with the keys that they get and the table that they
lead to. -/
inductive InsertsAll : Table → List Row → List Value → Table → Prop
  | nil (t : Table) : InsertsAll t [] [] t
  | cons {t s : Table} {row : Row} {rows : List Row} {k : Value} {keys : List Value}
      (first : (t.insertRow row none).1 = .ok k)
      (rest : InsertsAll (t.insertRow row none).2 rows keys s) :
      InsertsAll t (row :: rows) (k :: keys) s

/-- The rows before some row can be inserted and lead to a table into which this one cannot. -/
def Stops (t : Table) (rows : List Row) (e : Error) (s : Table) : Prop :=
  ∃ before row after keys, rows = before ++ row :: after ∧ t.InsertsAll before keys s ∧
    (s.insertRow row none).1 = .error e

variable {t s u : Table} {row : Row} {rows : List Row} {k : Value} {e : Error}

theorem insertRows_cons_of_error (h : t.insertRow row none = (.error e, s)) (rows : List Row) :
    t.insertRows (row :: rows) = (.error e, s) := by
  simp only [insertRows, h]

theorem insertsAll_cons_iff (h : t.insertRow row none = (.ok k, s)) {keys : List Value} :
    t.InsertsAll (row :: rows) keys u ↔ ∃ rest, keys = k :: rest ∧ s.InsertsAll rows rest u := by
  constructor
  · rintro (_ | ⟨first, rest⟩)
    rw [h] at first rest
    cases first
    exact ⟨_, rfl, rest⟩
  · rintro ⟨rest, rfl, hrest⟩
    exact .cons (by rw [h]) (by rwa [h])

theorem stops_cons_iff (h : t.insertRow row none = (.ok k, s)) :
    t.Stops (row :: rows) e u ↔ s.Stops rows e u := by
  constructor
  · rintro ⟨before, row', after, keys, hrows, hbefore, hfail⟩
    cases before with
    | nil =>
      cases hbefore
      cases hrows
      rw [h] at hfail
      cases hfail
    | cons first before =>
      cases hrows
      obtain ⟨rest, -, hrest⟩ := (insertsAll_cons_iff h).1 hbefore
      exact ⟨before, row', after, rest, rfl, hrest, hfail⟩
  · rintro ⟨before, row', after, keys, rfl, hbefore, hfail⟩
    have hfirst := (insertsAll_cons_iff h).2 ⟨keys, rfl, hbefore⟩
    exact ⟨row :: before, row', after, k :: keys, rfl, hfirst, hfail⟩

theorem stops_of_error (h : (t.insertRow row none).1 = .error e) {e' : Error} :
    t.Stops (row :: rows) e' u ↔ e' = e ∧ u = t := by
  constructor
  · rintro ⟨before, row', after, keys, hrows, hbefore, hfail⟩
    cases hbefore with
    | nil =>
      cases hrows
      cases h.symm.trans hfail
      exact ⟨rfl, rfl⟩
    | cons first rest =>
      cases hrows
      cases h.symm.trans first
  · rintro ⟨rfl, rfl⟩
    exact ⟨[], row, rows, [], rfl, .nil _, h⟩

theorem insertRows_eq_ok_iff {keys : List Value} :
    t.insertRows rows = (.ok keys, s) ↔ t.InsertsAll rows keys s := by
  induction rows generalizing t keys with
  | nil =>
    constructor
    · rintro ⟨⟩
      exact .nil _
    · rintro ⟨⟩
      rfl
  | cons row rows ih =>
    rcases hfirst : t.insertRow row none with ⟨_ | k, u⟩
    · rw [insertRows_cons_of_error hfirst]
      constructor
      · rintro ⟨⟩
      · rintro (_ | ⟨first, -⟩)
        rw [hfirst] at first
        cases first
    · simp only [insertRows_cons_of_ok hfirst, insertsAll_cons_iff hfirst, Prod.mk.injEq,
        Except.map_eq_ok_iff, ← ih]
      constructor
      · rintro ⟨⟨rest, hrest, rfl⟩, rfl⟩
        exact ⟨rest, rfl, Prod.ext hrest rfl⟩
      · rintro ⟨rest, rfl, hrest⟩
        exact ⟨⟨rest, congrArg Prod.fst hrest, rfl⟩, congrArg Prod.snd hrest⟩

theorem WellFormed.insertRows_eq_error_iff (h : t.WellFormed) :
    t.insertRows rows = (.error e, s) ↔ t.Stops rows e s := by
  induction rows generalizing t with
  | nil =>
    constructor
    · rintro ⟨⟩
    · rintro ⟨before, row, after, keys, hrows, -⟩
      simp at hrows
  | cons row rows ih =>
    have hintact := h.insertRow_intact row none
    have hnext := wellFormed_invariant.insertRow row none h
    rcases hfirst : t.insertRow row none with ⟨e' | k, u⟩
    · rw [hfirst] at hintact
      obtain rfl : u = t := hintact e' rfl
      rw [insertRows_cons_of_error hfirst, stops_of_error (congrArg Prod.fst hfirst)]
      simp [eq_comm]
    · rw [hfirst] at hnext
      rw [stops_cons_iff hfirst, ← ih hnext, insertRows_cons_of_ok hfirst]
      rcases u.insertRows rows with ⟨_ | keys, w⟩ <;> simp [Except.map]

/-- A batch succeeds exactly if the rows can be inserted one after another, with the same keys and
the same table. Otherwise it fails with the error of the first row that cannot be inserted, and the
table is the one that the rows before it lead to, whichever rows come after it. -/
theorem insertRows_of_reachable (ht : t.Reachable) (rows : List Row) :
    (∀ keys s, t.insertRows rows = (.ok keys, s) ↔ t.InsertsAll rows keys s) ∧
      ∀ e s, t.insertRows rows = (.error e, s) ↔ t.Stops rows e s :=
  ⟨fun _ _ => insertRows_eq_ok_iff, fun _ _ => ht.wellFormed.insertRows_eq_error_iff⟩

/-- The key that is generated for the first note is not free for the next one. -/
theorem insertRows_of_reachable_notes :
    let t := notes.run editNotes
    let tea : Row := ⟨notes.columns, [.null, .text "tea"], rfl⟩
    let milk : Row := ⟨notes.columns, [.integer 5, .text "milk"], rfl⟩
    let salt : Row := ⟨notes.columns, [.integer 9, .text "salt"], rfl⟩
    t.Reachable ∧ (t.insertRows [tea, salt]).1 = .ok [.integer 5, .integer 9] ∧
      t.insertRows [tea, milk, salt] =
        (.error (.duplicateKey "notes" (.integer 5)), (t.insertRow tea none).2) := by
  intro t tea milk salt
  have ht : t.Reachable := (Reachable.built notes_built).run editNotes
  have hbatch := insertRows_of_reachable ht
  have htea : (t.insertRow tea none).1 = .ok (.integer 5) := by decide
  have hsalt : ((t.insertRow tea none).2.insertRow salt none).1 = .ok (.integer 9) := by decide
  have hmilk : ((t.insertRow tea none).2.insertRow milk none).1 =
      .error (.duplicateKey "notes" (.integer 5)) := by decide
  refine ⟨ht, ?_, ?_⟩
  · rw [((hbatch _).1 _ _).2 (.cons htea (.cons hsalt (.nil _)))]
  · exact ((hbatch _).2 _ _).2 ⟨[tea], milk, [salt], _, rfl, .cons htea (.nil _), hmilk⟩

end Tabular.Table
