import Tabular.Proofs.Json.Text
import Tabular.Proofs.Json.Real

/-!
Documents are read as they were written. Whatever a tree holds comes back as it was, except for the
real numbers in it: one that is not finite is written as null, and the others are read quickly.
-/
namespace Tabular.Json

mutual

/-- Trees that stand for values: the integers fit, and every text and key is whole. -/
def Legible : Json → Prop
  | .integer n => -0x8000000000000000 ≤ n ∧ n < 0x10000000000000000
  | .array items => LegibleItems items
  | .object fields => LegibleFields fields
  | .unreadable => False
  | .null | .bool _ | .real _ | .text _ => True

def LegibleItems : List Json → Prop
  | [] => True
  | v :: vs => v.Legible ∧ LegibleItems vs

def LegibleFields : List (Option String × Json) → Prop
  | [] => True
  | (key, v) :: rest => key.isSome ∧ v.Legible ∧ LegibleFields rest

end

mutual

def reread : Json → Json
  | .real x => if x.isFinite then x.reread?.elim .unreadable .real else .null
  | .array items => .array (rereadItems items)
  | .object fields => .object (rereadFields fields)
  | v => v

def rereadItems : List Json → List Json
  | [] => []
  | v :: vs => v.reread :: rereadItems vs

def rereadFields : List (Option String × Json) → List (Option String × Json)
  | [] => []
  | (key, v) :: rest => (key, v.reread) :: rereadFields rest

end

/-- Nothing that may come next tells the two apart, only a number might go on. -/
def Reading.Settled (r r' : Reading) : Prop :=
  r.finish? = r'.finish? ∧ ∀ c, isNumberChar c = false → step? r c = step? r' c

def starts (c : Char) : Bool := !isSpace c && c != ']'

/-- Wherever a value is awaited, the characters are read as this one. -/
def Spells (cs : List Char) (v : Json) : Prop :=
  ∃ c rest, cs = c :: rest ∧ starts c = true ∧
    ∀ stack, ∃ r, (begin? stack c).bind (rest.foldlM step?) = some r ∧ r.Settled (place v stack)

theorem step?_place (v : Json) (stack : List Frame) (c : Char) :
    step? (place v stack) c = between? (place v stack) c := by
  cases stack with
  | nil => rfl
  | cons f stack => cases f <;> rfl

theorem step?_value {c : Char} (h : starts c = true) (stack : List Frame) :
    step? ⟨stack, .value⟩ c = begin? stack c := by
  have hspace : isSpace c = false := by
    simp only [starts, Bool.and_eq_true, Bool.not_eq_true'] at h
    exact h.1
  simp [step?, between?, hspace]

theorem step?_firstItem {c : Char} (h : starts c = true) (stack : List Frame) :
    step? ⟨stack, .firstItem⟩ c = begin? stack c := by
  simp only [starts, Bool.and_eq_true, Bool.not_eq_true', bne_iff_ne] at h
  simp [step?, between?, h.1, h.2]

theorem finish?_place (v : Json) (stack : List Frame) :
    (place v stack).finish? = if stack.isEmpty then some v else none := by
  cases stack with
  | nil => rfl
  | cons f stack => cases f <;> rfl

theorem isNumberChar_of_isDigit {c : Char} (h : c.isDigit = true) : isNumberChar c = true := by
  simp [isNumberChar, h]

theorem isNumberChar_of_readExponent? {cs : List Char} {e : Option Int}
    (h : readExponent? cs = some e) : ∀ c ∈ cs, isNumberChar c = true := by
  cases cs with
  | nil => exact fun _ hc => nomatch hc
  | cons c cs =>
    simp only [readExponent?] at h
    split at h
    · rename_i hletter
      obtain ⟨n, hn, -⟩ := Option.map_eq_some_iff.1 h
      have hmark : isNumberChar c = true := by rcases hletter with rfl | rfl <;> rfl
      refine List.forall_mem_cons.2 ⟨hmark, ?_⟩
      cases Decimal.readInt?_eq_some_iff.1 hn with
      | plain _ digits => exact fun c hc => isNumberChar_of_isDigit (digits c hc)
      | plus _ digits =>
        exact List.forall_mem_cons.2 ⟨rfl, fun c hc => isNumberChar_of_isDigit (digits c hc)⟩
      | minus _ digits =>
        exact List.forall_mem_cons.2 ⟨rfl, fun c hc => isNumberChar_of_isDigit (digits c hc)⟩
    · cases h

theorem isNumberChar_of_readFraction? {cs fraction rest : List Char}
    (h : readFraction? cs = some (fraction, rest)) (hrest : ∀ c ∈ rest, isNumberChar c = true) :
    ∀ c ∈ cs, isNumberChar c = true := by
  unfold readFraction? at h
  split at h
  · rename_i cs
    dsimp only at h
    split at h
    · cases h
    · cases h
      refine List.forall_mem_cons.2 ⟨rfl, fun c hc => ?_⟩
      rw [← List.takeWhile_append_dropWhile (p := Char.isDigit) (l := cs)] at hc
      rcases List.mem_append.1 hc with hc | hc
      · exact isNumberChar_of_isDigit (List.mem_takeWhile_imp hc)
      · exact hrest c hc
  · cases h
    exact hrest

theorem exists_of_readNumber? {cs : List Char} {v : Json} (h : readNumber? cs = some v) :
    ∃ c rest, cs = c :: rest ∧ (c = '-' ∨ c.isDigit = true) ∧
      ∀ d ∈ rest, isNumberChar d = true := by
  obtain ⟨t, ht, -⟩ := Option.map_eq_some_iff.1 h
  unfold readNumeral? at ht
  split at ht
  rename_i negative body hsplit
  dsimp only at ht
  split at ht
  · cases ht
  rename_i hwhole
  obtain ⟨⟨fraction, rest⟩, hfraction, ht⟩ := Option.bind_eq_some_iff.1 ht
  obtain ⟨exponent, hexponent, -⟩ := Option.bind_eq_some_iff.1 ht
  have hbody : ∀ c ∈ body, isNumberChar c = true := by
    intro c hc
    rw [← List.takeWhile_append_dropWhile (p := Char.isDigit) (l := body)] at hc
    rcases List.mem_append.1 hc with hc | hc
    · exact isNumberChar_of_isDigit (List.mem_takeWhile_imp hc)
    · exact isNumberChar_of_readFraction? hfraction (isNumberChar_of_readExponent? hexponent) c hc
  split at hsplit
  · cases hsplit
    exact ⟨'-', body, rfl, .inl rfl, hbody⟩
  · cases hsplit
    cases cs with
    | nil => simp at hwhole
    | cons c rest =>
      refine ⟨c, rest, rfl, .inr ?_, fun d hd => hbody d (List.mem_cons_of_mem c hd)⟩
      by_contra hdigit
      simp [hdigit] at hwhole

/-- A number ends with the first character that is none of its own. -/
theorem spells_number {cs : List Char} {v : Json} (hread : readNumber? cs = some v) :
    Spells cs v := by
  obtain ⟨c, rest, rfl, hfirst, hrest⟩ := exists_of_readNumber? hread
  have hbegin : ∀ stack, begin? stack c = some ⟨stack, .number [c]⟩ := by
    intro stack
    rcases hfirst with rfl | hdigit
    · rfl
    · unfold begin?
      split <;> first | exact absurd hdigit (by decide) | simp [hdigit]
  have hfold : ∀ (stack : List Frame) (seen : List Char),
      rest.foldlM step? ⟨stack, .number seen⟩ = some ⟨stack, .number (rest.reverse ++ seen)⟩ := by
    intro stack
    clear hread
    induction rest with
    | nil => intro seen; rfl
    | cons d rest ih =>
      intro seen
      obtain ⟨hd, hrest⟩ := List.forall_mem_cons.1 hrest
      have hstep : step? ⟨stack, .number seen⟩ d = some ⟨stack, .number (d :: seen)⟩ := by
        simp [step?, hd]
      rw [List.foldlM_cons, hstep]
      simpa using ih hrest (d :: seen)
  refine ⟨c, rest, rfl, ?_, fun stack => ⟨⟨stack, .number (rest.reverse ++ [c])⟩, ?_, ?_, ?_⟩⟩
  · rcases hfirst with rfl | hdigit
    · rfl
    · have hne : ∀ d : Char, d.isDigit = false → c ≠ d := by
        rintro d hd rfl
        rw [hdigit] at hd
        cases hd
      simp [starts, isSpace, hne]
  · rw [hbegin, Option.bind_some, hfold]
  · rw [finish?_place]
    cases stack with
    | nil => simp [Reading.finish?, hread]
    | cons f stack => rfl
  · intro d hd
    rw [step?_place]
    simp [step?, hd, hread]

theorem spells_null : Spells "null".toList .null :=
  ⟨'n', ['u', 'l', 'l'], rfl, rfl, fun stack => ⟨place .null stack, rfl, rfl, fun _ _ => rfl⟩⟩

theorem spells_bool (b : Bool) :
    Spells (if b then "true".toList else "false".toList) (.bool b) := by
  cases b with
  | true => exact ⟨'t', ['r', 'u', 'e'], rfl, rfl, fun stack =>
      ⟨place (.bool true) stack, rfl, rfl, fun _ _ => rfl⟩⟩
  | false => exact ⟨'f', ['a', 'l', 's', 'e'], rfl, rfl, fun stack =>
      ⟨place (.bool false) stack, rfl, rfl, fun _ _ => rfl⟩⟩

theorem spells_text (s : String) : Spells (writeText s) (.text s) := by
  refine ⟨'"', s.toList.flatMap escape ++ ['"'], rfl, rfl, fun stack =>
    ⟨place (.text s) stack, ?_, rfl, fun _ _ => rfl⟩⟩
  exact foldlM_text (fun t => ⟨stack, .text t⟩)
    (fun s => place (s.elim .unreadable .text) stack)
    (fun t c => by cases h : t.step c <;> simp [step?, h]) s []

section

variable {cs : List Char} {v : Json} {c : Char}

/-- What follows a value is read as if the value had just been put in its place. -/
theorem Spells.foldlM (h : Spells cs v) {r : Reading} {stack : List Frame}
    (hr : ∀ d, starts d = true → step? r d = begin? stack d) (hc : isNumberChar c = false)
    (behind : List Char) :
    (cs ++ c :: behind).foldlM step? r = (c :: behind).foldlM step? (place v stack) := by
  obtain ⟨d, rest, rfl, hd, hread⟩ := h
  obtain ⟨r', hr', hsettled⟩ := hread stack
  have hfold : (d :: rest).foldlM step? r = some r' := by
    rw [List.foldlM_cons, hr d hd]
    exact hr'
  rw [List.foldlM_append, hfold]
  exact congrArg (· >>= behind.foldlM step?) (hsettled.2 c hc)

theorem Spells.read? (h : Spells cs v) : Json.read? cs = some v := by
  obtain ⟨d, rest, rfl, hd, hread⟩ := h
  obtain ⟨r, hr, hsettled⟩ := hread []
  have hfold : (d :: rest).foldlM step? ⟨[], .value⟩ = some r := by
    rw [List.foldlM_cons, step?_value hd]
    exact hr
  rw [Json.read?, hfold]
  exact hsettled.1

end

theorem foldlM_key {r : Reading} {done : List (Option String × Json)} {key : Option String}
    {stack : List Frame} (hr : step? r '"' = some ⟨.fields done key :: stack, .keyText .start⟩)
    (name : String) (behind : List Char) :
    (writeText name ++ ':' :: behind).foldlM step? r =
      behind.foldlM step? ⟨.fields done (some name) :: stack, .value⟩ := by
  have hkey := foldlM_text (fun t => ⟨.fields done key :: stack, .keyText t⟩)
    (fun s => ⟨nameValue s (.fields done key :: stack), .colon⟩)
    (fun t c => by cases h : t.step c <;> simp [step?, h]) name (':' :: behind)
  have hcolon : step? ⟨nameValue (some name) (.fields done key :: stack), .colon⟩ ':' =
      some ⟨.fields done (some name) :: stack, .value⟩ := rfl
  rw [List.foldlM_cons, hcolon] at hkey
  rw [writeText, List.cons_append, List.cons_append, List.foldlM_cons, hr]
  simpa using hkey

theorem readNumber?_intText {n : Int} (hlow : -0x8000000000000000 ≤ n)
    (hhigh : n < 0x10000000000000000) :
    readNumber? (Decimal.intText n).toList = some (.integer n) := by
  have hall : ∀ c ∈ Decimal.digits n.natAbs, c.isDigit = true :=
    fun _ => Decimal.isDigit_of_mem_digits
  have hvalue : Nat.ofDigitChars 10 (Decimal.digits n.natAbs) 0 = n.natAbs :=
    Decimal.ofDigits_toDigits _
  have hlead : (Decimal.digits n.natAbs).head? = some '0' →
      (Decimal.digits n.natAbs).length = 1 := by
    intro h
    by_cases hzero : n.natAbs = 0
    · rw [hzero]
      rfl
    · exact absurd h (Decimal.head_digits_ne_zero hzero)
  have hfits : takeFitting 0 (Decimal.digits n.natAbs) = (n.natAbs, []) := by
    rw [takeFitting_of_lt (by rw [hvalue]; omega), hvalue]
  have hread : ∀ negative : Bool, readNumber?
      (if negative then '-' :: Decimal.digits n.natAbs else Decimal.digits n.natAbs) =
        some (ofWhole negative n.natAbs) := by
    intro negative
    have h := readNumeral?_eq negative hall Nat.toDigits_ne_nil hlead
      (show [].takeWhile Char.isDigit = [] from rfl) (readFraction?_none (by simp))
      readExponent?_nil
    rw [List.append_nil] at h
    rw [readNumber?, h, Option.map_some]
    simp [Numeral.value, hfits]
  rw [Decimal.toList_intText]
  split
  · have h := hread true
    rw [if_pos rfl, ofWhole] at h
    rw [h]
    simp only [Bool.not_true, Bool.false_eq_true, if_false]
    rw [if_neg (by omega), show -(n.natAbs : Int) = n by omega]
  · have h := hread false
    rw [if_neg (by decide), ofWhole] at h
    rw [h]
    simp only [Bool.not_false, if_true]
    rw [show (n.natAbs : Int) = n by omega]

theorem spells_real (x : Binary64) : Spells (writeReal x) (Json.real x).reread := by
  rw [reread]
  split
  · rename_i finite
    exact spells_number (readNumber?_writeReal finite)
  · rename_i finite
    rw [writeReal, if_neg finite]
    exact spells_null

mutual

theorem spells_write : ∀ v : Json, v.Legible → Spells v.write v.reread
  | .null, _ => spells_null
  | .bool b, _ => spells_bool b
  | .integer _, h => spells_number (readNumber?_intText h.1 h.2)
  | .real x, _ => spells_real x
  | .text s, _ => spells_text s
  | .array [], _ => ⟨'[', [']'], rfl, rfl, fun stack =>
      ⟨place (.array []) stack, rfl, rfl, fun _ _ => rfl⟩⟩
  | .array (v :: vs), h => by
    refine ⟨'[', writeItems (v :: vs) ++ [']'], rfl, rfl, fun stack =>
      ⟨place (.array (rereadItems (v :: vs))) stack, ?_, rfl, fun _ _ => rfl⟩⟩
    exact foldlM_writeItems (v :: vs) h (by simp) _ [] stack (fun _ hd => step?_firstItem hd _) []
  | .object [], _ => ⟨'\x7b', ['\x7d'], rfl, rfl, fun stack =>
      ⟨place (.object []) stack, rfl, rfl, fun _ _ => rfl⟩⟩
  | .object (p :: rest), h => by
    refine ⟨'\x7b', writeFields (p :: rest) ++ ['\x7d'], rfl, rfl, fun stack =>
      ⟨place (.object (rereadFields (p :: rest))) stack, ?_, rfl, fun _ _ => rfl⟩⟩
    exact foldlM_writeFields (p :: rest) h (by simp) ⟨.fields [] none :: stack, .firstKey⟩ [] none
      stack rfl []

theorem foldlM_writeItems : ∀ items : List Json, LegibleItems items → items ≠ [] →
    ∀ (r : Reading) (done : List Json) (stack : List Frame),
      (∀ d, starts d = true → step? r d = begin? (.items done :: stack) d) →
      ∀ behind, (writeItems items ++ ']' :: behind).foldlM step? r =
        behind.foldlM step? (place (.array (done.reverse ++ rereadItems items)) stack)
  | [], _, hne, _, _, _, _, _ => absurd rfl hne
  | [v], h, _, r, done, stack, hr, behind => by
    rw [writeItems, (spells_write v h.1).foldlM hr rfl]
    simp [place, step?, between?, isSpace, close?, rereadItems]
  | v :: v' :: vs, h, _, r, done, stack, hr, behind => by
    have hcomma : step? (place v.reread (.items done :: stack)) ',' =
        some ⟨.items (v.reread :: done) :: stack, .value⟩ := rfl
    have hrest := foldlM_writeItems (v' :: vs) h.2 (by simp)
      ⟨.items (v.reread :: done) :: stack, .value⟩ (v.reread :: done) stack
      (fun _ hd => step?_value hd _) behind
    have hwrite : writeItems (v :: v' :: vs) = v.write ++ ',' :: writeItems (v' :: vs) := rfl
    rw [hwrite, List.append_assoc, List.cons_append, (spells_write v h.1).foldlM hr rfl,
      List.foldlM_cons, hcomma]
    simpa [rereadItems] using hrest

theorem foldlM_writeFields : ∀ fields : List (Option String × Json), LegibleFields fields →
    fields ≠ [] → ∀ (r : Reading) (done : List (Option String × Json)) (key : Option String)
      (stack : List Frame), step? r '"' = some ⟨.fields done key :: stack, .keyText .start⟩ →
      ∀ behind, (writeFields fields ++ '\x7d' :: behind).foldlM step? r =
        behind.foldlM step? (place (.object (done.reverse ++ rereadFields fields)) stack)
  | [], _, hne, _, _, _, _, _, _ => absurd rfl hne
  | [(none, _)], h, _, _, _, _, _, _, _ => absurd h.1 (by simp)
  | (none, _) :: _ :: _, h, _, _, _, _, _, _, _ => absurd h.1 (by simp)
  | [(some name, v)], h, _, r, done, key, stack, hr, behind => by
    have hvalue := (spells_write v h.2.1).foldlM (r := ⟨.fields done (some name) :: stack, .value⟩)
      (fun _ hd => step?_value hd _) (c := '\x7d') rfl behind
    have hend : step? (place v.reread (.fields done (some name) :: stack)) '\x7d' =
        some (place (.object (done.reverse ++ rereadFields [(some name, v)])) stack) := by
      simp [place, step?, between?, isSpace, close?, rereadFields]
    have hwrite : writeFields [(some name, v)] = writeText name ++ ':' :: v.write := rfl
    rw [List.foldlM_cons, hend] at hvalue
    rw [hwrite, List.append_assoc, List.cons_append, foldlM_key hr]
    exact hvalue
  | (some name, v) :: p :: rest, h, _, r, done, key, stack, hr, behind => by
    have hvalue := (spells_write v h.2.1).foldlM (r := ⟨.fields done (some name) :: stack, .value⟩)
      (fun _ hd => step?_value hd _) (c := ',') rfl (writeFields (p :: rest) ++ '\x7d' :: behind)
    have hcomma : step? (place v.reread (.fields done (some name) :: stack)) ',' =
        some ⟨.fields ((some name, v.reread) :: done) none :: stack, .key⟩ := rfl
    have hrest := foldlM_writeFields (p :: rest) h.2.2 (by simp)
      ⟨.fields ((some name, v.reread) :: done) none :: stack, .key⟩
      ((some name, v.reread) :: done) none stack rfl behind
    have hwrite : writeFields ((some name, v) :: p :: rest) =
        writeText name ++ ':' :: (v.write ++ ',' :: writeFields (p :: rest)) := by
      simp [writeFields]
    rw [List.foldlM_cons, hcomma] at hvalue
    rw [hwrite, List.append_assoc, List.cons_append, List.append_assoc, List.cons_append,
      foldlM_key hr, hvalue]
    simpa [rereadFields] using hrest

end

end Tabular.Json
