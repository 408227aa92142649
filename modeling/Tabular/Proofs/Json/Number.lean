import Tabular.Json.Reader
import Tabular.Json.Writer
import Tabular.Proofs.Written
import Tabular.Proofs.Numeral

/-! Numbers in documents: how what is written of a number is taken apart again. -/
namespace Tabular

namespace Decimal

theorem ofDigits_append (ds es : List Char) :
    ofDigits (ds ++ es) = Nat.ofDigitChars 10 es (ofDigits ds) := Nat.ofDigitChars_append 0

theorem ofDigits_zeros_append (n : Nat) (ds : List Char) :
    ofDigits (zeros n ++ ds) = ofDigits ds := by
  rw [ofDigits_append, zeros, ofDigits, Nat.ofDigitChars_replicate_zero, Nat.mul_zero]
  rfl

theorem ofDigits_append_zeros (ds : List Char) (n : Nat) :
    ofDigits (ds ++ zeros n) = ofDigits ds * 10 ^ n := by
  rw [ofDigits_append, zeros, Nat.ofDigitChars_replicate_zero, Nat.mul_comm]

theorem isDigit_of_mem_zeros {n : Nat} {c : Char} (h : c ∈ zeros n) : c.isDigit = true := by
  rw [List.eq_of_mem_replicate h]
  rfl

theorem head_digits_ne_zero {n : Nat} (hn : n ≠ 0) : (digits n).head? ≠ some '0' := by
  intro h
  induction n using Nat.strongRecOn with
  | ind n ih =>
    rw [digits, Nat.toDigits_eq_if (by omega)] at h
    split at h
    · have hzero : Nat.digitChar n = '0' := by simpa using h
      exact hn (Nat.digitChar_eq_zero.1 hzero)
    · rw [List.head?_append_of_ne_nil _ Nat.toDigits_ne_nil] at h
      exact ih (n / 10) (by omega) (by omega) h

end Decimal

namespace Json

open Decimal (ofDigits zeros)

theorem le_ofDigitChars (ds : List Char) (n : Nat) : n ≤ Nat.ofDigitChars 10 ds n := by
  induction ds generalizing n with
  | nil => exact Nat.le_refl n
  | cons d ds ih =>
    rw [Nat.ofDigitChars_cons]
    exact Nat.le_trans (by omega) (ih _)

theorem takeFitting_of_lt {ds : List Char} {n : Nat}
    (h : Nat.ofDigitChars 10 ds n < 0x10000000000000000) :
    takeFitting n ds = (Nat.ofDigitChars 10 ds n, []) := by
  induction ds generalizing n with
  | nil => rfl
  | cons d ds ih =>
    have hd : Nat.ofDigitChars 10 ds (Nat.ofDigitChars 10 [d] n) =
        Nat.ofDigitChars 10 (d :: ds) n := rfl
    rw [← hd] at h ⊢
    have hlt := Nat.lt_of_le_of_lt (le_ofDigitChars ds _) h
    rw [takeFitting, if_pos hlt, ih h]

theorem Numeral.value_eq {t : Numeral} (hpoint : t.fraction ≠ [] ∨ t.exponent ≠ none)
    (hfits : ofDigits (t.whole ++ t.fraction) < 0x10000000000000000)
    (hexponent : (t.exponent.getD 0).natAbs < 0x80000000) :
    t.value = ofMagnitude t.negative
      (scale? (ofDigits (t.whole ++ t.fraction)) (t.exponent.getD 0 - t.fraction.length)) := by
  rw [Decimal.ofDigits_append] at hfits ⊢
  have hwhole : takeFitting 0 t.whole = (ofDigits t.whole, []) :=
    takeFitting_of_lt (Nat.lt_of_le_of_lt (le_ofDigitChars _ _) hfits)
  have hpoint : (t.fraction.isEmpty && t.exponent.isNone && true) = false := by
    rcases hpoint with h | h <;> simp [h, Option.isNone_eq_false_iff, Option.isSome_iff_ne_none]
  simp only [Numeral.value, hwhole, takeFitting_of_lt hfits, List.isEmpty_nil, hpoint,
    Bool.false_eq_true, if_false, if_neg (Nat.not_le.2 hexponent), List.length_nil]
  congr 2
  omega

section

variable {whole rest : List Char}

theorem readNumeral?_eq (negative : Bool) (hdigits : ∀ c ∈ whole, c.isDigit = true)
    (hne : whole ≠ []) (hzero : whole.head? = some '0' → whole.length = 1)
    (hrest : rest.takeWhile Char.isDigit = [])
    {fraction rest' : List Char} (hfraction : readFraction? rest = some (fraction, rest'))
    {exponent : Option Int} (hexponent : readExponent? rest' = some exponent) :
    readNumeral? (if negative then '-' :: (whole ++ rest) else whole ++ rest) =
      some ⟨negative, whole, fraction, exponent⟩ := by
  have hwhole : (whole ++ rest).takeWhile Char.isDigit = whole := by
    rw [List.takeWhile_append_of_pos hdigits, hrest, List.append_nil]
  have hdrop : (whole ++ rest).dropWhile Char.isDigit = rest := by
    rw [List.dropWhile_append_of_pos hdigits]
    have h := List.takeWhile_append_dropWhile (p := Char.isDigit) (l := rest)
    rwa [hrest] at h
  have hlead : (whole.isEmpty ||
      (whole.head? == some '0' && decide (1 < whole.length))) = false := by
    by_cases h : whole.head? = some '0'
    · simp [hne, hzero h]
    · simp [hne, h]
  unfold readNumeral?
  split
  rename_i negative' body hsplit
  have hparts : negative' = negative ∧ body = whole ++ rest := by
    cases negative with
    | true => cases hsplit; exact ⟨rfl, rfl⟩
    | false =>
      simp only [Bool.false_eq_true, if_false] at hsplit
      split at hsplit
      · rename_i hminus
        cases whole with
        | nil => exact absurd rfl hne
        | cons d ds =>
          cases hminus
          exact absurd (hdigits _ List.mem_cons_self) (by decide)
      · cases hsplit; exact ⟨rfl, rfl⟩
  obtain ⟨rfl, rfl⟩ := hparts
  simp only [hwhole, hdrop, hlead, Bool.false_eq_true, if_false, hfraction, Option.bind_eq_bind,
    Option.bind_some, hexponent]
  rfl

theorem readFraction?_point {ds : List Char} (hdigits : ∀ c ∈ ds, c.isDigit = true) (hne : ds ≠ [])
    (hrest : rest.takeWhile Char.isDigit = []) :
    readFraction? ('.' :: (ds ++ rest)) = some (ds, rest) := by
  have hds : (ds ++ rest).takeWhile Char.isDigit = ds := by
    rw [List.takeWhile_append_of_pos hdigits, hrest, List.append_nil]
  have hdrop : (ds ++ rest).dropWhile Char.isDigit = rest := by
    rw [List.dropWhile_append_of_pos hdigits]
    have h := List.takeWhile_append_dropWhile (p := Char.isDigit) (l := rest)
    rwa [hrest] at h
  simp [readFraction?, hds, hdrop, hne]

theorem readFraction?_all {ds : List Char} (hdigits : ∀ c ∈ ds, c.isDigit = true) (hne : ds ≠ []) :
    readFraction? ('.' :: ds) = some (ds, []) := by
  have h := readFraction?_point hdigits hne (show [].takeWhile Char.isDigit = [] from rfl)
  rwa [List.append_nil] at h

theorem readFraction?_none (h : rest.head? ≠ some '.') : readFraction? rest = some ([], rest) := by
  unfold readFraction?
  split
  · exact absurd rfl h
  · rfl

end

theorem readExponent?_nil : readExponent? [] = some none := rfl

theorem readExponent?_exponentText (p : Int) :
    readExponent? ('e' :: Decimal.exponentText true p) = some (some p) := by
  obtain ⟨d, ds, hds, -⟩ := Decimal.digits_eq_cons p.natAbs
  have hne : Decimal.digits p.natAbs ≠ [] := by simp [hds]
  have hall : ∀ c ∈ Decimal.digits p.natAbs, c.isDigit = true :=
    fun _ => Decimal.isDigit_of_mem_digits
  have hvalue : ofDigits (Decimal.digits p.natAbs) = p.natAbs := Decimal.ofDigits_toDigits _
  have hnumeral : Decimal.Numeral (Decimal.exponentText true p) p := by
    unfold Decimal.exponentText
    split
    · have h := Decimal.Numeral.minus hne hall
      rwa [hvalue, show -(p.natAbs : Int) = p by omega] at h
    · have h := Decimal.Numeral.plus hne hall
      rwa [hvalue, show (p.natAbs : Int) = p by omega] at h
  simp [readExponent?, Decimal.readInt?_eq_some_iff.2 hnumeral]

section

variable {negative : Bool} {n : Nat} {e : Int} {cs ds whole rest fraction rest' : List Char}

theorem readNumber?_eq {exponent : Option Int} (hcs : cs = whole ++ rest)
    (hdigits : ∀ c ∈ whole, c.isDigit = true) (hne : whole ≠ [])
    (hzero : whole.head? = some '0' → whole.length = 1) (hrest : rest.takeWhile Char.isDigit = [])
    (hfraction : readFraction? rest = some (fraction, rest'))
    (hexponent : readExponent? rest' = some exponent)
    (hpoint : fraction ≠ [] ∨ exponent ≠ none) (hsmall : (exponent.getD 0).natAbs < 0x80000000)
    (hn : ofDigits (whole ++ fraction) = n) (hfits : n < 0x10000000000000000)
    (he : exponent.getD 0 - fraction.length = e) :
    readNumber? (if negative then '-' :: cs else cs) =
      some (ofMagnitude negative (scale? n e)) := by
  subst hcs hn he
  rw [readNumber?, readNumeral?_eq negative hdigits hne hzero hrest hfraction hexponent,
    Option.map_some, Numeral.value_eq hpoint hfits hsmall]

variable (negative) (hdigits : ∀ c ∈ ds, c.isDigit = true)

include hdigits

theorem readNumber?_below (hne : ds ≠ []) {p : Int} (hp : p < 0)
    (hfits : ofDigits ds < 0x10000000000000000) :
    readNumber? (if negative then '-' :: Decimal.placed true ds p else Decimal.placed true ds p) =
      some (ofMagnitude negative (scale? (ofDigits ds) (p + 1 - ds.length))) := by
  have hfraction : ∀ c ∈ zeros (-p - 1).toNat ++ ds, c.isDigit = true := by
    intro c hc
    rcases List.mem_append.1 hc with hc | hc
    · exact Decimal.isDigit_of_mem_zeros hc
    · exact hdigits c hc
  have hvalue : ofDigits (['0'] ++ (zeros (-p - 1).toNat ++ ds)) = ofDigits ds :=
    (Decimal.ofDigits_zeros_append 1 _).trans (Decimal.ofDigits_zeros_append _ ds)
  have hplaced : Decimal.placed true ds p = ['0'] ++ '.' :: (zeros (-p - 1).toNat ++ ds) := by
    rw [Decimal.placed, if_pos hp]
    rfl
  refine readNumber?_eq hplaced (fun _ hc => Decimal.isDigit_of_mem_zeros (n := 1) hc) (by simp)
    (fun _ => rfl) rfl (readFraction?_all hfraction (by simp [hne])) readExponent?_nil
    (.inl (by simp [hne])) (by simp) hvalue hfits ?_
  rw [Option.getD_none, List.length_append, zeros, List.length_replicate]
  omega

variable (hlead : ds.head? = some '0' → ds.length = 1)

include hlead

theorem readNumber?_inside {p : Int} (hp : 0 ≤ p) (hpoint : p + 1 < ds.length)
    (hfits : ofDigits ds < 0x10000000000000000) :
    readNumber? (if negative then '-' :: Decimal.placed true ds p else Decimal.placed true ds p) =
      some (ofMagnitude negative (scale? (ofDigits ds) (p + 1 - ds.length))) := by
  have htake : (ds.take (p.toNat + 1)).length = p.toNat + 1 := by
    rw [List.length_take]
    omega
  have hdrop : (ds.drop (p.toNat + 1)).length = ds.length - (p.toNat + 1) := List.length_drop
  have hwhole : ds.take (p.toNat + 1) ≠ [] := List.ne_nil_of_length_pos (by omega)
  have hfraction : ds.drop (p.toNat + 1) ≠ [] := List.ne_nil_of_length_pos (by omega)
  have hhead : (ds.take (p.toNat + 1)).head? ≠ some '0' := by
    intro h
    have hone := hlead (by simpa [List.head?_take] using h)
    omega
  have hplaced : Decimal.placed true ds p =
      ds.take (p.toNat + 1) ++ '.' :: ds.drop (p.toNat + 1) := by
    rw [Decimal.placed, if_neg (by omega)]
    exact if_neg (by omega)
  refine readNumber?_eq hplaced (fun c hc => hdigits c (List.mem_of_mem_take hc)) hwhole
    (fun h => absurd h hhead) rfl
    (readFraction?_all (fun c hc => hdigits c (List.mem_of_mem_drop hc)) hfraction)
    readExponent?_nil (.inl hfraction) (by simp) (by rw [List.take_append_drop]) hfits ?_
  rw [Option.getD_none, hdrop]
  omega

theorem readNumber?_integer (hne : ds ≠ []) {p : Int} (hpoint : ds.length ≤ p + 1)
    (hzero : ds.head? = some '0' → p = 0)
    (hfits : ofDigits ds * 10 ^ (p + 2 - ds.length).toNat < 0x10000000000000000) :
    readNumber? (if negative then '-' :: Decimal.placed true ds p else Decimal.placed true ds p) =
      some (ofMagnitude negative
        (scale? (ofDigits ds * 10 ^ (p + 2 - ds.length).toNat) (-1))) := by
  have hpos : 0 < ds.length := List.length_pos_iff.2 hne
  have hwhole : ∀ c ∈ ds ++ zeros (p.toNat + 1 - ds.length), c.isDigit = true := by
    intro c hc
    rcases List.mem_append.1 hc with hc | hc
    · exact hdigits c hc
    · exact Decimal.isDigit_of_mem_zeros hc
  have hplaced : Decimal.placed true ds p =
      (ds ++ zeros (p.toNat + 1 - ds.length)) ++ ['.', '0'] := by
    rw [Decimal.placed, if_neg (by omega)]
    exact if_pos (by omega)
  have hhead : (ds ++ zeros (p.toNat + 1 - ds.length)).head? = some '0' →
      (ds ++ zeros (p.toNat + 1 - ds.length)).length = 1 := by
    intro h
    rw [List.head?_append_of_ne_nil _ hne] at h
    have hone := hlead h
    have hp := hzero h
    rw [List.length_append, zeros, List.length_replicate]
    omega
  have hvalue : ofDigits ((ds ++ zeros (p.toNat + 1 - ds.length)) ++ ['0']) =
      ofDigits ds * 10 ^ (p + 2 - ds.length).toNat := by
    rw [List.append_assoc, show ['0'] = zeros 1 from rfl, zeros, zeros, ← List.replicate_add]
    rw [show p.toNat + 1 - ds.length + 1 = (p + 2 - ds.length).toNat by omega]
    exact Decimal.ofDigits_append_zeros ds _
  exact readNumber?_eq hplaced hwhole (by simp [hne]) hhead rfl
    (readFraction?_all (fun _ hc => Decimal.isDigit_of_mem_zeros (n := 1) hc) (by simp))
    readExponent?_nil (.inl (by simp)) (by simp) hvalue hfits rfl

end

theorem readNumber?_withExponent (negative : Bool) {ds : List Char} {p : Int}
    (hdigits : ∀ c ∈ ds, c.isDigit = true) (hne : ds ≠ []) (hp : p.natAbs < 0x80000000)
    (hfits : ofDigits ds < 0x10000000000000000) :
    readNumber? (if negative then '-' :: Decimal.withExponent true ds p
        else Decimal.withExponent true ds p) =
      some (ofMagnitude negative (scale? (ofDigits ds) (p + 1 - ds.length))) := by
  cases ds with
  | nil => exact absurd rfl hne
  | cons d ds =>
    have hwhole : ∀ c ∈ [d], c.isDigit = true := fun c hc =>
      hdigits c (List.mem_cons.2 (.inl (List.mem_singleton.1 hc)))
    have hfraction : ∀ c ∈ ds, c.isDigit = true := fun c hc => hdigits c (List.mem_cons_of_mem d hc)
    cases ds with
    | nil =>
      have hparts : Decimal.withExponent true [d] p =
          [d] ++ 'e' :: Decimal.exponentText true p := rfl
      refine readNumber?_eq hparts hwhole (by simp) (fun _ => rfl) rfl
        (readFraction?_none (by simp)) (readExponent?_exponentText p) (.inr (by simp)) hp rfl
        hfits ?_
      simp
    | cons d' ds =>
      have hparts : Decimal.withExponent true (d :: d' :: ds) p =
          [d] ++ '.' :: ((d' :: ds) ++ 'e' :: Decimal.exponentText true p) := rfl
      refine readNumber?_eq hparts hwhole (by simp) (fun _ => rfl) rfl
        (readFraction?_point hfraction (by simp) rfl) (readExponent?_exponentText p)
        (.inl (by simp)) hp rfl hfits ?_
      rw [Option.getD_some, List.length_cons, List.length_cons, List.length_cons]
      omega

end Json

end Tabular
