import SurvivalRules.Content.Field
import SurvivalRules.Proofs.Text.Decimal

/-!
# Whole numbers in the texts of records

Many texts are read as one whole number: with margins, signs, zeros in front, underscores or a zero fraction. What
is read of any of them is not too long to be written, and its numeral is read as the same number again.
-/
namespace SurvivalRules.Field

open Numeric Text

variable {n : ℤ} {m : ℕ} {c : Char} {cs : List Char}

/-! ## Plain digits -/

/-- What the scanners for whole numbers ask of a digit of a numeral. -/
structure IsPlainDigit (c : Char) : Prop where
  plain : plainDigit? c = digitValue? c
  notMargin : isMargin c = false
  notSign : isSign c = false
  notPoint : c ≠ '.'
  notUnderscore : c ≠ '_'

theorem isPlainDigit_ofNat {d : ℕ} (hd : d < 10) : IsPlainDigit (Char.ofNat (48 + d)) := by
  have hdigits : ∀ d < 10, plainDigit? (Char.ofNat (48 + d)) = digitValue? (Char.ofNat (48 + d)) ∧
      isMargin (Char.ofNat (48 + d)) = false ∧ isSign (Char.ofNat (48 + d)) = false ∧
        Char.ofNat (48 + d) ≠ '.' ∧ Char.ofNat (48 + d) ≠ '_' := by decide
  obtain ⟨hplain, hmargin, hsign, hpoint, hunderscore⟩ := hdigits d hd
  exact ⟨hplain, hmargin, hsign, hpoint, hunderscore⟩

theorem isPlainDigit_of_mem_digits (h : c ∈ digits m) : IsPlainDigit c := by
  obtain ⟨d, hd, rfl⟩ := exists_of_mem_lastDigits h
  exact isPlainDigit_ofNat hd

theorem spanDigits_plain (h : ∀ c ∈ cs, IsPlainDigit c) : spanDigits plainDigit? cs = spanDigits digitValue? cs := by
  induction cs with
  | nil => rfl
  | cons c rest ih =>
    obtain ⟨hfirst, hrest⟩ := List.forall_mem_cons.mp h
    simp only [spanDigits, hfirst.plain, ih hrest]

theorem plainDigit?_lt {d : ℕ} (h : plainDigit? c = some d) : d < 10 := by
  unfold plainDigit? at h
  split at h
  next hplain =>
    have hle : c.toNat ≤ 57 := hplain.2
    cases h
    omega
  next => cases h

theorem lt_ten_of_spanDigits {ds : List ℕ} {rest : List Char} (h : spanDigits plainDigit? cs = (ds, rest)) :
    ∀ d ∈ ds, d < 10 := by
  induction cs generalizing ds with
  | nil =>
    cases h
    simp
  | cons c more ih =>
    unfold spanDigits at h
    cases hc : plainDigit? c with
    | none =>
      rw [hc] at h
      cases h
      simp
    | some d =>
      rw [hc] at h
      cases h
      exact List.forall_mem_cons.mpr ⟨plainDigit?_lt hc, ih rfl⟩

/-! ## The scanners on a numeral -/

theorem trimMargins_of_not_margin (h : ∀ c ∈ cs, isMargin c = false) : trimMargins cs = cs := by
  have hdrop : ∀ {l : List Char}, (∀ c ∈ l, isMargin c = false) → l.dropWhile isMargin = l := by
    intro l hl
    cases l with
    | nil => rfl
    | cons c rest => exact List.dropWhile_cons_of_neg (by simp [hl c List.mem_cons_self])
  rw [trimMargins, hdrop h, hdrop fun c hc => h c (List.mem_reverse.mp hc), List.reverse_reverse]

theorem withoutZeroFraction_of_no_point (h : '.' ∉ cs) : withoutZeroFraction cs = cs := by
  have hfront : cs.takeWhile (· ≠ '.') = cs :=
    List.takeWhile_eq_self_iff.mpr fun c hc => decide_eq_true fun he => h (he ▸ hc)
  rw [withoutZeroFraction, hfront, ite_self]

theorem withoutUnderscores?_of_none (h : '_' ∉ cs) : withoutUnderscores? cs = none := by
  simp [withoutUnderscores?, h]

theorem eq_of_mem_minus {negative : Bool} (h : c ∈ minus negative) : c = '-' := by
  cases negative with
  | true => exact List.mem_singleton.mp h
  | false => cases h

theorem withoutSign?_minus_append (negative : Bool) (h : ∀ c ∈ cs, IsPlainDigit c)
    (hsign : splitSign (minus negative ++ cs) = (negative, cs)) :
    withoutSign? (minus negative ++ cs) = some (negative, cs) := by
  have hhead : cs.head?.any isSign = false := by
    cases cs with
    | nil => rfl
    | cons c rest => exact (h c List.mem_cons_self).notSign
  simp [withoutSign?, hsign, hhead]

theorem withoutLeadingZeros?_digits (m : ℕ) : withoutLeadingZeros? (digits m) = some (digits m) := by
  by_cases hm : m = 0
  · subst hm
    decide
  · obtain ⟨d, rest, hpos, hlt, hdigits⟩ := exists_digits_eq_cons hm
    have hfirst : ∀ d < 10, 1 ≤ d → Char.ofNat (48 + d) ≠ '0' ∧ startsWhole (Char.ofNat (48 + d)) = true := by decide
    obtain ⟨hzero, hstarts⟩ := hfirst d hlt hpos
    rw [hdigits, withoutLeadingZeros?, if_neg hzero, if_pos hstarts]

/-- Digits without a minus sign are read with the sign that was taken off before. -/
theorem plainWhole?_of_not_minus (negative : Bool) (h : '-' ∉ cs) :
    plainWhole? negative cs = match spanDigits plainDigit? cs with
      | (ds, []) => if ds.head? = some 0 ∧ 1 < ds.length then none else wholeOfDigits? negative ds
      | _ => none := by
  unfold plainWhole?
  split
  next negative' body hmatch =>
    split at hmatch
    next => simp at h
    next =>
      cases hmatch
      rfl

theorem head?_ne_zero {ds : List ℕ} (hds : SpellsDigits (digits m) ds) (hlength : ds.length = decimalLength m) :
    ¬ (ds.head? = some 0 ∧ 1 < ds.length) := by
  rintro ⟨hhead, hlong⟩
  by_cases hm : m = 0
  · subst hm
    rw [hlength] at hlong
    exact absurd hlong (by decide)
  · obtain ⟨d, rest, hpos, hlt, hdigits⟩ := exists_digits_eq_cons hm
    rw [hdigits] at hds
    cases hds with
    | cons hfirst _ =>
      have hvalues : ∀ d < 10, digitValue? (Char.ofNat (48 + d)) = some d := by decide
      cases hhead
      cases (hvalues d hlt).symm.trans hfirst
      omega

/-- The digits of a number that can be written are read as it. -/
theorem plainWhole?_digits (h : isWritable n = true) : plainWhole? (decide (n < 0)) (digits n.natAbs) = some n := by
  obtain ⟨ds, hds, hlength, hvalue⟩ := exists_spellsDigits_digits n.natAbs
  have hread := SignedDigits.value?_of_isWritable (hds.ne_nil (digits_ne_nil _)) hlength hvalue h
  have hspan := (spanDigits_plain fun _ => isPlainDigit_of_mem_digits).trans (spanDigits_of_spells hds)
  rw [plainWhole?_of_not_minus _ (hds.not_mem rfl), hspan]
  simp only [if_neg (head?_ne_zero hds hlength)]
  exact hread

/-- The numeral of a number that can be written is read as it. -/
theorem wholeOfText?_numeral (h : isWritable n = true) : wholeOfText? (numeral n) = some n := by
  have hplain : ∀ c ∈ digits n.natAbs, IsPlainDigit c := fun _ => isPlainDigit_of_mem_digits
  obtain ⟨ds, hds, -, -⟩ := exists_spellsDigits_digits n.natAbs
  have hsign := splitSign_minus_append (decide (n < 0)) hds (digits_ne_nil _) []
  rw [List.append_nil] at hsign
  have hmargins : trimMargins (numeral n).toList = minus (decide (n < 0)) ++ digits n.natAbs := by
    rw [toList_numeral]
    refine trimMargins_of_not_margin fun c hc => ?_
    rcases List.mem_append.mp hc with hminus | hdigit
    · rw [eq_of_mem_minus hminus]
      decide
    · exact (hplain c hdigit).notMargin
  have hpoint : '.' ∉ digits n.natAbs := fun hc => (hplain _ hc).notPoint rfl
  have hunderscore : '_' ∉ digits n.natAbs := fun hc => (hplain _ hc).notUnderscore rfl
  simp only [wholeOfText?, hmargins, withoutSign?_minus_append _ hplain hsign, Option.bind_eq_bind, Option.bind_some,
    withoutLeadingZeros?_digits, withoutZeroFraction_of_no_point hpoint, withoutUnderscores?_of_none hunderscore,
    Option.getD_none, plainWhole?_digits h]

/-! ## What is read -/

theorem isWritable_of_plainWhole? {negative : Bool} (h : plainWhole? negative cs = some n) : isWritable n = true := by
  simp only [plainWhole?] at h
  split at h
  next ds hspan =>
    split at h
    · cases h
    · exact SignedDigits.isWritable_of_value? (b := ⟨_, ds⟩) (lt_ten_of_spanDigits hspan) h
  next => cases h

theorem isWritable_of_wholeOfText? {s : String} (h : wholeOfText? s = some n) : isWritable n = true := by
  simp only [wholeOfText?, Option.bind_eq_bind, Option.bind_eq_some_iff] at h
  obtain ⟨⟨negative, body⟩, -, digits, -, hplain⟩ := h
  exact isWritable_of_plainWhole? hplain

/-- A whole number that is read of a text is read of its numeral. -/
theorem whole_numeral {s : String} (h : whole (.text s) = .ok n) : whole (.text (numeral n)) = .ok n := by
  have hread : wholeOfText? s = some n := by
    simp only [whole] at h
    split at h
    next hn =>
      cases h
      exact hn
    next => cases h
  simp only [whole, wholeOfText?_numeral (isWritable_of_wholeOfText? hread)]

end SurvivalRules.Field
