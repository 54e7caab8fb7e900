import SurvivalRules.Proofs.Numeric.Numeral
import SurvivalRules.Proofs.Numeric.Vanishing
import SurvivalRules.Proofs.Text.Number

/-!
# Decimals

Digits of any script, and the decimals that are spelled with them: an optional minus sign, digits, and an optional
fraction with digits. A decimal becomes a number of the format that is positive only if the decimal is more than
half of the smallest positive number.
-/
namespace SurvivalRules.Text

open Numeric

/-! ## Digits -/

/-- Digits with their values. -/
def SpellsDigits (cs : List Char) (ds : List ℕ) : Prop := List.Forall₂ (fun c d => digitValue? c = some d) cs ds

section

variable {c : Char} {d : ℕ} {cs rest : List Char} {ds : List ℕ}

theorem isBlank_of_digit (h : digitValue? c = some d) : isBlank c = false := by
  have hscripts : ∀ z ∈ zeroDigits, ∀ k < 10, inRanges blankRanges (z + k) = false := by decide +kernel
  have hascii : ∀ n < 128, (digitValue? (Char.ofNat n)).isSome → isBlank (Char.ofNat n) = false := by
    decide +kernel
  by_cases hlow : c.toNat < 128
  · have hcase := hascii c.toNat hlow
    rw [Char.ofNat_toNat, h] at hcase
    exact hcase rfl
  · have hnot : ¬ ('0' ≤ c ∧ c ≤ '9') := fun hplain => hlow (by
      have hle : c.toNat ≤ 57 := hplain.2
      omega)
    rw [digitValue?, if_neg hnot, if_neg hlow, Option.map_eq_some_iff] at h
    obtain ⟨z, hz, -⟩ := h
    have hrange := List.find?_some hz
    simp only [decide_eq_true_eq] at hrange
    have hcase := hscripts z (List.mem_of_find?_eq_some hz) (c.toNat - z) (by omega)
    rwa [show z + (c.toNat - z) = c.toNat by omega] at hcase

theorem SpellsDigits.exists_digit (h : SpellsDigits cs ds) (hc : c ∈ cs) : ∃ d, digitValue? c = some d := by
  induction h with
  | nil => cases hc
  | cons hfirst _ ih =>
    rcases List.mem_cons.mp hc with rfl | hmore
    · exact ⟨_, hfirst⟩
    · exact ih hmore

theorem SpellsDigits.not_mem (h : SpellsDigits cs ds) (hc : digitValue? c = none) : c ∉ cs := by
  intro hmem
  obtain ⟨d, hd⟩ := h.exists_digit hmem
  cases hc.symm.trans hd

theorem SpellsDigits.ne_nil (h : SpellsDigits cs ds) (hne : cs ≠ []) : ds ≠ [] := by
  rintro rfl
  exact hne (List.forall₂_nil_right_iff.mp h)

/-- The digits in front are taken up to what is no digit. -/
theorem spanDigits_append (h : SpellsDigits cs ds) (hrest : ∀ c ∈ rest.head?, digitValue? c = none) :
    spanDigits digitValue? (cs ++ rest) = (ds, rest) := by
  induction h with
  | nil =>
    cases rest with
    | nil => rfl
    | cons c more =>
      have hc : digitValue? c = none := hrest c rfl
      simp only [List.nil_append, spanDigits, hc]
  | cons hc _ ih => simp only [List.cons_append, spanDigits, hc, ih]

theorem spanDigits_of_spells (h : SpellsDigits cs ds) : spanDigits digitValue? cs = (ds, []) := by
  have hnone : ∀ c ∈ ([] : List Char).head?, digitValue? c = none := by simp
  simpa using spanDigits_append h hnone

theorem exists_of_spanDigits (h : spanDigits digitValue? cs = (ds, rest)) :
    ∃ front, cs = front ++ rest ∧ SpellsDigits front ds := by
  induction cs generalizing ds with
  | nil =>
    cases h
    exact ⟨[], rfl, .nil⟩
  | cons c more ih =>
    unfold spanDigits at h
    cases hc : digitValue? c with
    | none =>
      rw [hc] at h
      cases h
      exact ⟨[], rfl, .nil⟩
    | some d =>
      rw [hc] at h
      cases h
      obtain ⟨front, hmore, hfront⟩ := ih rfl
      exact ⟨c :: front, congrArg (c :: ·) hmore, .cons hc hfront⟩

end

/-! ## Decimals -/

/-- The sign in front of a decimal. -/
def minus (negative : Bool) : List Char := if negative then ['-'] else []

/-- The texts of decimals, and what is scanned of them. -/
inductive SpellsDecimal : List Char → Scanned → Prop
  | whole {cs : List Char} {ds : List ℕ} (negative : Bool) (h : SpellsDigits cs ds) (hne : cs ≠ []) :
      SpellsDecimal (minus negative ++ cs) ⟨negative, valueOfDigits ds, 0⟩
  | fraction {cs fs : List Char} {ds es : List ℕ} (negative : Bool) (h : SpellsDigits cs ds) (hne : cs ≠ [])
      (hfraction : SpellsDigits fs es) (hfs : fs ≠ []) :
      SpellsDecimal (minus negative ++ (cs ++ '.' :: fs)) ⟨negative, valueOfDigits (ds ++ es), -(es.length : ℤ)⟩

section

variable {c : Char} {cs rest : List Char} {ds : List ℕ} {n : Scanned}

theorem SpellsDecimal.ne_nil (h : SpellsDecimal cs n) : cs ≠ [] := by
  cases h with
  | whole _ _ hne => simp [hne]
  | fraction _ _ hne => simp [hne]

/-- A decimal is written with digits, a sign and a point. -/
theorem SpellsDecimal.mem_cases (h : SpellsDecimal cs n) (hc : c ∈ cs) :
    c = '-' ∨ c = '.' ∨ ∃ d, digitValue? c = some d := by
  have hminus : ∀ negative, c ∈ minus negative → c = '-' := by
    intro negative hmem
    cases negative with
    | true => exact List.mem_singleton.mp hmem
    | false => cases hmem
  cases h with
  | whole negative h =>
    rcases List.mem_append.mp hc with hsign | hdigit
    · exact Or.inl (hminus _ hsign)
    · exact Or.inr (Or.inr (h.exists_digit hdigit))
  | fraction negative h _ hfraction =>
    rcases List.mem_append.mp hc with hsign | hrest
    · exact Or.inl (hminus _ hsign)
    rcases List.mem_append.mp hrest with hdigit | hpoint
    · exact Or.inr (Or.inr (h.exists_digit hdigit))
    rcases List.mem_cons.mp hpoint with rfl | hdigit
    · exact Or.inr (Or.inl rfl)
    · exact Or.inr (Or.inr (hfraction.exists_digit hdigit))

theorem SpellsDecimal.isBlank_eq (h : SpellsDecimal cs n) : ∀ c ∈ cs, isBlank c = false := by
  intro c hc
  rcases h.mem_cases hc with rfl | rfl | ⟨d, hd⟩
  · decide
  · decide
  · exact isBlank_of_digit hd

theorem SpellsDecimal.isTrimmed (h : SpellsDecimal cs n) : IsTrimmed cs := isTrimmed_of_not_blank h.isBlank_eq

theorem splitSign_minus_append (negative : Bool) (h : SpellsDigits cs ds) (hne : cs ≠ []) (rest : List Char) :
    splitSign (minus negative ++ (cs ++ rest)) = (negative, cs ++ rest) := by
  cases negative with
  | true => rfl
  | false =>
    obtain ⟨c, more, rfl⟩ := List.exists_cons_of_ne_nil hne
    have hplus : c ≠ '+' := fun he => h.not_mem (c := '+') rfl (he ▸ List.mem_cons_self)
    have hminus : c ≠ '-' := fun he => h.not_mem (c := '-') rfl (he ▸ List.mem_cons_self)
    simp only [minus, Bool.false_eq_true, if_false, List.nil_append, List.cons_append]
    unfold splitSign
    split
    next he => exact absurd (List.head_eq_of_cons_eq he) hplus
    next he => exact absurd (List.head_eq_of_cons_eq he) hminus
    next => rfl

/-- A decimal is scanned as a whole. -/
theorem SpellsDecimal.scanNumber_eq (h : SpellsDecimal cs n) : scanNumber digitValue? cs = some (n, []) := by
  cases h with
  | @whole cs ds negative h hne =>
    have hsign := splitSign_minus_append negative h hne []
    have hspan := spanDigits_of_spells h
    rw [List.append_nil] at hsign
    simp [scanNumber, hsign, hspan, splitFraction, splitExponent?, h.ne_nil hne]
  | @fraction cs fs ds es negative h hne hfraction hfs =>
    have hsign := splitSign_minus_append negative h hne ('.' :: fs)
    have hspan : spanDigits digitValue? (cs ++ '.' :: fs) = (ds, '.' :: fs) := spanDigits_append h (by simp; rfl)
    have htail := spanDigits_of_spells hfraction
    simp [scanNumber, hsign, hspan, splitFraction, htail, splitExponent?, h.ne_nil hne]

theorem SpellsDecimal.looseNumber_eq (h : SpellsDecimal cs n) :
    looseNumber (String.ofList cs) = .number n.toBinary64 := by
  have hstart : cs.takeWhile isBlank = [] := by
    obtain ⟨c, more, rfl⟩ := List.exists_cons_of_ne_nil h.ne_nil
    exact List.takeWhile_cons_of_neg (by simp [h.isBlank_eq c List.mem_cons_self])
  unfold looseNumber
  simp [h.isTrimmed.dropBlanks_eq, h.ne_nil, h.scanNumber_eq, hstart]

end

/-! ## Numerals -/

theorem digitValue?_digitChar (n : ℕ) : digitValue? (digitChar n) = some (n % 10) := by
  have hdigits : ∀ d < 10, digitValue? (Char.ofNat (48 + d)) = some d := by decide
  exact hdigits _ (Nat.mod_lt _ (by decide))

theorem digitValue?_lt {c : Char} {d : ℕ} (h : digitValue? c = some d) : d < 10 := by
  unfold digitValue? at h
  split at h
  next hplain =>
    have hle : c.toNat ≤ 57 := hplain.2
    cases h
    omega
  next =>
    split at h
    · cases h
    · rw [Option.map_eq_some_iff] at h
      obtain ⟨z, hz, rfl⟩ := h
      have hrange := List.find?_some hz
      simp only [decide_eq_true_eq] at hrange
      omega

theorem SpellsDigits.lt_ten {cs : List Char} {ds : List ℕ} (h : SpellsDigits cs ds) : ∀ d ∈ ds, d < 10 := by
  induction h with
  | nil => simp
  | cons hfirst _ ih => exact List.forall_mem_cons.mpr ⟨digitValue?_lt hfirst, ih⟩

theorem valueOfDigits_concat (ds : List ℕ) (d : ℕ) : valueOfDigits (ds ++ [d]) = 10 * valueOfDigits ds + d := by
  simp [valueOfDigits]

theorem valueOfDigits_lt {ds : List ℕ} (h : ∀ d ∈ ds, d < 10) : valueOfDigits ds < 10 ^ ds.length := by
  induction ds using List.reverseRecOn with
  | nil => decide
  | append_singleton ds d ih =>
    have hfront := ih fun k hk => h k (List.mem_append_left _ hk)
    have hlast : d < 10 := h d (by simp)
    rw [valueOfDigits_concat, List.length_append, List.length_singleton, pow_succ]
    omega

theorem exists_spellsDigits_lastDigits (count n : ℕ) :
    ∃ ds, SpellsDigits (lastDigits count n) ds ∧ valueOfDigits ds = n % 10 ^ count := by
  induction count generalizing n with
  | zero => exact ⟨[], .nil, (Nat.mod_one n).symm⟩
  | succ count ih =>
    obtain ⟨ds, hds, hvalue⟩ := ih (n / 10)
    refine ⟨ds ++ [n % 10], List.rel_append hds (.cons (digitValue?_digitChar n) .nil), ?_⟩
    rw [valueOfDigits_concat, hvalue, pow_succ', Nat.mod_mul]
    omega

/-- The digits of a number are read as that number. -/
theorem exists_spellsDigits_digits (n : ℕ) :
    ∃ ds, SpellsDigits (digits n) ds ∧ ds.length = decimalLength n ∧ valueOfDigits ds = n := by
  obtain ⟨ds, hds, hvalue⟩ := exists_spellsDigits_lastDigits (decimalLength n) n
  refine ⟨ds, hds, hds.length_eq.symm.trans (length_lastDigits _ n), ?_⟩
  rw [hvalue, Nat.mod_eq_of_lt (lt_ten_pow_decimalLength n)]

theorem digits_ne_nil (n : ℕ) : digits n ≠ [] := by
  intro h
  have hlength : decimalLength n = 0 := (length_lastDigits _ n).symm.trans (congrArg List.length h)
  have := decimalLength_pos n
  omega

theorem toList_numeral (n : ℤ) : (numeral n).toList = minus (decide (n < 0)) ++ digits n.natAbs := by
  by_cases h : n < 0 <;> simp [numeral, minus, h]

theorem SignedDigits.value?_of_isWritable {n : ℤ} {ds : List ℕ} (hne : ds ≠ [])
    (hlength : ds.length = decimalLength n.natAbs) (hvalue : valueOfDigits ds = n.natAbs) (h : isWritable n = true) :
    (SignedDigits.mk (decide (n < 0)) ds).value? = some n := by
  have hfits : ¬ (ds.isEmpty ∨ maxWholeDigits < ds.length) := by
    have hle : decimalLength n.natAbs ≤ maxWholeDigits := of_decide_eq_true h
    simp [hne, hlength, hle]
  rw [value?, wholeOfDigits?, if_neg hfits, hvalue]
  simp only [decide_eq_true_eq]
  split <;> congr 1 <;> omega

/-- What is read of digits can be written. -/
theorem SignedDigits.isWritable_of_value? {b : SignedDigits} {n : ℤ} (hb : ∀ d ∈ b.digits, d < 10)
    (h : b.value? = some n) : isWritable n = true := by
  unfold value? wholeOfDigits? at h
  split at h
  · cases h
  next hfits =>
    have hlength : b.digits.length ≤ maxWholeDigits := by
      by_contra hlong
      exact hfits (Or.inr (by omega))
    have habs : n.natAbs = valueOfDigits b.digits := by
      cases h
      split <;> simp
    refine decide_eq_true ((decimalLength_le_iff (by decide)).mpr ?_)
    rw [habs]
    exact (valueOfDigits_lt hb).trans_le (Nat.pow_le_pow_right (by decide) hlength)

/-! ## The sign of a decimal -/

/-- The exact value of what is scanned. -/
def Scanned.value (n : Scanned) : ℚ :=
  if n.negative then -((n.coefficient : ℚ) * (10 : ℚ) ^ n.place) else (n.coefficient : ℚ) * (10 : ℚ) ^ n.place

theorem lt_ten_zpow (coefficient : ℕ) (place : ℤ) :
    (coefficient : ℚ) * (10 : ℚ) ^ place < (10 : ℚ) ^ (place + decimalLength coefficient) := by
  have hlt : (coefficient : ℚ) < (10 : ℚ) ^ decimalLength coefficient := by
    exact_mod_cast lt_ten_pow_decimalLength coefficient
  rw [zpow_add₀ (by norm_num), zpow_natCast, mul_comm]
  exact mul_lt_mul_of_pos_left hlt (by positivity)

theorem ten_zpow_le {coefficient : ℕ} (place : ℤ) (hne : coefficient ≠ 0) :
    (10 : ℚ) ^ (place + decimalLength coefficient - 1) ≤ (coefficient : ℚ) * (10 : ℚ) ^ place := by
  obtain ⟨k, hlength⟩ : ∃ k, decimalLength coefficient = k + 1 := exists_decimalLength_go _ coefficient
  have hle : 10 ^ k ≤ coefficient := by
    have hpow := ten_pow_le_of_ne_zero hne
    rwa [hlength, Nat.add_sub_cancel] at hpow
  have hcast : (10 : ℚ) ^ k ≤ coefficient := by exact_mod_cast hle
  rw [hlength, show place + ((k + 1 : ℕ) : ℤ) - 1 = place + k by push_cast; ring, zpow_add₀ (by norm_num),
    zpow_natCast, mul_comm]
  exact mul_le_mul_of_nonneg_right hcast (by positivity)

theorem signedZero_le_zero (negative : Bool) : (Amount.float (Binary64.signedZero negative)).le .zero = true := by
  cases negative <;> decide +kernel

/-- Of a decimal the format keeps something positive where it is more than half of the smallest positive number. -/
theorem Scanned.toBinary64_le_zero_iff (n : Scanned) :
    (Amount.float n.toBinary64).le .zero = true ↔ n.value ≤ (2 : ℚ) ^ (-1075 : ℤ) := by
  have htiny : (0 : ℚ) < (2 : ℚ) ^ (-1075 : ℤ) := by positivity
  unfold Scanned.toBinary64 Scanned.value
  dsimp only
  split
  next hzero => exact iff_of_true (signedZero_le_zero _) (by simp [hzero])
  next hne =>
    have hlower := ten_zpow_le n.place hne
    have hupper := lt_ten_zpow n.coefficient n.place
    generalize (n.coefficient : ℚ) * (10 : ℚ) ^ n.place = m at hlower hupper ⊢
    have hpos : 0 < m := lt_of_lt_of_le (by positivity) hlower
    split
    next hlarge =>
      cases n.negative with
      | true => exact iff_of_true (by decide) ((neg_neg_of_pos hpos).trans htiny).le
      | false =>
        have hone : (1 : ℚ) ≤ (10 : ℚ) ^ (n.place + decimalLength n.coefficient - 1) :=
          one_le_zpow₀ (by norm_num) (by omega)
        have hhalf : (2 : ℚ) ^ (-1075 : ℤ) < 1 := zpow_lt_one_of_neg₀ (by norm_num) (by norm_num)
        exact iff_of_false (by decide) (by simpa using hhalf.trans_le (hone.trans hlower))
    next =>
      split
      next hsmall =>
        have horder : (10 : ℚ) ^ (n.place + decimalLength n.coefficient) ≤ (10 : ℚ) ^ (-331 : ℤ) :=
          zpow_le_zpow_right₀ (by norm_num) (by omega)
        have hpowers : (10 : ℚ) ^ (-331 : ℤ) ≤ (2 : ℚ) ^ (-1075 : ℤ) := by decide +kernel
        refine iff_of_true (signedZero_le_zero _) ?_
        split <;> linarith
      next => exact Binary64.nearest_le_zero_iff _
end SurvivalRules.Text
