import SurvivalRules.Proofs.Draws
import SurvivalRules.Proofs.Text.Decimal

/-!
# Random ranges and their texts

A range is read back from the text that it is written as, and every text that is read gives such a range. A draw
selects a number of the range as long as binary64 can hold, if not exactly, how many numbers it has.
-/
namespace SurvivalRules

open Binary64 Numeric Text

namespace RandomRange

section

variable {cs rest : List Char} {ds : List ℕ} {n : ℤ} {b : SignedDigits} {s : String} {r : RandomRange}

/-! ## Texts -/

theorem bound?_append (negative : Bool) (h : SpellsDigits cs ds) (hne : cs ≠ [])
    (hrest : ∀ c ∈ rest.head?, digitValue? c = none) :
    bound? (minus negative ++ cs ++ rest) = some (⟨negative, ds⟩, rest) := by
  have hspan := spanDigits_append h hrest
  have hds := h.ne_nil hne
  cases negative with
  | true => simp [bound?, minus, hspan]
  | false =>
    obtain ⟨c, more, rfl⟩ := List.exists_cons_of_ne_nil hne
    have hminus : c ≠ '-' := fun he => h.not_mem (c := '-') rfl (he ▸ List.mem_cons_self)
    rw [List.cons_append] at hspan
    simp [bound?, minus, hminus, hspan]

theorem spellsDigits_of_bound? (h : bound? cs = some (b, rest)) : ∃ front, SpellsDigits front b.digits := by
  simp only [bound?] at h
  split at h
  · cases h
  next ds tail _ hspan =>
    cases h
    obtain ⟨front, -, hfront⟩ := exists_of_spanDigits hspan
    exact ⟨front, hfront⟩

/-- A numeral is taken off as a bound, and the bound is the number. -/
theorem exists_bound_of_numeral (h : isWritable n = true) : ∃ b, b.value? = some n ∧
    ∀ mark rest, digitValue? mark = none →
      bound? (dropBlanks ((numeral n).toList ++ mark :: rest)) = some (b, mark :: rest) := by
  obtain ⟨ds, hds, hlength, hvalue⟩ := exists_spellsDigits_digits n.natAbs
  have hne := digits_ne_nil n.natAbs
  have hread := SignedDigits.value?_of_isWritable (hds.ne_nil hne) hlength hvalue h
  refine ⟨⟨decide (n < 0), ds⟩, hread, fun mark rest hmark => ?_⟩
  have hspells := SpellsDecimal.whole (decide (n < 0)) hds hne
  rw [toList_numeral, dropBlanks_append_of_not_blanks (hspells.isTrimmed.not_blanks hspells.ne_nil),
    hspells.isTrimmed.dropBlanks_eq]
  exact bound?_append _ hds hne (by simpa using hmark)

theorem toList_toText (r : RandomRange) :
    r.toText.toList = keyword ++ ((numeral r.low).toList ++ (',' :: ((numeral r.high).toList ++ [')']))) := by
  have hword : "random(".toList = keyword := rfl
  have hcomma : ",".toList = [','] := rfl
  have hclose : ")".toList = [')'] := rfl
  rw [toText, String.toList_append, String.toList_append, String.toList_append, String.toList_append, hword,
    hcomma, hclose]
  simp only [List.append_assoc, List.cons_append, List.nil_append]

theorem mark?_cons {mark : Char} (h : isBlank mark = false) (rest : List Char) :
    mark? mark (mark :: rest) = some rest := by
  simp [mark?, dropBlanks, List.dropWhile_cons_of_neg, h]

theorem bounds?_of_bound? {lo hi : SignedDigits} {front back : List Char}
    (hlow : bound? (dropBlanks (front ++ ',' :: back)) = some (lo, ',' :: back))
    (hhigh : bound? (dropBlanks back) = some (hi, [')'])) (hs : s.toList = keyword ++ (front ++ ',' :: back)) :
    bounds? s = some (lo, hi) := by
  have hstart : dropBlanks (keyword ++ (front ++ ',' :: back)) = keyword ++ (front ++ ',' :: back) :=
    List.dropWhile_cons_of_neg (by decide)
  have hkeyword : keyword.isPrefixOf (keyword ++ (front ++ ',' :: back)) = true := by simp
  have hcomma : mark? ',' (',' :: back) = some back := mark?_cons (by decide) back
  have hclose : mark? ')' [')'] = some [] := mark?_cons (by decide) []
  simp only [bounds?, hs, hstart, hkeyword, Bool.not_true, Bool.false_eq_true, if_false, List.drop_left, hlow,
    Option.bind_eq_bind, Option.bind_some, hcomma, hhigh, hclose, List.all_nil, if_true]

/-- A range is read back from its text. -/
theorem ofText_toText (hlow : isWritable r.low = true) (hhigh : isWritable r.high = true) :
    ofText r.toText = .ok r := by
  obtain ⟨lo, hlo, hreadLow⟩ := exists_bound_of_numeral hlow
  obtain ⟨hi, hhi, hreadHigh⟩ := exists_bound_of_numeral hhigh
  have hbounds : bounds? r.toText = some (lo, hi) :=
    bounds?_of_bound? (hreadLow ',' _ (by decide)) (hreadHigh ')' [] (by decide)) r.toList_toText
  simp only [ofText, hbounds, hlo, hhi, r.low_le_high, dif_pos]

theorem spellsDigits_of_bounds? {lo hi : SignedDigits} (h : bounds? s = some (lo, hi)) :
    (∃ front, SpellsDigits front lo.digits) ∧ ∃ front, SpellsDigits front hi.digits := by
  simp only [bounds?] at h
  split at h
  · cases h
  simp only [Option.bind_eq_bind, Option.bind_eq_some_iff] at h
  obtain ⟨⟨lo', afterLo⟩, hlow, more, -, ⟨hi', afterHi⟩, hhigh, rest, -, hlast⟩ := h
  dsimp only at hlast
  split at hlast
  · cases hlast
    exact ⟨spellsDigits_of_bound? hlow, spellsDigits_of_bound? hhigh⟩
  · cases hlast

/-- A range that is read has bounds that can be written. -/
theorem isWritable_of_ofText (h : ofText s = .ok r) : isWritable r.low = true ∧ isWritable r.high = true := by
  unfold ofText at h
  split at h
  · cases h
  next lo hi hbounds =>
    obtain ⟨⟨_, hlow⟩, ⟨_, hhigh⟩⟩ := spellsDigits_of_bounds? hbounds
    split at h
    next low high hlo hhi =>
      split at h
      · cases h
        have hlowWritten := SignedDigits.isWritable_of_value? hlow.lt_ten hlo
        exact ⟨hlowWritten, SignedDigits.isWritable_of_value? hhigh.lt_ten hhi⟩
      · cases h
    · cases h

/-! ## Draws -/

/-- Binary64 can hold, if not exactly, how many numbers the range has. -/
def isDrawable (r : RandomRange) : Bool := (ofInt r.span).toRat?.isSome

/-- With bounds far inside the range of binary64 the span is inside it, too. -/
theorem isDrawable_of_lt {k : ℕ} (hk : k ≤ safeExponent) (hlow : r.low.natAbs < 2 ^ k)
    (hhigh : r.high.natAbs < 2 ^ k) : r.isDrawable = true := by
  have hspan : r.span.natAbs ≤ 2 ^ (k + 1) := by
    have hdef : r.span = r.high - r.low + 1 := rfl
    have hpos := r.span_pos
    rw [pow_succ]
    omega
  have habs : |(r.span : ℚ)| ≤ 2 ^ (k + 1) := by
    rw [← Int.cast_abs, Int.abs_eq_natAbs]
    exact_mod_cast hspan
  have hlt : |roundedValue (r.span : ℚ)| < (2 : ℚ) ^ (1024 : ℤ) :=
    (abs_roundedValue_le_two_pow habs).trans_lt (by
      rw [← zpow_natCast]
      exact zpow_lt_zpow_right₀ (by norm_num) (by unfold safeExponent at hk; omega))
  rw [isDrawable, ofInt, toRat?_nearest hlt]
  rfl

/-- A draw that is a binary64 number is multiplied by the span, which has to be one, too. -/
theorem draw_float_of_not_isDrawable (h : r.isDrawable = false) (x : Binary64) :
    r.draw (.float x) = .error .outOfRange := by
  have hspan : (Amount.int r.span).toBinary64 = .error .outOfRange := by
    have hnone : (ofInt r.span).toRat? = none := by simpa [isDrawable] using h
    rcases special_or_finite (ofInt r.span) with hnan | ⟨negative, hinfinite⟩ | ⟨q, hq⟩
    · have hnumber : (ofInt r.span).isNaN = false := isNaN_nearest _
      rw [hnan] at hnumber
      cases hnumber
    · rw [Amount.toBinary64, hinfinite]
    · cases hnone.symm.trans hq
  simp only [draw, Amount.mul, Amount.combine, hspan]
  rfl

/-- Every draw selects a number of the range exactly if binary64 can hold how many there are. -/
theorem isDrawable_iff :
    r.isDrawable = true ↔ ∀ u, isDraw u = true → ∃ n, r.draw u = .ok n ∧ r.low ≤ n ∧ n ≤ r.high := by
  constructor
  · intro h u hu
    obtain ⟨m, hm⟩ := Option.isSome_iff_exists.mp h
    exact r.exists_draw_of_toRat? hm hu
  · intro h
    by_contra hnot
    obtain ⟨n, hn, -⟩ := h (.float zero) (isDraw_of_toRat? rfl le_rfl zero_lt_one)
    cases (draw_float_of_not_isDrawable (Bool.eq_false_iff.mpr hnot) zero).symm.trans hn

end

end RandomRange

end SurvivalRules
