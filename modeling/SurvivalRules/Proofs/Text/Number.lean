import SurvivalRules.Proofs.Text.Blank
import SurvivalRules.Text.Number

/-!
# Laws of numbers in texts

What is left behind a number is an end of the text. So a trimmed text in the form of a number is one, because
no separator stands beside it.
-/
namespace SurvivalRules.Text

section

variable (digit : Char → Option Nat) (cs : List Char)

theorem splitSign_suffix : (splitSign cs).2 <:+ cs := by
  unfold splitSign
  split
  · exact List.suffix_cons _ _
  · exact List.suffix_cons _ _
  · exact List.suffix_rfl

theorem spanDigits_suffix : (spanDigits digit cs).2 <:+ cs := by
  induction cs with
  | nil => exact List.suffix_rfl
  | cons c rest ih =>
    unfold spanDigits
    cases digit c with
    | none => exact List.suffix_rfl
    | some d => exact ih.trans (List.suffix_cons c rest)

theorem splitFraction_suffix (ds : List Nat) : ((splitFraction digit cs).getD (ds, cs)).2 <:+ cs := by
  unfold splitFraction
  split
  · exact (spanDigits_suffix digit _).trans (List.suffix_cons _ _)
  · exact List.suffix_rfl

theorem splitExponent_suffix (n : Int) : ((splitExponent? digit cs).getD (n, cs)).2 <:+ cs := by
  cases cs with
  | nil => exact List.suffix_rfl
  | cons c rest =>
    simp only [splitExponent?]
    split
    · split
      · exact List.suffix_rfl
      next ds tail _ hspan =>
        have htail := spanDigits_suffix digit (splitSign rest).2
        rw [hspan] at htail
        exact (htail.trans (splitSign_suffix rest)).trans (List.suffix_cons c rest)
    · exact List.suffix_rfl

end

theorem scanNumber_suffix {digit : Char → Option Nat} {cs rest : List Char} {n : Scanned}
    (h : scanNumber digit cs = some (n, rest)) : rest <:+ cs := by
  simp only [scanNumber] at h
  split at h
  · cases h
  cases h
  refine (splitExponent_suffix digit _ 0).trans ?_
  refine (splitFraction_suffix digit _ []).trans ?_
  exact (spanDigits_suffix digit _).trans (splitSign_suffix cs)

/-- No separator stands beside a number that fills a trimmed text. -/
theorem looseNumber_ne_misplaced {cs : List Char} (h : IsTrimmed cs) :
    looseNumber (String.ofList cs) ≠ .misplaced := by
  unfold looseNumber
  simp only [String.toList_ofList, h.dropBlanks_eq]
  split
  · simp
  split
  · simp
  next n rest hscan =>
    split
    next hrest =>
      obtain ⟨front, hfront⟩ := scanNumber_suffix hscan
      have hblanks : Blanks rest := List.all_eq_true.mp hrest
      have hend : rest = [] := by
        rw [← hfront] at h
        exact h.end_eq_nil hblanks
      have hstart : cs.takeWhile isBlank = [] := by
        have hcs : cs.takeWhile isBlank ++ cs.dropWhile isBlank = cs := List.takeWhile_append_dropWhile
        rw [← hcs] at h
        exact h.start_eq_nil fun _ hc => List.mem_takeWhile_imp hc
      simp [hstart, hend]
    · simp

end SurvivalRules.Text
