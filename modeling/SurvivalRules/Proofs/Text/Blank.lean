import Mathlib
import SurvivalRules.Text.Blank

/-!
# Laws of trimming

A text is what it is trimmed to with blanks around it, and blanks around a text do not change what it is
trimmed to. A trimmed text has no blank at either end.
-/
namespace SurvivalRules.Text

variable {front cs back : List Char}

def Blanks (cs : List Char) : Prop := ∀ c ∈ cs, isBlank c = true

theorem blanks_nil : Blanks [] := fun _ hc => absurd hc List.not_mem_nil

theorem Blanks.append (hfront : Blanks front) (hback : Blanks back) : Blanks (front ++ back) :=
  fun c hc => (List.mem_append.mp hc).elim (hfront c) (hback c)

theorem dropBlanks_append (h : Blanks front) : dropBlanks (front ++ cs) = dropBlanks cs :=
  List.dropWhile_append_of_pos h

theorem trimEnd_append (h : Blanks back) : trimEnd (cs ++ back) = trimEnd cs := by
  unfold trimEnd
  rw [List.reverse_append, List.dropWhile_append_of_pos fun c hc => h c (List.mem_reverse.mp hc)]

theorem dropBlanks_eq_nil_iff : dropBlanks cs = [] ↔ Blanks cs := List.dropWhile_eq_nil_iff

theorem dropBlanks_append_of_not_blanks (h : ¬ Blanks cs) (rest : List Char) :
    dropBlanks (cs ++ rest) = dropBlanks cs ++ rest := by
  have hne : dropBlanks cs ≠ [] := fun he => h (dropBlanks_eq_nil_iff.mp he)
  unfold dropBlanks at hne ⊢
  rw [List.dropWhile_append, if_neg (by simpa using hne)]

theorem trimEnd_append_of_not_blanks (front : List Char) (h : ¬ Blanks cs) :
    trimEnd (front ++ cs) = front ++ trimEnd cs := by
  have hreverse : ¬ Blanks cs.reverse := fun hb => h fun c hc => hb c (List.mem_reverse.mpr hc)
  have hdrop := dropBlanks_append_of_not_blanks hreverse front.reverse
  unfold dropBlanks at hdrop
  unfold trimEnd
  rw [List.reverse_append, hdrop, List.reverse_append, List.reverse_reverse]

/-- Blanks around a text do not change what it is trimmed to. -/
theorem trim_append (hfront : Blanks front) (hback : Blanks back) : trim (front ++ cs ++ back) = trim cs := by
  unfold trim
  rw [List.append_assoc, dropBlanks_append hfront]
  by_cases hcs : Blanks cs
  · rw [dropBlanks_eq_nil_iff.mpr hcs, dropBlanks_eq_nil_iff.mpr (hcs.append hback)]
  · rw [dropBlanks_append_of_not_blanks hcs, trimEnd_append hback]

theorem exists_blanks_dropBlanks (cs : List Char) : ∃ front, Blanks front ∧ cs = front ++ dropBlanks cs :=
  ⟨cs.takeWhile isBlank, fun _ hc => List.mem_takeWhile_imp hc, List.takeWhile_append_dropWhile.symm⟩

theorem exists_trimEnd_blanks (cs : List Char) : ∃ back, Blanks back ∧ cs = trimEnd cs ++ back :=
  ⟨cs.rtakeWhile isBlank, fun _ hc => List.mem_rtakeWhile_imp hc, (List.rdropWhile_append_rtakeWhile).symm⟩

/-- A text is what it is trimmed to with blanks around it. -/
theorem exists_trim_blanks (cs : List Char) : ∃ front back, Blanks front ∧ Blanks back ∧
    cs = front ++ trim cs ++ back := by
  obtain ⟨front, hfront, hcs⟩ := exists_blanks_dropBlanks cs
  obtain ⟨back, hback, hrest⟩ := exists_trimEnd_blanks (dropBlanks cs)
  refine ⟨front, back, hfront, hback, ?_⟩
  rw [List.append_assoc, trim, ← hrest, ← hcs]

theorem trim_eq_nil_iff : trim cs = [] ↔ Blanks cs := by
  constructor
  · intro h
    obtain ⟨front, back, hfront, hback, hcs⟩ := exists_trim_blanks cs
    rw [h, List.append_nil] at hcs
    rw [hcs]
    exact hfront.append hback
  · intro h
    rw [trim, dropBlanks_eq_nil_iff.mpr h]
    rfl

theorem isInfix_trim (cs : List Char) : trim cs <:+: cs := by
  obtain ⟨front, back, -, -, h⟩ := exists_trim_blanks cs
  exact ⟨front, back, h.symm⟩

theorem trim_dropBlanks (cs : List Char) : trim (dropBlanks cs) = trim cs := by
  obtain ⟨front, hfront, hcs⟩ := exists_blanks_dropBlanks cs
  have h : trim (front ++ dropBlanks cs ++ []) = trim (dropBlanks cs) := trim_append hfront blanks_nil
  rw [List.append_nil, ← hcs] at h
  exact h.symm

theorem trim_trimEnd (cs : List Char) : trim (trimEnd cs) = trim cs := by
  obtain ⟨back, hback, hcs⟩ := exists_trimEnd_blanks cs
  have h : trim ([] ++ trimEnd cs ++ back) = trim (trimEnd cs) := trim_append blanks_nil hback
  rw [List.nil_append, ← hcs] at h
  exact h.symm

theorem trim_trim (cs : List Char) : trim (trim cs) = trim cs := by
  obtain ⟨front, back, hfront, hback, h⟩ := exists_trim_blanks cs
  have hcs : trim (front ++ trim cs ++ back) = trim (trim cs) := trim_append hfront hback
  rw [← h] at hcs
  exact hcs.symm

/-- Nothing is left to trim. -/
def IsTrimmed (cs : List Char) : Prop := trim cs = cs

theorem isTrimmed_trim (cs : List Char) : IsTrimmed (trim cs) := trim_trim cs

theorem isTrimmed_of_not_blank (h : ∀ c ∈ cs, isBlank c = false) : IsTrimmed cs := by
  have hstart : dropBlanks cs = cs := List.dropWhile_eq_self_iff.mpr fun hlength => by
    simp [h _ (List.getElem_mem hlength)]
  have hend : trimEnd cs = cs := List.rdropWhile_eq_self_iff.mpr fun hne => by
    simp [h _ (List.getLast_mem hne)]
  rw [IsTrimmed, trim, hstart, hend]

namespace IsTrimmed

theorem eq_nil_of_blanks (h : IsTrimmed (front ++ cs ++ back)) (hfront : Blanks front) (hback : Blanks back) :
    front = [] ∧ back = [] := by
  have hlength := (isInfix_trim cs).length_le
  rw [← trim_append hfront hback, h, List.length_append, List.length_append] at hlength
  exact ⟨List.length_eq_zero_iff.mp (by omega), List.length_eq_zero_iff.mp (by omega)⟩

theorem start_eq_nil (h : IsTrimmed (front ++ cs)) (hfront : Blanks front) : front = [] := by
  rw [← List.append_nil (front ++ cs)] at h
  exact (h.eq_nil_of_blanks hfront blanks_nil).1

theorem end_eq_nil (h : IsTrimmed (cs ++ back)) (hback : Blanks back) : back = [] := by
  rw [← List.nil_append cs] at h
  exact (h.eq_nil_of_blanks blanks_nil hback).2

theorem dropBlanks_eq (h : IsTrimmed cs) : dropBlanks cs = cs := by
  obtain ⟨front, hfront, hcs⟩ := exists_blanks_dropBlanks cs
  rw [hcs] at h
  rw [h.start_eq_nil hfront, List.nil_append] at hcs
  exact hcs.symm

theorem not_blanks (h : IsTrimmed cs) (hne : cs ≠ []) : ¬ Blanks cs := fun hblanks =>
  hne (h.symm.trans (trim_eq_nil_iff.mpr hblanks))

/-- Only the ends of a text matter. -/
theorem between (hfront : IsTrimmed front) (hne : front ≠ []) (mid : List Char) (hback : IsTrimmed back)
    (hne' : back ≠ []) : IsTrimmed (front ++ mid ++ back) := by
  have hend : trimEnd back = back := by
    have htrim : trimEnd (dropBlanks back) = back := hback
    rwa [hback.dropBlanks_eq] at htrim
  rw [IsTrimmed, trim, List.append_assoc, dropBlanks_append_of_not_blanks (hfront.not_blanks hne),
    hfront.dropBlanks_eq, ← List.append_assoc, trimEnd_append_of_not_blanks _ (hback.not_blanks hne'), hend]

end IsTrimmed

/-! ## Joined texts -/

section

variable (sep : List Char) {pieces : List (List Char)}

theorem exists_intercalate_cons (more : List (List Char)) :
    ∃ rest, ∀ first : List Char, sep.intercalate (first :: more) = first ++ rest := by
  cases more with
  | nil => exact ⟨[], fun first => by rw [List.intercalate_singleton, List.append_nil]⟩
  | cons second others =>
    exact ⟨sep ++ sep.intercalate (second :: others), fun first => by
      rw [List.intercalate_cons_cons, List.append_assoc]⟩

theorem exists_intercalate_concat (front : List (List Char)) :
    ∃ start, ∀ last : List Char, sep.intercalate (front ++ [last]) = start ++ last := by
  induction front with
  | nil => exact ⟨[], fun last => List.intercalate_singleton⟩
  | cons first more ih =>
    obtain ⟨start, hstart⟩ := ih
    refine ⟨first ++ sep ++ start, fun last => ?_⟩
    rw [List.cons_append, List.intercalate_cons_of_ne_nil (by simp), hstart, List.append_assoc _ start]

/-- To trim a joined text is to trim its first piece in front and its last one behind. -/
theorem exists_trim_intercalate (hne : pieces ≠ []) (h : ∀ piece ∈ pieces, ¬ Blanks piece) :
    ∃ trimmed, trim (sep.intercalate pieces) = sep.intercalate trimmed ∧
      trimmed.map trim = pieces.map trim ∧ ∀ q ∈ trimmed, ∃ piece ∈ pieces, q <:+: piece := by
  obtain ⟨first, more, rfl⟩ := List.exists_cons_of_ne_nil hne
  obtain ⟨hfirst, hmore⟩ := List.forall_mem_cons.mp h
  obtain ⟨rest, hrest⟩ := exists_intercalate_cons sep more
  have hdrop : dropBlanks (sep.intercalate (first :: more)) = sep.intercalate (dropBlanks first :: more) := by
    rw [hrest, hrest, dropBlanks_append_of_not_blanks hfirst]
  rcases List.eq_nil_or_concat more with rfl | ⟨middle, last, rfl⟩
  · refine ⟨[trim first], ?_, by simp [trim_trim], ?_⟩
    · rw [List.intercalate_singleton, List.intercalate_singleton]
    · exact fun q hq => ⟨first, List.mem_cons_self, List.mem_singleton.mp hq ▸ isInfix_trim first⟩
  · rw [List.concat_eq_append] at *
    have hlast : ¬ Blanks last := hmore last (by simp)
    obtain ⟨start, hstart⟩ := exists_intercalate_concat sep (dropBlanks first :: middle)
    refine ⟨dropBlanks first :: middle ++ [trimEnd last], ?_, ?_, ?_⟩
    · rw [trim, hdrop, ← List.cons_append, hstart, hstart, trimEnd_append_of_not_blanks _ hlast]
    · simp [trim_dropBlanks, trim_trimEnd]
    · intro q hq
      simp only [List.cons_append, List.mem_cons, List.mem_append, List.not_mem_nil, or_false] at hq
      rcases hq with rfl | hmiddle | rfl
      · exact ⟨first, List.mem_cons_self, (List.dropWhile_suffix _).isInfix⟩
      · exact ⟨q, by simp [hmiddle], List.infix_rfl⟩
      · exact ⟨last, by simp, (List.rdropWhile_prefix _ _).isInfix⟩

end

end SurvivalRules.Text
