import Mathlib
import SurvivalRules.Text.Split

/-!
# Laws of cutting at doubled marks

A text is cut at two marks in a row that stand between two spaces. The pieces are parts of the text, none of
them holds the separator, and pieces without marks come back as they were joined.
-/
namespace SurvivalRules.Text

variable {mark c : Char} {cs piece : List Char}

/-- What a text is cut at. -/
def doubled (mark : Char) : List Char := [' ', mark, mark, ' ']

@[simp] theorem splitAtDoubled_nil (mark : Char) : splitAtDoubled mark [] = [[]] := by
  rw [splitAtDoubled]

theorem splitAtDoubled_cut (mark : Char) (rest : List Char) :
    splitAtDoubled mark (doubled mark ++ rest) = [] :: splitAtDoubled mark rest := by
  simp only [doubled, List.cons_append, List.nil_append]
  rw [splitAtDoubled, if_pos ⟨rfl, rfl⟩]

/-- Nothing is cut in front of a character that starts no separator. -/
theorem splitAtDoubled_cons (h : ¬ doubled mark <+: c :: cs) :
    splitAtDoubled mark (c :: cs) = consPiece c (splitAtDoubled mark cs) := by
  rw [splitAtDoubled.eq_def]
  split
  next hnil => cases hnil
  next a b rest hcs =>
    cases hcs
    have hne : ¬ (a = mark ∧ b = mark) := by
      rintro ⟨rfl, rfl⟩
      exact h ⟨rest, rfl⟩
    rw [if_neg hne]
  next hcs =>
    cases hcs
    rfl

/-- Induction along the cuts: a text is empty, or starts with a separator, or with a character that starts
none. -/
theorem doubled_induction {P : List Char → Prop} (mark : Char) (nil : P [])
    (cut : ∀ rest, P rest → P (doubled mark ++ rest))
    (cons : ∀ c cs, ¬ doubled mark <+: c :: cs → P cs → P (c :: cs)) (cs : List Char) : P cs := by
  induction hn : cs.length using Nat.strong_induction_on generalizing cs with
  | _ n ih =>
    subst hn
    by_cases hcut : doubled mark <+: cs
    · obtain ⟨rest, rfl⟩ := hcut
      have hlt : rest.length < (doubled mark ++ rest).length := by
        rw [List.length_append]
        exact Nat.lt_add_of_pos_left (Nat.succ_pos _)
      exact cut rest (ih rest.length hlt rest rfl)
    · cases cs with
      | nil => exact nil
      | cons c cs => exact cons c cs hcut (ih cs.length (Nat.lt_succ_self _) cs rfl)

/-- There is a first piece, which the text starts with, and every piece is a part of the text. -/
theorem splitAtDoubled_spec (mark : Char) (cs : List Char) : ∃ first more,
    splitAtDoubled mark cs = first :: more ∧ first <+: cs ∧ ∀ piece ∈ more, piece <:+: cs := by
  induction cs using doubled_induction mark with
  | nil => exact ⟨[], [], splitAtDoubled_nil mark, List.nil_prefix, by simp⟩
  | cut rest ih =>
    obtain ⟨first, more, hsplit, hfirst, hmore⟩ := ih
    refine ⟨[], first :: more, by rw [splitAtDoubled_cut, hsplit], List.nil_prefix, ?_⟩
    have hrest : rest <:+: doubled mark ++ rest := (List.suffix_append _ _).isInfix
    exact List.forall_mem_cons.mpr
      ⟨hfirst.isInfix.trans hrest, fun piece hpiece => (hmore piece hpiece).trans hrest⟩
  | cons c cs hcut ih =>
    obtain ⟨first, more, hsplit, hfirst, hmore⟩ := ih
    refine ⟨c :: first, more, by rw [splitAtDoubled_cons hcut, hsplit]; rfl, ?_, ?_⟩
    · exact List.cons_prefix_cons.mpr ⟨rfl, hfirst⟩
    · exact fun piece hpiece => (hmore piece hpiece).trans (List.suffix_cons c cs).isInfix

theorem infix_of_mem_splitAtDoubled (h : piece ∈ splitAtDoubled mark cs) : piece <:+: cs := by
  obtain ⟨first, more, hsplit, hfirst, hmore⟩ := splitAtDoubled_spec mark cs
  rw [hsplit] at h
  rcases List.mem_cons.mp h with rfl | hrest
  · exact hfirst.isInfix
  · exact hmore piece hrest

/-- No piece holds the separator. -/
theorem not_doubled_of_mem_splitAtDoubled (h : piece ∈ splitAtDoubled mark cs) :
    ¬ doubled mark <:+: piece := by
  induction cs using doubled_induction mark generalizing piece with
  | nil =>
    rw [splitAtDoubled_nil] at h
    cases List.mem_singleton.mp h
    simp [doubled]
  | cut rest ih =>
    rw [splitAtDoubled_cut] at h
    rcases List.mem_cons.mp h with rfl | hrest
    · simp [doubled]
    · exact ih hrest
  | cons c cs hcut ih =>
    obtain ⟨first, more, hsplit, hfirst, -⟩ := splitAtDoubled_spec mark cs
    rw [splitAtDoubled_cons hcut, hsplit] at h
    rw [hsplit] at ih
    rcases List.mem_cons.mp h with rfl | hmore
    · intro hin
      -- a separator in the longer piece starts at its first character or stands in the old piece
      rcases List.infix_cons_iff.mp hin with hstart | hlater
      · exact hcut (hstart.trans (List.cons_prefix_cons.mpr ⟨rfl, hfirst⟩))
      · exact ih List.mem_cons_self hlater
    · exact ih (List.mem_cons_of_mem _ hmore)

theorem splitAtDoubled_of_not_doubled (h : ¬ doubled mark <:+: cs) : splitAtDoubled mark cs = [cs] := by
  induction cs with
  | nil => exact splitAtDoubled_nil mark
  | cons c rest ih =>
    have hcut : ¬ doubled mark <+: c :: rest := fun hc => h hc.isInfix
    have hrest : ¬ doubled mark <:+: rest := fun hr => h (hr.trans (List.suffix_cons c rest).isInfix)
    rw [splitAtDoubled_cons hcut, ih hrest]
    rfl

/-- The pieces make up the text. -/
theorem intercalate_splitAtDoubled (mark : Char) (cs : List Char) :
    (doubled mark).intercalate (splitAtDoubled mark cs) = cs := by
  induction cs using doubled_induction mark with
  | nil => rw [splitAtDoubled_nil, List.intercalate_singleton]
  | cut rest ih =>
    obtain ⟨first, more, hsplit, -⟩ := splitAtDoubled_spec mark rest
    rw [hsplit] at ih
    rw [splitAtDoubled_cut, hsplit, List.intercalate_cons_cons, ih, List.nil_append]
  | cons c cs hcut ih =>
    obtain ⟨first, more, hsplit, -⟩ := splitAtDoubled_spec mark cs
    rw [hsplit] at ih
    rw [splitAtDoubled_cons hcut, hsplit, consPiece]
    cases more with
    | nil => rw [List.intercalate_singleton] at ih ⊢; rw [ih]
    | cons second others =>
      rw [List.intercalate_cons_cons] at ih ⊢
      rw [List.cons_append, List.cons_append, ih]

/-- A text with a separator has several pieces. -/
theorem length_splitAtDoubled_ne_one (h : doubled mark <:+: cs) : (splitAtDoubled mark cs).length ≠ 1 := by
  intro hone
  obtain ⟨piece, hpiece⟩ := List.length_eq_one_iff.mp hone
  have hcs := intercalate_splitAtDoubled mark cs
  rw [hpiece, List.intercalate_singleton] at hcs
  exact not_doubled_of_mem_splitAtDoubled (hpiece ▸ List.mem_singleton_self piece) (hcs ▸ h)

/-- A text with a separator is cut into shorter pieces. -/
theorem length_lt_of_mem_splitAtDoubled (hcut : doubled mark <:+: cs) (h : piece ∈ splitAtDoubled mark cs) :
    piece.length < cs.length := by
  have hpart := infix_of_mem_splitAtDoubled h
  refine lt_of_le_of_ne hpart.length_le fun he => ?_
  rw [hpart.eq_of_length he] at h
  exact not_doubled_of_mem_splitAtDoubled h hcut

theorem splitAtDoubled_append (hmark : mark ≠ ' ') (h : mark ∉ piece) (rest : List Char) :
    splitAtDoubled mark (piece ++ doubled mark ++ rest) = piece :: splitAtDoubled mark rest := by
  induction piece with
  | nil => exact splitAtDoubled_cut mark rest
  | cons c more ih =>
    obtain ⟨-, hmore⟩ := not_or.mp (List.mem_cons.not.mp h)
    have hcut : ¬ doubled mark <+: c :: (more ++ doubled mark ++ rest) := by
      intro hp
      obtain ⟨-, htail⟩ := List.cons_prefix_cons.mp hp
      -- the mark would stand at the start of what follows
      cases more with
      | nil => exact hmark (List.cons_prefix_cons.mp htail).1
      | cons d others => exact hmore ((List.cons_prefix_cons.mp htail).1 ▸ List.mem_cons_self)
    rw [List.cons_append, List.cons_append, splitAtDoubled_cons hcut, ih hmore]
    rfl

theorem splitAtDoubled_of_not_mem (h : mark ∉ cs) : splitAtDoubled mark cs = [cs] :=
  splitAtDoubled_of_not_doubled fun hd => h (hd.subset (by simp [doubled]))

/-- Pieces without the mark come back as they were joined. -/
theorem splitAtDoubled_intercalate (hmark : mark ≠ ' ') {pieces : List (List Char)} (hne : pieces ≠ [])
    (h : ∀ piece ∈ pieces, mark ∉ piece) : splitAtDoubled mark ((doubled mark).intercalate pieces) = pieces := by
  induction pieces with
  | nil => exact absurd rfl hne
  | cons piece more ih =>
    obtain ⟨hpiece, hmore⟩ := List.forall_mem_cons.mp h
    cases more with
    | nil =>
      rw [List.intercalate_singleton]
      exact splitAtDoubled_of_not_mem hpiece
    | cons second others =>
      rw [List.intercalate_cons_cons, splitAtDoubled_append hmark hpiece,
        ih (List.cons_ne_nil _ _) hmore]

end SurvivalRules.Text
