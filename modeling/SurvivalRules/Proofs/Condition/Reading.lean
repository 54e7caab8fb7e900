import SurvivalRules.Proofs.Condition.Tree

/-!
# Reading conditions by pieces

A condition is read when each of its pieces is: its clauses are those of its parts, and the terms of a clause
those of its alternatives. A blank text needs no check of its own.
-/
namespace SurvivalRules

open Text

theorem exists_forall₂_iff {α β : Type} {R : α → β → Prop} {l : List α} :
    (∃ bs, List.Forall₂ R l bs) ↔ ∀ a ∈ l, ∃ b, R a b := by
  induction l with
  | nil => simp
  | cons a rest ih =>
    rw [List.forall_mem_cons, ← ih]
    constructor
    · rintro ⟨bs, hcons⟩
      obtain ⟨b, more, hfirst, hrest, -⟩ := List.forall₂_cons_left_iff.mp hcons
      exact ⟨⟨b, hfirst⟩, more, hrest⟩
    · rintro ⟨⟨b, hfirst⟩, bs, hrest⟩
      exact ⟨b :: bs, .cons hfirst hrest⟩

theorem readClause_eq_ok_iff {part : List Char} {clause : List Term} :
    readClause part = .ok clause ↔
      List.Forall₂ (fun piece t => Term.read (trim piece) = .ok t) (splitAtDoubled '|' part) clause :=
  mapM_eq_ok_iff

namespace Condition

variable {cs : List Char} {c : Condition}

/-- The parts that have to hold: the only one as it stands, several ones trimmed. -/
def conjuncts (cs : List Char) : List (List Char) :=
  match splitAtDoubled '&' cs with
  | [whole] => [whole]
  | parts => parts.map trim

theorem conjuncts_of_length_ne_one (h : (splitAtDoubled '&' cs).length ≠ 1) :
    conjuncts cs = (splitAtDoubled '&' cs).map trim := by
  unfold conjuncts
  split
  next whole hwhole => exact absurd (congrArg List.length hwhole) h
  next => rfl

theorem conjuncts_of_not_mem (h : '&' ∉ cs) : conjuncts cs = [cs] := by
  rw [conjuncts, splitAtDoubled_of_not_mem h]

theorem readChars_eq (cs : List Char) : readChars cs = Condition.mk <$> (conjuncts cs).mapM readClause := by
  unfold readChars conjuncts
  generalize splitAtDoubled '&' cs = parts
  have hseveral : (return ⟨← parts.mapM fun piece => readClause (trim piece)⟩) =
      Condition.mk <$> (parts.map trim).mapM readClause := by
    rw [List.mapM_map, map_eq_pure_bind]
    rfl
  rcases parts with _ | ⟨whole, _ | ⟨second, rest⟩⟩
  · exact hseveral
  · dsimp only
    rw [List.mapM_cons]
    cases readClause whole <;> rfl
  · exact hseveral

theorem readChars_eq_ok_iff : readChars cs = .ok c ↔
    List.Forall₂ (fun part clause => readClause part = .ok clause) (conjuncts cs) c.clauses := by
  rw [readChars_eq, ← mapM_eq_ok_iff]
  cases (conjuncts cs).mapM readClause with
  | error cause => simp
  | ok clauses =>
    obtain ⟨found⟩ := c
    simp

theorem readChars_of_blanks (h : Blanks cs) : ∃ cause, readChars cs = .error cause := by
  have hmark : ∀ mark : Char, isBlank mark = false → mark ∉ cs := fun mark hmark hmem => by
    rw [h mark hmem] at hmark
    cases hmark
  have hand : '&' ∉ cs := hmark '&' (by decide)
  have hor : '|' ∉ cs := hmark '|' (by decide)
  refine ⟨.emptyTerm, ?_⟩
  rw [readChars_eq, conjuncts_of_not_mem hand, List.mapM_cons, readClause, splitAtDoubled_of_not_mem hor,
    List.mapM_cons, trim_eq_nil_iff.mpr h]
  rfl

theorem read_eq_ok_iff {expression : String} :
    read expression = .ok c ↔ readChars expression.toList = .ok c := by
  unfold read
  split
  next hblank =>
    obtain ⟨cause, hcause⟩ := readChars_of_blanks (trim_eq_nil_iff.mp (List.isEmpty_iff.mp hblank))
    rw [hcause]
    constructor <;> intro h <;> cases h
  next => exact Iff.rfl

/-- A text without marks is a single term. -/
theorem read_single_iff {text : String} (hand : '&' ∉ text.toList) (hor : '|' ∉ text.toList) :
    read text = .ok c ↔ ∃ t, Term.read (trim text.toList) = .ok t ∧ c = ⟨[[t]]⟩ := by
  rw [read_eq_ok_iff, readChars_eq_ok_iff, conjuncts_of_not_mem hand]
  simp only [List.forall₂_cons_left_iff, List.forall₂_nil_left_iff, readClause_eq_ok_iff,
    splitAtDoubled_of_not_mem hor]
  obtain ⟨clauses⟩ := c
  constructor
  · rintro ⟨clause, rest, ⟨t, more, ht, rfl, rfl⟩, rfl, rfl⟩
    exact ⟨t, ht, rfl⟩
  · rintro ⟨t, ht, he⟩
    cases he
    exact ⟨[t], [], ⟨t, [], ht, rfl, rfl⟩, rfl, rfl⟩

end Condition

namespace Raising

variable {expression : String} {n : Node} {e : Raised}

theorem compileTree_eq_ok_iff :
    compileTree expression = .ok n ↔ ∃ c, Condition.read expression = .ok c ∧ c.tree = n := by
  rw [compileTree_eq]
  cases Condition.read expression with
  | error cause => simp [Except.mapError]
  | ok c => simp [Except.mapError]

theorem compileTree_single {t : Term} (hand : '&' ∉ expression.toList) (hor : '|' ∉ expression.toList)
    (h : Term.read (trim expression.toList) = .ok t) : compileTree expression = .ok (.term t) :=
  compileTree_eq_ok_iff.mpr ⟨_, (Condition.read_single_iff hand hor).mpr ⟨t, h, rfl⟩, rfl⟩

/-- A condition that cannot be compiled fails with an error of its own. -/
theorem condition_of_compileTree (h : compileTree expression = .error e) : ∃ cause, e = .condition cause := by
  rw [compileTree_eq] at h
  cases hread : Condition.read expression with
  | error cause =>
    rw [hread] at h
    cases h
    exact ⟨cause, rfl⟩
  | ok c =>
    rw [hread] at h
    cases h

end Raising

end SurvivalRules
