import SurvivalRules.Proofs.Content.Orderly
import SurvivalRules.Proofs.Text.Split

/-!
# Reading a condition piece by piece

A condition is cut where two marks in a row stand between spaces. Each of its terms comes from one of the
pieces, so that a condition without alternatives is plain when the term of every piece is.
-/
namespace SurvivalRules

theorem exists_of_mem_mapM {ε α β : Type} {f : α → Except ε β} {l : List α} {bs : List β}
    (h : l.mapM f = .ok bs) {b : β} (hb : b ∈ bs) : ∃ a ∈ l, f a = .ok b := by
  induction l generalizing bs with
  | nil =>
    cases h
    cases hb
  | cons a rest ih =>
    rw [List.mapM_cons] at h
    obtain ⟨first, hfirst, h⟩ := bind_eq_ok_iff.mp h
    obtain ⟨more, hmore, h⟩ := bind_eq_ok_iff.mp h
    cases pure_eq_ok_iff.mp h
    rcases List.mem_cons.mp hb with rfl | hrest
    · exact ⟨a, List.mem_cons_self, hfirst⟩
    · obtain ⟨a', ha', he⟩ := ih hmore hrest
      exact ⟨a', List.mem_cons_of_mem _ ha', he⟩

namespace Condition

open Text

/-- A piece without alternatives whose term, if it can be read, is plain. -/
def isPlainPiece (cs : List Char) : Bool :=
  !cs.contains '|' && (Term.read (trim cs)).toOption.all Term.isPlain

theorem isPlain_of_readClause {cs : List Char} (hcs : isPlainPiece cs = true) {clause : List Term}
    (h : readClause cs = .ok clause) : ∀ t ∈ clause, t.isPlain = true := by
  intro t ht
  obtain ⟨hbar, hterm⟩ := Bool.and_eq_true_iff.mp hcs
  have hmem : '|' ∉ cs := by simpa using hbar
  rw [readClause, splitAtDoubled_of_not_mem hmem] at h
  obtain ⟨piece, hpiece, hread⟩ := exists_of_mem_mapM h ht
  cases List.mem_singleton.mp hpiece
  rwa [hread] at hterm

/-- The pieces of several clauses are trimmed before they are read, a single one is not. -/
theorem isPlain_of_pieces {text : String} {pieces : List (List Char)}
    (hpieces : splitAtDoubled '&' text.toList = pieces)
    (hplain : ∀ piece ∈ pieces, isPlainPiece piece = true ∧ isPlainPiece (trim piece) = true) :
    IsPlain text := by
  intro condition hread clause hclause
  unfold read at hread
  split at hread
  · cases hread
  unfold readChars at hread
  rw [hpieces] at hread
  split at hread
  next whole =>
    obtain ⟨first, hfirst, hread⟩ := bind_eq_ok_iff.mp hread
    cases pure_eq_ok_iff.mp hread
    cases List.mem_singleton.mp hclause
    exact isPlain_of_readClause (hplain whole List.mem_cons_self).1 hfirst
  next =>
    obtain ⟨clauses, hclauses, hread⟩ := bind_eq_ok_iff.mp hread
    cases pure_eq_ok_iff.mp hread
    obtain ⟨piece, hpiece, hfirst⟩ := exists_of_mem_mapM hclauses hclause
    exact isPlain_of_readClause (hplain piece hpiece).2 hfirst

/-- A condition of one clause. -/
theorem isPlain_clause {text : String} (hmark : '&' ∉ text.toList)
    (hplain : isPlainPiece text.toList = true ∧ isPlainPiece (trim text.toList) = true) :
    IsPlain text := by
  refine isPlain_of_pieces (splitAtDoubled_of_not_mem hmark) fun piece hpiece => ?_
  cases List.mem_singleton.mp hpiece
  exact hplain

/-- A condition of two clauses. -/
theorem isPlain_clauses (left right : String) {text : String}
    (htext : text.toList = left.toList ++ " && ".toList ++ right.toList)
    (hmarks : '&' ∉ left.toList ∧ '&' ∉ right.toList)
    (hplain : ∀ piece ∈ [left.toList, right.toList],
      isPlainPiece piece = true ∧ isPlainPiece (trim piece) = true) :
    IsPlain text := by
  refine isPlain_of_pieces ?_ hplain
  have hamp : ('&' : Char) ≠ ' ' := by decide
  have hjoin : " && ".toList = doubled '&' := rfl
  rw [htext, hjoin, splitAtDoubled_append hamp hmarks.1, splitAtDoubled_of_not_mem hmarks.2]

end Condition

end SurvivalRules
