import SurvivalRules.Condition.Reader
import SurvivalRules.Proofs.Text.Blank

/-!
# Cutting comparisons

A comparison is cut at the first place behind its left side where an operator has a right side. That operator is
the longest at the place, except that an operator of two characters without a right side of its own gives its
second character away.
-/
namespace SurvivalRules

open Text

namespace Comparison

variable {op other short : Comparison} {cs gap tail value : List Char}

/-- The characters that operators start with. -/
def isMark (c : Char) : Bool := c = '>' || c = '<' || c = '=' || c = '!'

theorem exists_symbol (op : Comparison) : ∃ c rest, op.symbol.toList = c :: rest ∧ isMark c = true ∧
    isBlank c = false := by
  cases op with
  | atLeast => exact ⟨'>', ['='], by decide⟩
  | atMost => exact ⟨'<', ['='], by decide⟩
  | greater => exact ⟨'>', [], by decide⟩
  | less => exact ⟨'<', [], by decide⟩
  | equal => exact ⟨'=', ['='], by decide⟩
  | unequal => exact ⟨'!', ['='], by decide⟩

theorem symbol_injective : Function.Injective symbol := by
  intro op other h
  revert h
  cases op <;> cases other <;> decide

/-- No operator at this place is longer. -/
def IsLongestAt (op : Comparison) (cs : List Char) : Prop :=
  op.symbol.toList <+: cs ∧
    ∀ other : Comparison, other.symbol.toList <+: cs → other.symbol.length ≤ op.symbol.length

/-- The operator that is left when the second of two characters is taken for the right side. -/
def truncated? : Comparison → Option Comparison
  | .atLeast => some .greater
  | .atMost => some .less
  | _ => none

theorem symbol_of_truncated (h : op.truncated? = some short) :
    op.symbol.toList = short.symbol.toList ++ ['='] := by
  cases op <;> cases h <;> rfl

/-- Two operators at one place are the same, or the shorter one is cut off from the longer one. -/
theorem eq_or_truncated (h : op.symbol.toList <+: cs) (hother : other.symbol.toList <+: cs)
    (hlength : op.symbol.length ≤ other.symbol.length) : op = other ∨ other.truncated? = some op := by
  have hstart : op.symbol.toList <+: other.symbol.toList := List.prefix_of_prefix_length_le h hother hlength
  revert hstart
  cases op <;> cases other <;> decide

theorem mem_inOrder (op : Comparison) : op ∈ inOrder := by cases op <;> decide

/-- A longer operator is tried before the one that is cut off from it. -/
theorem inOrder_pairwise :
    inOrder.Pairwise fun earlier later => later ≠ earlier ∧ later.truncated? ≠ some earlier := by
  decide

end Comparison

section

variable {op other short : Comparison} {cs gap tail value left taken : List Char}

theorem comparisonValue?_eq_some_iff :
    comparisonValue? cs = some value ↔ value = dropBlanks cs ∧ value ≠ [] ∧ '\n' ∉ value := by
  simp only [comparisonValue?]
  split
  next hbad =>
    simp only [reduceCtorEq, false_iff]
    rintro ⟨rfl, hne, hline⟩
    simp [hne, hline] at hbad
  next hgood =>
    simp only [Bool.or_eq_true, List.isEmpty_iff, List.contains_iff_mem, not_or] at hgood
    rw [Option.some.injEq]
    constructor
    · rintro rfl
      exact ⟨rfl, hgood⟩
    · rintro ⟨rfl, -⟩
      rfl

theorem afterOperator?_append (op : Comparison) (tail : List Char) :
    afterOperator? (op.symbol.toList ++ tail) op = (comparisonValue? tail).map (op, ·) := by
  have hstart : op.symbol.toList.isPrefixOf (op.symbol.toList ++ tail) = true :=
    List.isPrefixOf_iff_prefix.mpr (List.prefix_append _ _)
  simp only [afterOperator?, hstart, if_true, List.drop_left]

theorem afterOperator?_eq_some_iff : afterOperator? cs op = some (other, value) ↔
    other = op ∧ ∃ tail, cs = op.symbol.toList ++ tail ∧ comparisonValue? tail = some value := by
  constructor
  · intro h
    by_cases hstart : op.symbol.toList <+: cs
    · obtain ⟨tail, rfl⟩ := hstart
      rw [afterOperator?_append] at h
      obtain ⟨found, hfound, he⟩ := Option.map_eq_some_iff.mp h
      cases he
      exact ⟨rfl, tail, rfl, hfound⟩
    · simp only [afterOperator?, List.isPrefixOf_iff_prefix, if_neg hstart] at h
      cases h
  · rintro ⟨rfl, tail, rfl, htail⟩
    rw [afterOperator?_append, htail]
    rfl

theorem afterOperator?_eq_none (h : ¬ op.symbol.toList <+: cs) : afterOperator? cs op = none := by
  simp only [afterOperator?, List.isPrefixOf_iff_prefix, if_neg h]

theorem dropBlanks_symbol (hgap : Blanks gap) (op : Comparison) (tail : List Char) :
    dropBlanks (gap ++ op.symbol.toList ++ tail) = op.symbol.toList ++ tail := by
  obtain ⟨c, rest, hsymbol, -, hc⟩ := op.exists_symbol
  rw [List.append_assoc, dropBlanks_append hgap, hsymbol]
  exact List.dropWhile_cons_of_neg (by simp [hc])

/-- The longest operator is taken when it has a right side. -/
theorem operatorHere?_of_longest (hgap : Blanks gap) (hop : op.IsLongestAt (op.symbol.toList ++ tail))
    (hne : dropBlanks tail ≠ []) (hline : '\n' ∉ dropBlanks tail) :
    operatorHere? (gap ++ op.symbol.toList ++ tail) = some (op, dropBlanks tail) := by
  obtain ⟨before, after, horder⟩ := List.append_of_mem op.mem_inOrder
  have hvalue := comparisonValue?_eq_some_iff.mpr ⟨rfl, hne, hline⟩
  rw [operatorHere?, dropBlanks_symbol hgap, List.findSome?_eq_some_iff]
  refine ⟨before, op, after, horder, ?_, fun other hother => afterOperator?_eq_none fun hstart => ?_⟩
  · rw [afterOperator?_append, hvalue]
    rfl
  · have hpairs := Comparison.inOrder_pairwise
    rw [horder, List.pairwise_append] at hpairs
    obtain ⟨hdistinct, hcut⟩ := hpairs.2.2 other hother op List.mem_cons_self
    rcases Comparison.eq_or_truncated hstart hop.1 (hop.2 other hstart) with he | he
    · exact hdistinct he.symm
    · exact hcut he

/-- An operator of two characters at the end is taken for the shorter one with a right side. -/
theorem operatorHere?_of_truncated (hgap : Blanks gap) (h : op.truncated? = some short) :
    operatorHere? (gap ++ op.symbol.toList) = some (short, ['=']) := by
  have hdrop := dropBlanks_symbol hgap op []
  rw [List.append_nil, List.append_nil] at hdrop
  rw [operatorHere?, hdrop]
  cases op <;> cases h <;> decide

/-- What is cut off is the longest operator with its right side, or the first character of an operator that has
only blanks behind it. -/
theorem operatorHere?_cases (h : operatorHere? cs = some (op, value)) : ∃ gap tail, Blanks gap ∧
    cs = gap ++ op.symbol.toList ++ tail ∧ value = dropBlanks tail ∧ value ≠ [] ∧ '\n' ∉ value ∧
      (op.IsLongestAt (op.symbol.toList ++ tail) ∨
        ∃ (long : Comparison) (rest : List Char), long.truncated? = some op ∧ tail = '=' :: rest ∧ Blanks rest) := by
  obtain ⟨gap, hgap, hcs⟩ := exists_blanks_dropBlanks cs
  obtain ⟨before, found, after, horder, hfound, hbefore⟩ := List.findSome?_eq_some_iff.mp h
  obtain ⟨rfl, tail, htail, hvalue⟩ := afterOperator?_eq_some_iff.mp hfound
  obtain ⟨rfl, hne, hline⟩ := comparisonValue?_eq_some_iff.mp hvalue
  rw [htail] at hcs hbefore
  refine ⟨gap, tail, hgap, by rw [hcs, List.append_assoc], rfl, hne, hline, ?_⟩
  have hstart : op.symbol.toList <+: op.symbol.toList ++ tail := List.prefix_append _ _
  by_cases hlongest : ∀ other : Comparison, other.symbol.toList <+: op.symbol.toList ++ tail →
      other.symbol.length ≤ op.symbol.length
  · exact Or.inl ⟨hstart, hlongest⟩
  simp only [not_forall, not_le] at hlongest
  obtain ⟨long, hlong, hlength⟩ := hlongest
  have hcut : long.truncated? = some op :=
    (Comparison.eq_or_truncated hstart hlong hlength.le).resolve_left fun he => hlength.ne (he ▸ rfl)
  -- the longer operator was tried before
  have hearlier : long ∈ before := by
    have hpairs := Comparison.inOrder_pairwise
    rw [horder, List.pairwise_append, List.pairwise_cons] at hpairs
    rcases List.mem_append.mp (horder ▸ long.mem_inOrder) with hmem | hmem
    · exact hmem
    rcases List.mem_cons.mp hmem with he | hafter
    · exact absurd (he ▸ rfl) hlength.ne
    · exact absurd hcut (hpairs.2.1.1 long hafter).2
  have hfailed := hbefore long hearlier
  obtain ⟨rest, hrest⟩ := hlong
  rw [← hrest, afterOperator?_append, Option.map_eq_none_iff] at hfailed
  rw [Comparison.symbol_of_truncated hcut, List.append_assoc] at hrest
  cases List.append_cancel_left hrest
  refine Or.inr ⟨long, rest, hcut, rfl, ?_⟩
  -- and it failed because nothing but blanks is behind it, since a line end would be a part of the value
  have hvalue : dropBlanks ('=' :: rest) = '=' :: rest := List.dropWhile_cons_of_neg (by decide)
  rw [List.singleton_append, hvalue] at hline
  by_contra hrest
  have hsome : comparisonValue? rest = some (dropBlanks rest) :=
    comparisonValue?_eq_some_iff.mpr ⟨rfl, fun he => hrest (dropBlanks_eq_nil_iff.mp he), fun hmem =>
      hline (List.mem_cons_of_mem _ ((List.dropWhile_suffix _).subset hmem))⟩
  rw [hfailed] at hsome
  cases hsome

/-! ## The left side -/

/-- There is an operator only where a mark comes first behind the blanks. -/
theorem operatorHere?_eq_none (h : ∀ c, (dropBlanks cs).head? = some c → Comparison.isMark c = false) :
    operatorHere? cs = none := by
  rw [operatorHere?, List.findSome?_eq_none_iff]
  intro op _
  refine afterOperator?_eq_none ?_
  rintro ⟨tail, htail⟩
  obtain ⟨c, rest, hsymbol, hmark, -⟩ := op.exists_symbol
  rw [hsymbol] at htail
  rw [h c (by rw [← htail]; rfl)] at hmark
  cases hmark

theorem operatorHere?_of_not_marks (h : ∀ c ∈ cs, Comparison.isMark c = false) : operatorHere? cs = none :=
  operatorHere?_eq_none fun c hc => h c ((List.dropWhile_suffix _).subset (List.mem_of_mem_head? hc))

theorem operatorHere?_cons {c : Char} (hblank : isBlank c = false) (hmark : Comparison.isMark c = false)
    (rest : List Char) : operatorHere? (c :: rest) = none := by
  have hdrop : dropBlanks (c :: rest) = c :: rest := List.dropWhile_cons_of_neg (by simp [hblank])
  refine operatorHere?_eq_none fun d hd => ?_
  rw [hdrop] at hd
  cases hd
  exact hmark

theorem splitComparison?_eq_none (h : ∀ c ∈ cs, Comparison.isMark c = false) :
    splitComparison? taken cs = none := by
  induction cs generalizing taken with
  | nil =>
    rw [splitComparison?, operatorHere?_of_not_marks h, ite_self]
  | cons c rest ih =>
    obtain ⟨-, hrest⟩ := List.forall_mem_cons.mp h
    rw [splitComparison?, operatorHere?_of_not_marks h, ite_self]
    simp only [ih hrest, ite_self]

/-- No operator stands inside a left side without blanks and marks. -/
theorem splitComparison?_append (hleft : ∀ c ∈ left, isBlank c = false ∧ Comparison.isMark c = false)
    (hne : taken ≠ [] ∨ left ≠ []) {rest : List Char} (hrest : operatorHere? rest = some (op, value)) :
    splitComparison? taken (left ++ rest) = some (taken.reverse ++ left, op, value) := by
  induction left generalizing taken with
  | nil =>
    have htaken : taken.isEmpty = false := by simpa using hne
    rw [List.nil_append, List.append_nil, splitComparison?.eq_def, htaken]
    simp [hrest]
  | cons c more ih =>
    obtain ⟨⟨hblank, hmark⟩, hmore⟩ := List.forall_mem_cons.mp hleft
    have hline : c ≠ '\n' := fun he => by
      rw [he] at hblank
      exact absurd hblank (by decide)
    rw [List.cons_append, splitComparison?, operatorHere?_cons hblank hmark, ite_self]
    simp only [if_neg hline]
    rw [ih hmore (Or.inl (List.cons_ne_nil _ _)), List.reverse_cons, List.append_assoc]
    rfl

theorem operatorHere?_of_guard {found : Comparison × List Char}
    (h : (if taken.isEmpty then none else operatorHere? cs) = some found) :
    taken ≠ [] ∧ operatorHere? cs = some found := by
  split at h
  next => cases h
  next htaken => exact ⟨by simpa using htaken, h⟩

/-- The left side is not empty and on one line, and an operator with a right side is behind it. -/
theorem splitComparison?_eq_some (h : splitComparison? taken cs = some (left, op, value)) :
    ∃ front rest, left = taken.reverse ++ front ∧ left ≠ [] ∧ cs = front ++ rest ∧ '\n' ∉ front ∧
      operatorHere? rest = some (op, value) := by
  induction cs generalizing taken with
  | nil =>
    rw [splitComparison?] at h
    split at h
    next hfound =>
      cases h
      obtain ⟨htaken, hfound⟩ := operatorHere?_of_guard hfound
      exact ⟨[], [], by simp, by simpa using htaken, rfl, by simp, hfound⟩
    next => cases h
  | cons c rest ih =>
    rw [splitComparison?] at h
    split at h
    next hfound =>
      cases h
      obtain ⟨htaken, hfound⟩ := operatorHere?_of_guard hfound
      exact ⟨[], c :: rest, by simp, by simpa using htaken, rfl, by simp, hfound⟩
    next =>
      split at h
      next => cases h
      next hline =>
        obtain ⟨front, tail, hleft, hne, rfl, hfront, hfound⟩ := ih h
        refine ⟨c :: front, tail, by simpa using hleft, hne, rfl, ?_, hfound⟩
        exact fun hmem => (List.mem_cons.mp hmem).elim (fun he => hline he.symm) hfront

end

end SurvivalRules
