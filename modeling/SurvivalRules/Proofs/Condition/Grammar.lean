import SurvivalRules.Proofs.Condition.Comparison
import SurvivalRules.Proofs.Condition.Reading
import SurvivalRules.Proofs.State.Path

/-!
# The grammar of conditions

What the pieces of a condition look like. A piece is a path with or without a negation, or a comparison with a
right side on one line; besides, an operator of two characters that ends the piece is read as the shorter one
with its second character on the right. Nothing else is read, and only errors of conditions are left.
-/
namespace SurvivalRules

open Text

/-- A path that is written on one line. -/
structure LinePath (cs : List Char) (p : StatePath) : Prop where
  parses : StatePath.parse (String.ofList cs) = .ok p
  line : '\n' ∉ cs

/-- The trimmed texts of a term. -/
inductive Spells : List Char → Term → Prop
  | negated {rest : List Char} {p : StatePath} (h : StatePath.parse (String.ofList (trim rest)) = .ok p) :
      Spells ('!' :: rest) (.not p)
  /-- A comparison by the longest operator at its place. -/
  | compared {left gap tail : List Char} {op : Comparison} {p : StatePath} (hpath : LinePath left p)
      (hgap : Blanks gap) (hop : op.IsLongestAt (op.symbol.toList ++ tail)) (hne : ¬ Blanks tail)
      (hline : '\n' ∉ dropBlanks tail) :
      Spells (left ++ (gap ++ op.symbol.toList ++ tail))
        (.compare p op (Operand.ofText (String.ofList (trim tail))))
  /-- An operator of two characters that ends the text, read as the shorter one. -/
  | cut {left gap : List Char} {op short : Comparison} {p : StatePath} (hpath : LinePath left p)
      (hgap : Blanks gap) (hcut : op.truncated? = some short) :
      Spells (left ++ (gap ++ op.symbol.toList)) (.compare p short (.text "="))
  | plain {cs : List Char} {p : StatePath} (h : StatePath.parse (String.ofList cs) = .ok p) :
      Spells cs (.truthy p)

section

variable {cs left gap rest : List Char} {p : StatePath} {t : Term} {c : Char}

/-- A path has no marks, and no blanks but line ends. -/
theorem plain_of_mem_parse (h : StatePath.parse (String.ofList cs) = .ok p) (hc : c ∈ cs) :
    Comparison.isMark c = false ∧ (isBlank c = false ∨ c = '\n') := by
  have hplain : ∀ n < 128, StatePath.isPathChar (Char.ofNat n) = true →
      Comparison.isMark (Char.ofNat n) = false ∧ isBlank (Char.ofNat n) = false := by
    decide +kernel
  rcases StatePath.isPathChar_of_mem_parse h (by rwa [String.toList_ofList]) with rfl | hchar | rfl
  · exact ⟨by decide, Or.inl (by decide)⟩
  · obtain ⟨hmark, hblank⟩ := @StatePath.forall_isPathChar
      (fun c => Comparison.isMark c = false ∧ isBlank c = false) hplain c hchar
    exact ⟨hmark, Or.inl hblank⟩
  · exact ⟨by decide, Or.inr rfl⟩

theorem ne_nil_of_parse (h : StatePath.parse (String.ofList cs) = .ok p) : cs ≠ [] := by
  rintro rfl
  cases h

namespace LinePath

theorem plain (h : LinePath left p) (hc : c ∈ left) : isBlank c = false ∧ Comparison.isMark c = false := by
  obtain ⟨hmark, hblank⟩ := plain_of_mem_parse h.parses hc
  exact ⟨hblank.resolve_right fun he => h.line (he ▸ hc), hmark⟩

theorem isTrimmed (h : LinePath left p) : IsTrimmed left :=
  isTrimmed_of_not_blank fun _ hc => (h.plain hc).1

end LinePath

theorem termPath_eq_ok_iff {term : String} :
    termPath term cs = .ok p ↔ StatePath.parse (String.ofList cs) = .ok p := by
  unfold termPath
  cases StatePath.parse (String.ofList cs) <;> simp

theorem read_negation (rest : List Char) :
    Term.read ('!' :: rest) = do return .not (← termPath (String.ofList ('!' :: rest)) (trim rest)) := rfl

/-- A term without a negation is a comparison when it can be cut, and otherwise a path. -/
theorem read_of_not_mark (hne : cs ≠ []) (hmark : cs.head? ≠ some '!') : Term.read cs =
    match splitComparison? [] cs with
    | some (left, op, value) => do
      return .compare (← termPath (String.ofList cs) (trim left)) op (Operand.ofText (String.ofList (trim value)))
    | none => do return .truthy (← termPath (String.ofList cs) cs) := by
  unfold Term.read
  split
  · exact absurd rfl hne
  · exact absurd rfl hmark
  · rfl

theorem head?_ne_of_path (hne : left ≠ []) (h : ∀ c ∈ left, Comparison.isMark c = false) (rest : List Char) :
    (left ++ rest).head? ≠ some '!' := by
  obtain ⟨c, more, rfl⟩ := List.exists_cons_of_ne_nil hne
  intro he
  cases he
  exact absurd (h '!' List.mem_cons_self) (by decide)

/-- Behind a path the first operator with a right side makes the comparison. -/
theorem read_comparison {op : Comparison} {value : List Char} (hpath : LinePath left p)
    (hrest : operatorHere? rest = some (op, value)) :
    Term.read (left ++ rest) = .ok (.compare p op (Operand.ofText (String.ofList (trim value)))) := by
  have hne := ne_nil_of_parse hpath.parses
  have hsplit : splitComparison? [] (left ++ rest) = some ([].reverse ++ left, op, value) :=
    splitComparison?_append (fun _ hc => hpath.plain hc) (Or.inr hne) hrest
  rw [read_of_not_mark (by simp [hne]) (head?_ne_of_path hne (fun _ hc => (hpath.plain hc).2) rest), hsplit]
  simp only [List.reverse_nil, List.nil_append]
  rw [hpath.isTrimmed, termPath_eq_ok_iff.mpr hpath.parses]
  rfl

theorem read_of_spells (h : Spells cs t) : Term.read cs = .ok t := by
  cases h with
  | negated h =>
    rw [read_negation, termPath_eq_ok_iff.mpr h]
    rfl
  | compared hpath hgap hop hne hline =>
    have hrest := operatorHere?_of_longest hgap hop (fun he => hne (dropBlanks_eq_nil_iff.mp he)) hline
    rw [read_comparison hpath hrest, trim_dropBlanks]
  | cut hpath hgap hcut =>
    rw [read_comparison hpath (operatorHere?_of_truncated hgap hcut)]
    rfl
  | plain h =>
    have hmarks : ∀ c ∈ cs, Comparison.isMark c = false := fun _ hc => (plain_of_mem_parse h hc).1
    have hne := ne_nil_of_parse h
    have hhead := head?_ne_of_path hne hmarks []
    rw [List.append_nil] at hhead
    rw [read_of_not_mark hne hhead, splitComparison?_eq_none hmarks, termPath_eq_ok_iff.mpr h]
    rfl

/-- A comparison that is read is one of the two kinds. -/
theorem spells_of_cut {op : Comparison} {value : List Char} (htrim : IsTrimmed cs)
    (hsplit : splitComparison? [] cs = some (left, op, value))
    (hparse : StatePath.parse (String.ofList (trim left)) = .ok p) :
    Spells cs (.compare p op (Operand.ofText (String.ofList (trim value)))) := by
  obtain ⟨front, rest, hleft, -, rfl, hfront, hhere⟩ := splitComparison?_eq_some hsplit
  rw [List.reverse_nil, List.nil_append] at hleft
  subst hleft
  obtain ⟨gap, tail, hgap, rfl, rfl, hne, hline, hkind⟩ := operatorHere?_cases hhere
  have hpath : LinePath (trim left) p := ⟨hparse, fun hmem => hfront ((isInfix_trim left).subset hmem)⟩
  -- the blanks at the end of the left side belong to the gap, and there are none at its start
  obtain ⟨start, back, hstart, hback, hleft⟩ := exists_trim_blanks left
  generalize trim left = path at hpath hleft hparse
  subst hleft
  simp only [List.append_assoc] at htrim
  cases htrim.start_eq_nil hstart
  rw [List.nil_append] at htrim ⊢
  rw [trim_dropBlanks]
  rcases hkind with hop | ⟨long, rest, hcut, rfl, hrest⟩
  · have hspells := Spells.compared hpath (hback.append hgap) hop
      (fun he => hne (dropBlanks_eq_nil_iff.mpr he)) hline
    simpa only [List.append_assoc] using hspells
  · have hend : rest = [] := by
      have hcs : path ++ (back ++ (gap ++ (op.symbol.toList ++ '=' :: rest))) =
          path ++ back ++ gap ++ op.symbol.toList ++ ['='] ++ rest := by simp
      rw [hcs] at htrim
      exact htrim.end_eq_nil hrest
    have hspells := Spells.cut hpath (hback.append hgap) hcut
    have htext : Operand.ofText (String.ofList (trim ['='])) = .text "=" := by decide
    rw [Comparison.symbol_of_truncated hcut] at hspells
    rw [hend, htext]
    simpa only [List.append_assoc] using hspells

theorem spells_of_read (htrim : IsTrimmed cs) (h : Term.read cs = .ok t) : Spells cs t := by
  by_cases hmark : cs.head? = some '!'
  · obtain ⟨rest, rfl⟩ := List.head?_eq_some_iff.mp hmark
    rw [read_negation] at h
    obtain ⟨p, hp, ht⟩ := bind_eq_ok_iff.mp h
    cases pure_eq_ok_iff.mp ht
    exact .negated (termPath_eq_ok_iff.mp hp)
  have hne : cs ≠ [] := by
    rintro rfl
    cases h
  rw [read_of_not_mark hne hmark] at h
  split at h
  next left op value hcut =>
    obtain ⟨p, hp, ht⟩ := bind_eq_ok_iff.mp h
    cases pure_eq_ok_iff.mp ht
    exact spells_of_cut htrim hcut (termPath_eq_ok_iff.mp hp)
  next =>
    obtain ⟨p, hp, ht⟩ := bind_eq_ok_iff.mp h
    cases pure_eq_ok_iff.mp ht
    exact .plain (termPath_eq_ok_iff.mp hp)

theorem Spells.unique {t' : Term} (h : Spells cs t) (h' : Spells cs t') : t = t' :=
  Except.ok.inj ((read_of_spells h).symm.trans (read_of_spells h'))

theorem read_iff_spells (htrim : IsTrimmed cs) : Term.read cs = .ok t ↔ Spells cs t :=
  ⟨spells_of_read htrim, read_of_spells⟩

/-! ## Missing right sides -/

theorem not_mark_of_blank (h : isBlank c = true) : Comparison.isMark c = false := by
  by_contra hmark
  simp only [Comparison.isMark, Bool.not_eq_false, Bool.or_eq_true, decide_eq_true_eq] at hmark
  rcases hmark with ((rfl | rfl) | rfl) | rfl <;> exact absurd h (by decide)

theorem not_mark_of_left (hpath : LinePath left p) (hgap : Blanks gap) :
    ∀ c ∈ left ++ gap, Comparison.isMark c = false := by
  intro c hc
  rcases List.mem_append.mp hc with hleft | hblank
  · exact (hpath.plain hleft).2
  · exact not_mark_of_blank (hgap c hblank)

/-- Where a left side ends at an operator, the text tells where that is. -/
theorem eq_of_left_append {left' gap' tail tail' : List Char} {op op' : Comparison} {p' : StatePath}
    (hpath : LinePath left p) (hgap : Blanks gap) (hpath' : LinePath left' p') (hgap' : Blanks gap')
    (h : left ++ (gap ++ (op.symbol.toList ++ tail)) = left' ++ (gap' ++ (op'.symbol.toList ++ tail'))) :
    op.symbol.toList ++ tail = op'.symbol.toList ++ tail' := by
  have hdrop : ∀ (op : Comparison) (front tail : List Char), (∀ c ∈ front, Comparison.isMark c = false) →
      (front ++ (op.symbol.toList ++ tail)).dropWhile (! Comparison.isMark ·) = op.symbol.toList ++ tail := by
    intro op front tail hfront
    obtain ⟨c, more, hsymbol, hmark, -⟩ := op.exists_symbol
    rw [List.dropWhile_append_of_pos fun c hc => by simp [hfront c hc], hsymbol]
    exact List.dropWhile_cons_of_neg (by simp [hmark])
  rw [← hdrop op _ tail (not_mark_of_left hpath hgap), ← hdrop op' _ tail' (not_mark_of_left hpath' hgap'),
    List.append_assoc, List.append_assoc, h]

theorem exists_truncated_of_spells {op : Comparison} (hpath : LinePath left p) (hgap : Blanks gap)
    (h : Spells (left ++ (gap ++ op.symbol.toList)) t) : ∃ short, op.truncated? = some short := by
  generalize hcs : left ++ (gap ++ op.symbol.toList) = cs at h
  cases h with
  | negated =>
    have hhead := head?_ne_of_path (ne_nil_of_parse hpath.parses) (fun _ hc => (hpath.plain hc).2)
      (gap ++ op.symbol.toList)
    rw [hcs] at hhead
    exact absurd rfl hhead
  | @compared left' gap' tail op' _ hpath' hgap' hop hne =>
    rw [← List.append_nil op.symbol.toList, List.append_assoc gap'] at hcs
    have hsame := eq_of_left_append hpath hgap hpath' hgap' hcs
    rw [List.append_nil] at hsame
    -- no operator is longer than the whole of the one that ends the text
    have hlength := hop.2 op (hsame ▸ List.prefix_rfl)
    have htail : tail = [] := by
      have hsizes := congrArg List.length hsame
      rw [List.length_append, String.length_toList, String.length_toList] at hsizes
      exact List.length_eq_zero_iff.mp (by omega)
    exact absurd (htail ▸ blanks_nil) hne
  | @cut left' gap' op' short _ hpath' hgap' hcut =>
    rw [← List.append_nil op.symbol.toList, ← List.append_nil op'.symbol.toList] at hcs
    have hsame := eq_of_left_append hpath hgap hpath' hgap' hcs
    rw [List.append_nil, List.append_nil] at hsame
    exact ⟨short, Comparison.symbol_injective (String.toList_injective hsame) ▸ hcut⟩
  | plain h =>
    obtain ⟨c, more, hsymbol, hmark, -⟩ := op.exists_symbol
    have hmem : c ∈ cs := by simp [← hcs, hsymbol]
    rw [(plain_of_mem_parse h hmem).1] at hmark
    cases hmark

/-- A comparison that ends with its operator is a term only when the operator has two characters of which the
first is an operator too. -/
theorem spells_cut_iff {op : Comparison} (hpath : LinePath left p) (hgap : Blanks gap) :
    Spells (left ++ (gap ++ op.symbol.toList)) t ↔
      ∃ short, op.truncated? = some short ∧ t = .compare p short (.text "=") := by
  constructor
  · intro h
    obtain ⟨short, hcut⟩ := exists_truncated_of_spells hpath hgap h
    exact ⟨short, hcut, h.unique (.cut hpath hgap hcut)⟩
  · rintro ⟨short, hcut, rfl⟩
    exact .cut hpath hgap hcut

/-- The right side of such a term is no number, so it never holds. -/
theorem holds_cut_ne_true {op short : Comparison} (hcut : op.truncated? = some short) (p : StatePath)
    (state : Tree) : Term.holds (.compare p short (.text "=")) state ≠ .ok true := by
  have hnan : Value.toNumber (.text "=") = .ok .nan := by decide
  have hbelow : ∀ a : Amount, Amount.lt (.float .nan) a = false := fun _ => rfl
  have habove : ∀ a : Amount, a.lt (.float .nan) = false := fun a => by
    cases ha : a.point? <;> simp [Amount.lt, Amount.point?, Binary64.point?]
  cases op <;> cases hcut
  all_goals
    simp only [Term.holds, Term.holdsOf, Term.path, Operand.value, hnan]
    cases (state.get p).toNumber with
    | error cause => exact fun h => nomatch h
    | ok a => simp [bind, Except.bind, pure, Except.pure, Comparison.holds, hbelow, habove]

end

/-- The pieces of a text spell the terms of a condition. -/
def Condition.SpelledBy (c : Condition) (cs : List Char) : Prop :=
  List.Forall₂ (fun part clause =>
    List.Forall₂ (fun piece t => Spells (trim piece) t) (splitAtDoubled '|' part) clause)
      (Condition.conjuncts cs) c.clauses

theorem Condition.read_eq_ok_iff_spelledBy {expression : String} {c : Condition} :
    Condition.read expression = .ok c ↔ c.SpelledBy expression.toList := by
  rw [Condition.read_eq_ok_iff, Condition.readChars_eq_ok_iff, SpelledBy]
  simp only [readClause_eq_ok_iff, read_iff_spells (isTrimmed_trim _)]

/-- A condition is compiled when every piece of it spells a term, and otherwise fails with an error of its own. A
comparison whose right side is missing is compiled when its operator can be cut, and then never holds. -/
theorem compiled_iff_spelled (expression : String) :
    (∀ n, Raising.compileTree expression = .ok n ↔
      ∃ c : Condition, c.SpelledBy expression.toList ∧ c.tree = n) ∧
    ((∃ n, Raising.compileTree expression = .ok n) ↔
      ∀ part ∈ Condition.conjuncts expression.toList, ∀ piece ∈ splitAtDoubled '|' part,
        ∃ t, Spells (trim piece) t) ∧
    (∀ e, Raising.compileTree expression = .error e → ∃ cause, e = .condition cause) ∧
    ∀ left gap p (op : Comparison), LinePath left p → Blanks gap → ∀ t,
      (Spells (left ++ (gap ++ op.symbol.toList)) t ↔
        ∃ short, op.truncated? = some short ∧ t = .compare p short (.text "=") ∧
          ∀ state, t.holds state ≠ .ok true) := by
  have hcompiled : ∀ n, Raising.compileTree expression = .ok n ↔
      ∃ c : Condition, c.SpelledBy expression.toList ∧ c.tree = n := fun n => by
    simp only [Raising.compileTree_eq_ok_iff, Condition.read_eq_ok_iff_spelledBy]
  refine ⟨hcompiled, ?_, fun e => Raising.condition_of_compileTree, fun left gap p op hpath hgap t => ?_⟩
  · simp only [hcompiled, ← exists_forall₂_iff]
    constructor
    · rintro ⟨n, c, hspelled, -⟩
      exact ⟨c.clauses, hspelled⟩
    · rintro ⟨clauses, hspelled⟩
      exact ⟨_, ⟨clauses⟩, hspelled, rfl⟩
  · rw [spells_cut_iff hpath hgap]
    constructor
    · rintro ⟨short, hcut, rfl⟩
      exact ⟨short, hcut, rfl, holds_cut_ne_true hcut p⟩
    · rintro ⟨short, hcut, ht, -⟩
      exact ⟨short, hcut, ht⟩

def woodPath : StatePath := ⟨"resources.wood", "resources", ["wood"]⟩

theorem wood_without_right_side : LinePath "resources.wood".toList woodPath ∧ Blanks [' '] ∧
    Spells "resources.wood >=".toList (.compare woodPath .greater (.text "=")) ∧
    ¬ ∃ t, Spells "resources.wood ==".toList t := by
  have hpath : LinePath "resources.wood".toList woodPath := ⟨by decide +kernel, by decide⟩
  have hgap : Blanks [' '] := List.forall_mem_singleton.mpr (by decide)
  obtain ⟨-, -, -, hmissing⟩ := compiled_iff_spelled "resources.wood >="
  have hcut : Comparison.truncated? .atLeast = some .greater := rfl
  refine ⟨hpath, hgap, ?_, ?_⟩
  · exact (hmissing _ _ _ .atLeast hpath hgap _).mpr ⟨.greater, hcut, rfl, holds_cut_ne_true hcut woodPath⟩
  · rintro ⟨t, ht⟩
    obtain ⟨short, hcut, -⟩ := (hmissing _ _ _ .equal hpath hgap t).mp ht
    cases hcut

/-- Four of the six operators need a right side, and the other two are read without one. -/
theorem missing_right_side_is_compiled :
    Raising.compileTree "resources.wood >=" = .ok (.term (.compare woodPath .greater (.text "="))) ∧
    Raising.compileTree "resources.wood <=" = .ok (.term (.compare woodPath .less (.text "="))) ∧
    ∀ op : Comparison, op.truncated? = none →
      ∃ cause, Raising.compileTree ("resources.wood " ++ op.symbol) = .error (.condition cause) := by
  refine ⟨Raising.compileTree_single (by decide) (by decide) (by decide +kernel),
    Raising.compileTree_single (by decide) (by decide) (by decide +kernel), fun op hop => ?_⟩
  cases hcompile : Raising.compileTree ("resources.wood " ++ op.symbol) with
  | error e =>
    obtain ⟨cause, rfl⟩ := Raising.condition_of_compileTree hcompile
    exact ⟨cause, rfl⟩
  | ok n =>
    obtain ⟨c, hc, -⟩ := Raising.compileTree_eq_ok_iff.mp hcompile
    obtain ⟨t, ht, -⟩ := (Condition.read_single_iff (by cases op <;> decide) (by cases op <;> decide)).mp hc
    have hnone : (Term.read (trim ("resources.wood " ++ op.symbol).toList)).toOption = none := by
      revert hop
      cases op <;> decide +kernel
    rw [ht] at hnone
    cases hnone

end SurvivalRules
