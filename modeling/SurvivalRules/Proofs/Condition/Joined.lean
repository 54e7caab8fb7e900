import SurvivalRules.Proofs.Condition.Reading

/-!
# Joined conditions

Terms joined to alternatives, and these to one text, are read as the conjunction of the disjunctions of the
terms. The separators that are cut at are those that were put in, because a term holds no mark and is not blank.
-/
namespace SurvivalRules

open Text

theorem mem_intercalate {α : Type} {sep : List α} {pieces : List (List α)} {a : α}
    (h : a ∈ sep.intercalate pieces) : a ∈ sep ∨ ∃ piece ∈ pieces, a ∈ piece := by
  induction pieces with
  | nil => cases h
  | cons piece more ih =>
    cases more with
    | nil =>
      rw [List.intercalate_singleton] at h
      exact Or.inr ⟨piece, List.mem_cons_self, h⟩
    | cons second others =>
      rw [List.intercalate_cons_cons, List.append_assoc, List.mem_append, List.mem_append] at h
      rcases h with hpiece | hsep | hrest
      · exact Or.inr ⟨piece, List.mem_cons_self, hpiece⟩
      · exact Or.inl hsep
      · refine (ih hrest).imp_right ?_
        rintro ⟨found, hfound, ha⟩
        exact ⟨found, List.mem_cons_of_mem _ hfound, ha⟩

/-- A text without marks that can be read on its own. -/
structure IsAtom (text : String) : Prop where
  noAnd : '&' ∉ text.toList
  noOr : '|' ∉ text.toList
  reads : ∃ c, Condition.read text = .ok c

/-- What a text is read as when it is a single term. -/
def ReadsAs (text : String) (t : Term) : Prop := Term.read (trim text.toList) = .ok t

def disjunction (terms : List String) : String := " || ".intercalate terms

def conjunction (clauses : List (List String)) : String := " && ".intercalate (clauses.map disjunction)

section

variable {text : String} {t : Term} {state : Tree}

theorem read_of_readsAs (hand : '&' ∉ text.toList) (hor : '|' ∉ text.toList) (h : ReadsAs text t) :
    Condition.read text = .ok ⟨[[t]]⟩ :=
  (Condition.read_single_iff hand hor).mpr ⟨t, h, rfl⟩

theorem IsAtom.exists_readsAs (h : IsAtom text) : ∃ t, ReadsAs text t := by
  obtain ⟨c, hc⟩ := h.reads
  obtain ⟨t, ht, -⟩ := (Condition.read_single_iff h.noAnd h.noOr).mp hc
  exact ⟨t, ht⟩

theorem isAtom_iff : IsAtom text ↔ '&' ∉ text.toList ∧ '|' ∉ text.toList ∧ ∃ t, ReadsAs text t :=
  ⟨fun h => ⟨h.noAnd, h.noOr, h.exists_readsAs⟩, fun ⟨hand, hor, _, ht⟩ => ⟨hand, hor, _, read_of_readsAs hand hor ht⟩⟩

theorem IsAtom.not_blanks (h : IsAtom text) : ¬ Blanks text.toList := by
  intro hblanks
  obtain ⟨t, ht⟩ := h.exists_readsAs
  rw [ReadsAs, trim_eq_nil_iff.mpr hblanks] at ht
  cases ht

theorem IsAtom.evaluate_eq (h : IsAtom text) (ht : ReadsAs text t) :
    Raising.evaluate text state = raise (t.holds state) := by
  rw [Raising.evaluate_eq, read_of_readsAs h.noAnd h.noOr ht]
  simp only [Condition.holds, clausesHold, clauseHolds]
  cases t.holds state with
  | error cause => rfl
  | ok b => cases b <;> rfl

end

section

variable {terms : List String} {ts : List Term}

theorem toList_disjunction (terms : List String) :
    (disjunction terms).toList = (doubled '|').intercalate (terms.map String.toList) :=
  String.toList_intercalate

theorem and_not_mem_disjunction (h : ∀ text ∈ terms, IsAtom text) : '&' ∉ (disjunction terms).toList := by
  rw [toList_disjunction]
  intro hmem
  rcases mem_intercalate hmem with hsep | ⟨piece, hpiece, hin⟩
  · exact absurd hsep (by decide)
  · obtain ⟨text, htext, rfl⟩ := List.mem_map.mp hpiece
    exact (h text htext).noAnd hin

/-- Alternatives are read term by term, also when the ends of the whole text are trimmed. -/
theorem readClause_disjunction (hne : terms ≠ []) (h : ∀ text ∈ terms, IsAtom text)
    (hts : List.Forall₂ ReadsAs terms ts) :
    readClause (disjunction terms).toList = .ok ts ∧ readClause (trim (disjunction terms).toList) = .ok ts := by
  have hor : ('|' : Char) ≠ ' ' := by decide
  have hpieces : terms.map String.toList ≠ [] := by simpa using hne
  have hmarks : ∀ piece ∈ terms.map String.toList, '|' ∉ piece := by
    intro piece hpiece
    obtain ⟨text, htext, rfl⟩ := List.mem_map.mp hpiece
    exact (h text htext).noOr
  have hblanks : ∀ piece ∈ terms.map String.toList, ¬ Blanks piece := by
    intro piece hpiece
    obtain ⟨text, htext, rfl⟩ := List.mem_map.mp hpiece
    exact (h text htext).not_blanks
  obtain ⟨trimmed, htrim, hsame, hpart⟩ := exists_trim_intercalate (doubled '|') hpieces hblanks
  have hread : List.Forall₂ (fun piece t => Term.read piece = .ok t)
      ((terms.map String.toList).map trim) ts := by
    rw [List.forall₂_map_left_iff, List.forall₂_map_left_iff]
    exact hts
  rw [readClause_eq_ok_iff, readClause_eq_ok_iff, toList_disjunction, htrim,
    splitAtDoubled_intercalate hor hpieces hmarks]
  constructor
  · exact List.forall₂_map_left_iff.mp hread
  · have htrimmed : trimmed ≠ [] := by
      rintro rfl
      exact hpieces (List.map_eq_nil_iff.mp hsame.symm)
    rw [splitAtDoubled_intercalate hor htrimmed fun q hq hmem => by
      obtain ⟨piece, hpiece, hin⟩ := hpart q hq
      exact hmarks piece hpiece (hin.subset hmem)]
    rw [← hsame] at hread
    exact List.forall₂_map_left_iff.mp hread

end

section

variable {clauses : List (List String)} {clauseTerms : List (List Term)}

theorem splitAtDoubled_conjunction (hne : clauses ≠ [])
    (h : ∀ clause ∈ clauses, ∀ text ∈ clause, IsAtom text) :
    splitAtDoubled '&' (conjunction clauses).toList =
      clauses.map fun clause => (disjunction clause).toList := by
  have hand : ('&' : Char) ≠ ' ' := by decide
  have hjoined : (conjunction clauses).toList =
      (doubled '&').intercalate (clauses.map fun clause => (disjunction clause).toList) := by
    rw [conjunction, String.toList_intercalate, List.map_map]
    rfl
  rw [hjoined]
  refine splitAtDoubled_intercalate hand (by simpa using hne) fun piece hpiece => ?_
  obtain ⟨clause, hclause, rfl⟩ := List.mem_map.mp hpiece
  exact and_not_mem_disjunction (h clause hclause)

/-- The clauses are read one by one; several of them are trimmed before. -/
theorem read_conjunction (hne : clauses ≠ []) (hclauses : ∀ clause ∈ clauses, clause ≠ [])
    (h : ∀ clause ∈ clauses, ∀ text ∈ clause, IsAtom text)
    (hread : List.Forall₂ (List.Forall₂ ReadsAs) clauses clauseTerms) :
    Condition.read (conjunction clauses) = .ok ⟨clauseTerms⟩ := by
  have hsplit := splitAtDoubled_conjunction hne h
  rw [Condition.read_eq_ok_iff, Condition.readChars_eq_ok_iff]
  have hparts : List.Forall₂ (fun clause ts => readClause (disjunction clause).toList = .ok ts ∧
      readClause (trim (disjunction clause).toList) = .ok ts) clauses clauseTerms := by
    have hclause := (List.forall₂_and_left _ _).mpr ⟨hclauses, (List.forall₂_and_left _ _).mpr ⟨h, hread⟩⟩
    exact hclause.imp fun clause ts ⟨hfilled, hatoms, hts⟩ => readClause_disjunction hfilled hatoms hts
  by_cases hone : clauses.length = 1
  · have hwhole : Condition.conjuncts (conjunction clauses).toList =
        clauses.map fun clause => (disjunction clause).toList := by
      obtain ⟨clause, rfl⟩ := List.length_eq_one_iff.mp hone
      rw [Condition.conjuncts, hsplit]
      rfl
    rw [hwhole]
    exact List.forall₂_map_left_iff.mpr (hparts.imp fun _ _ hboth => hboth.1)
  · rw [Condition.conjuncts_of_length_ne_one (by rwa [hsplit, List.length_map]), hsplit, List.map_map]
    exact List.forall₂_map_left_iff.mpr (hparts.imp fun _ _ hboth => hboth.2)

end

section

variable {state : Tree}

/-- Whether a text evaluates as the term does. -/
def EvaluatesAs (state : Tree) (text : String) (t : Term) : Prop :=
  Raising.evaluate text state = raise (t.holds state)

theorem exists_holds_of_evaluatesAs {text : String} {t : Term} {b : Bool} (h : EvaluatesAs state text t)
    (hb : Raising.evaluate text state = .ok b) : t.holds state = .ok b := by
  rw [h] at hb
  cases ht : t.holds state with
  | error cause =>
    rw [ht] at hb
    cases hb
  | ok b' =>
    rw [ht] at hb
    cases hb
    rfl

theorem exists_clauseHolds_iff {terms : List String} {ts : List Term}
    (h : List.Forall₂ (EvaluatesAs state) terms ts)
    (hvalue : ∀ text ∈ terms, ∃ b, Raising.evaluate text state = .ok b) :
    ∃ b, clauseHolds state ts = .ok b ∧
      (b = true ↔ ∃ text ∈ terms, Raising.evaluate text state = .ok true) := by
  induction h with
  | nil => exact ⟨false, rfl, by simp⟩
  | cons hfirst _ ih =>
    obtain ⟨⟨b, hb⟩, hrest⟩ := List.forall_mem_cons.mp hvalue
    simp only [clauseHolds, exists_holds_of_evaluatesAs hfirst hb, List.exists_mem_cons_iff, hb]
    cases b with
    | true => exact ⟨true, rfl, by simp⟩
    | false =>
      obtain ⟨found, hfound, hiff⟩ := ih hrest
      exact ⟨found, hfound, by simpa using hiff⟩

theorem exists_clausesHold_iff {clauses : List (List String)} {clauseTerms : List (List Term)}
    (h : List.Forall₂ (List.Forall₂ (EvaluatesAs state)) clauses clauseTerms)
    (hvalue : ∀ clause ∈ clauses, ∀ text ∈ clause, ∃ b, Raising.evaluate text state = .ok b) :
    ∃ b, clausesHold state clauseTerms = .ok b ∧
      (b = true ↔ ∀ clause ∈ clauses, ∃ text ∈ clause, Raising.evaluate text state = .ok true) := by
  induction h with
  | nil => exact ⟨true, rfl, by simp⟩
  | cons hfirst _ ih =>
    obtain ⟨hclause, hrest⟩ := List.forall_mem_cons.mp hvalue
    obtain ⟨b, hb, hany⟩ := exists_clauseHolds_iff hfirst hclause
    simp only [clausesHold, hb, List.forall_mem_cons, ← hany]
    cases b with
    | false => exact ⟨false, rfl, by simp⟩
    | true =>
      obtain ⟨found, hfound, hiff⟩ := ih hrest
      exact ⟨found, hfound, by simpa using hiff⟩

end

/-- Joined terms make up a condition that holds when some term of every clause does, wherever all the terms
have a value. Its tree has no conjunction below a joint, and neither has the tree of any other condition. -/
theorem conjunction_holds_iff (clauses : List (List String)) (hne : clauses ≠ [])
    (hclauses : ∀ clause ∈ clauses, clause ≠ [])
    (hatoms : ∀ clause ∈ clauses, ∀ text ∈ clause, IsAtom text) :
    (∃ c, Condition.read (conjunction clauses) = .ok c ∧
      Raising.compileTree (conjunction clauses) = .ok c.tree ∧
      ∀ state, (∀ clause ∈ clauses, ∀ text ∈ clause, ∃ b, Raising.evaluate text state = .ok b) →
        ∃ b, Raising.evaluate (conjunction clauses) state = .ok b ∧ c.tree.holds state = .ok b ∧
          (b = true ↔ ∀ clause ∈ clauses, ∃ text ∈ clause, Raising.evaluate text state = .ok true)) ∧
      ∀ expression n, Raising.compileTree expression = .ok n → n.IsLayered := by
  constructor
  · have hexists : ∀ clause ∈ clauses, ∃ ts, List.Forall₂ ReadsAs clause ts := fun clause hclause =>
      exists_forall₂_iff.mpr fun text htext => (hatoms clause hclause text htext).exists_readsAs
    obtain ⟨clauseTerms, hterms⟩ := exists_forall₂_iff.mpr hexists
    have hread := read_conjunction hne hclauses hatoms hterms
    refine ⟨⟨clauseTerms⟩, hread, ?_, fun state hvalue => ?_⟩
    · exact Raising.compileTree_eq_ok_iff.mpr ⟨_, hread, rfl⟩
    · have hevaluate : List.Forall₂ (List.Forall₂ (EvaluatesAs state)) clauses clauseTerms :=
        ((List.forall₂_and_left _ _).mpr ⟨hatoms, hterms⟩).imp fun clause ts ⟨hclause, hts⟩ =>
          ((List.forall₂_and_left _ _).mpr ⟨hclause, hts⟩).imp fun text t ⟨hatom, ht⟩ => hatom.evaluate_eq ht
      obtain ⟨b, hb, hiff⟩ := exists_clausesHold_iff hevaluate hvalue
      refine ⟨b, ?_, ?_, hiff⟩
      · rw [Raising.evaluate_eq, hread]
        exact congrArg raise hb
      · rw [Condition.holds_tree]
        exact hb
  · intro expression n hn
    obtain ⟨c, -, rfl⟩ := Raising.compileTree_eq_ok_iff.mp hn
    exact c.isLayered_tree

def huntingClauses : List (List String) :=
  [["!flags.winter"], ["weapons.bow", "resources.trap >= 2"]]

def huntingState : Tree :=
  [("flags", .mapping [("winter", .bool false)]), ("resources", .mapping [("trap", .int 3)])]

def noWinter : Term := .not ⟨"flags.winter", "flags", ["winter"]⟩

def bowAtHand : Term := .truthy ⟨"weapons.bow", "weapons", ["bow"]⟩

def twoTraps : Term := .compare ⟨"resources.trap", "resources", ["trap"]⟩ .atLeast (.number (Binary64.ofInt 2))

theorem hunting_joined : huntingClauses ≠ [] ∧ (∀ clause ∈ huntingClauses, clause ≠ []) ∧
    (∀ clause ∈ huntingClauses, ∀ text ∈ clause, IsAtom text) ∧
    conjunction huntingClauses = "!flags.winter && weapons.bow || resources.trap >= 2" ∧
    (∀ clause ∈ huntingClauses, ∀ text ∈ clause, ∃ b, Raising.evaluate text huntingState = .ok b) ∧
    Raising.evaluate (conjunction huntingClauses) huntingState = .ok true := by
  have hwinter : ReadsAs "!flags.winter" noWinter := by
    unfold ReadsAs
    decide +kernel
  have hbow : ReadsAs "weapons.bow" bowAtHand := by
    unfold ReadsAs
    decide +kernel
  have htrap : ReadsAs "resources.trap >= 2" twoTraps := by
    unfold ReadsAs
    decide +kernel
  have hnoWinter : IsAtom "!flags.winter" := isAtom_iff.mpr ⟨by decide, by decide, _, hwinter⟩
  have hweapon : IsAtom "weapons.bow" := isAtom_iff.mpr ⟨by decide, by decide, _, hbow⟩
  have htraps : IsAtom "resources.trap >= 2" := isAtom_iff.mpr ⟨by decide, by decide, _, htrap⟩
  have hne : huntingClauses ≠ [] := by decide
  have hclauses : ∀ clause ∈ huntingClauses, clause ≠ [] := by decide
  have hatoms : ∀ clause ∈ huntingClauses, ∀ text ∈ clause, IsAtom text := by
    simp [huntingClauses, hnoWinter, hweapon, htraps]
  have hmild : Raising.evaluate "!flags.winter" huntingState = .ok true := by
    have hholds : noWinter.holds huntingState = .ok true := by decide +kernel
    rw [hnoWinter.evaluate_eq hwinter, hholds]
    rfl
  have hunarmed : Raising.evaluate "weapons.bow" huntingState = .ok false := by
    have hholds : bowAtHand.holds huntingState = .ok false := by decide +kernel
    rw [hweapon.evaluate_eq hbow, hholds]
    rfl
  have htrapped : Raising.evaluate "resources.trap >= 2" huntingState = .ok true := by
    have hholds : twoTraps.holds huntingState = .ok true := by decide +kernel
    rw [htraps.evaluate_eq htrap, hholds]
    rfl
  have hvalue : ∀ clause ∈ huntingClauses, ∀ text ∈ clause,
      ∃ b, Raising.evaluate text huntingState = .ok b := by
    simp [huntingClauses, hmild, hunarmed, htrapped]
  obtain ⟨⟨c, -, -, hvalues⟩, -⟩ := conjunction_holds_iff huntingClauses hne hclauses hatoms
  obtain ⟨b, hb, -, hiff⟩ := hvalues huntingState hvalue
  have htrue : b = true := hiff.mpr (by simp [huntingClauses, hmild, hunarmed, htrapped])
  exact ⟨hne, hclauses, hatoms, by decide +kernel, hvalue, htrue ▸ hb⟩

end SurvivalRules
