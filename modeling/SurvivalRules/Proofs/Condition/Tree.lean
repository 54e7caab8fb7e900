import SurvivalRules.Proofs.Raising.Resolve
import SurvivalRules.Proofs.Text.Number
import SurvivalRules.Proofs.Text.Split

/-!
# Conditions as trees

A condition compiled by recursion: a text is cut into the parts of a conjunction, or else into those of a
disjunction, and every part is trimmed and compiled by the same rules until it is a single term. The tree is
that of the clauses that are read, holds where they do, and has no conjunction below a joint; what is left to
fail with are the errors of conditions.
-/
namespace SurvivalRules

/-- A condition whose joints have any number of parts. -/
inductive Node where
  | term (t : Term)
  | all (parts : List Node)
  | any (parts : List Node)

namespace Node

mutual

/-- Parts are tried in order up to the first that decides. -/
def holds (state : Tree) : Node → Except Fault Bool
  | .term t => t.holds state
  | .all parts => allHold state parts
  | .any parts => anyHolds state parts

def allHold (state : Tree) : List Node → Except Fault Bool
  | [] => .ok true
  | n :: rest => do if ← holds state n then allHold state rest else return false

def anyHolds (state : Tree) : List Node → Except Fault Bool
  | [] => .ok false
  | n :: rest => do if ← holds state n then return true else anyHolds state rest

end

/-- A joint of one part is that part. -/
def joined (join : List Node → Node) : List Node → Node
  | [n] => n
  | ns => join ns

/-- No conjunction stands in the tree. -/
inductive IsClause : Node → Prop
  | term (t : Term) : IsClause (.term t)
  | any {parts : List Node} (h : ∀ n ∈ parts, IsClause n) : IsClause (.any parts)

/-- No conjunction stands below a joint. -/
def IsLayered : Node → Prop
  | .term _ => True
  | .all parts => ∀ n ∈ parts, n.IsClause
  | .any parts => ∀ n ∈ parts, n.IsClause

theorem IsClause.isLayered {n : Node} (h : n.IsClause) : n.IsLayered := by
  cases h with
  | term t => trivial
  | any h => exact h

section

variable {ns : List Node} {state : Tree}

theorem joined_of_length_ne_one (join : List Node → Node) (h : ns.length ≠ 1) : joined join ns = join ns := by
  unfold joined
  split
  · exact absurd rfl h
  · rfl

theorem isClause_joined (h : ∀ n ∈ ns, n.IsClause) : (joined .any ns).IsClause := by
  unfold joined
  split
  · exact h _ List.mem_cons_self
  · exact .any h

theorem isLayered_joined (h : ∀ n ∈ ns, n.IsClause) : (joined .all ns).IsLayered := by
  unfold joined
  split
  · exact (h _ List.mem_cons_self).isLayered
  · exact h

theorem holds_joined_all (ns : List Node) : (joined .all ns).holds state = allHold state ns := by
  rcases ns with _ | ⟨n, _ | ⟨m, rest⟩⟩
  · rfl
  · simp only [joined, allHold]
    cases holds state n with
    | error cause => rfl
    | ok b => cases b <;> rfl
  · rfl

theorem holds_joined_any (ns : List Node) : (joined .any ns).holds state = anyHolds state ns := by
  rcases ns with _ | ⟨n, _ | ⟨m, rest⟩⟩
  · rfl
  · simp only [joined, anyHolds]
    cases holds state n with
    | error cause => rfl
    | ok b => cases b <;> rfl
  · rfl

theorem anyHolds_terms (clause : List Term) :
    anyHolds state (clause.map .term) = clauseHolds state clause := by
  induction clause with
  | nil => rfl
  | cons t rest ih => simp only [List.map_cons, anyHolds, holds, clauseHolds, ih]

theorem allHold_clauses (clauses : List (List Term)) :
    allHold state (clauses.map fun clause => joined .any (clause.map .term)) = clausesHold state clauses := by
  induction clauses with
  | nil => rfl
  | cons clause rest ih =>
    simp only [List.map_cons, allHold, holds_joined_any, anyHolds_terms, clausesHold, ih]

end

/-- A clause as a tree. -/
def ofClause (clause : List Term) : Node := joined .any (clause.map .term)

theorem isClause_ofClause (clause : List Term) : (ofClause clause).IsClause := by
  refine isClause_joined fun n hn => ?_
  obtain ⟨t, -, rfl⟩ := List.mem_map.mp hn
  exact .term t

end Node

namespace Condition

/-- The conjunction of the clauses. -/
def tree (c : Condition) : Node := Node.joined .all (c.clauses.map Node.ofClause)

theorem isLayered_tree (c : Condition) : c.tree.IsLayered := by
  refine Node.isLayered_joined fun n hn => ?_
  obtain ⟨clause, -, rfl⟩ := List.mem_map.mp hn
  exact Node.isClause_ofClause clause

theorem holds_tree (c : Condition) (state : Tree) : c.tree.holds state = c.holds state :=
  (Node.holds_joined_all _).trans (Node.allHold_clauses _)

end Condition

theorem mapM_attach {ε α β : Type} (f : α → Except ε β) (l : List α) :
    (l.attach.mapM fun a => f a.1) = l.mapM f := by
  rw [List.mapM_subtype (g := f) fun _ _ => rfl, List.unattach_attach]

theorem mapM_map_apply {ε α β γ : Type} (g : β → γ) (f : α → Except ε β) (l : List α) :
    (l.mapM fun a => g <$> f a) = List.map g <$> l.mapM f := by
  induction l with
  | nil => rfl
  | cons a rest ih =>
    simp only [List.mapM_cons, ih]
    cases f a with
    | error cause => rfl
    | ok b => cases rest.mapM f <;> rfl

theorem mapM_congr_of_mem {ε α β : Type} {f g : α → Except ε β} {l : List α} (h : ∀ a ∈ l, f a = g a) :
    l.mapM f = l.mapM g := by
  induction l with
  | nil => rfl
  | cons a rest ih =>
    obtain ⟨ha, hrest⟩ := List.forall_mem_cons.mp h
    rw [List.mapM_cons, List.mapM_cons, ha, ih hrest]

theorem mapM_eq_ok_iff {ε α β : Type} {f : α → Except ε β} {l : List α} {bs : List β} :
    l.mapM f = .ok bs ↔ List.Forall₂ (fun a b => f a = .ok b) l bs := by
  induction l generalizing bs with
  | nil =>
    rw [List.mapM_nil, pure_eq_ok_iff, List.forall₂_nil_left_iff]
    exact eq_comm
  | cons a rest ih =>
    simp only [List.mapM_cons, bind_eq_ok_iff, pure_eq_ok_iff, ih]
    constructor
    · rintro ⟨b, hb, more, hmore, rfl⟩
      exact .cons hb hmore
    · intro h
      cases h with
      | cons hb hmore => exact ⟨_, hb, _, hmore, rfl⟩

namespace Raising

open Text

/-! ## Terms -/

/-- The right side of a comparison: what has the form of a number is converted, which fails beside a
separator. -/
def convert (s : String) : Except Raised Operand :=
  match looseNumber s with
  | .number x => return .number x
  | .misplaced => throw (.fault .unreadable)
  | _ => return .text s

/-- A term that is not empty, whose right side may fail to convert and whose path may be malformed. -/
def convertTerm (cs : List Char) : Except Raised Term :=
  match cs with
  | '!' :: rest => return .not (← parsePath (String.ofList (trim rest)))
  | cs =>
    match splitComparison? [] cs with
    | some (left, op, value) => do
      let right ← convert (String.ofList (trim value))
      return .compare (← parsePath (String.ofList (trim left))) op right
    | none => return .truthy (← parsePath (String.ofList cs))

/-- Only the error of a path becomes one of the condition. -/
def compileAtom (cs : List Char) : Except Raised Term :=
  if cs.isEmpty then throw (.condition .emptyTerm)
  else
    try convertTerm cs
    catch
      | .path cause => throw (.condition (.badTerm (String.ofList cs) cause))
      | e => throw e

/-- A trimmed text always converts. -/
theorem convert_eq (cs : List Char) :
    convert (String.ofList (trim cs)) = .ok (Operand.ofText (String.ofList (trim cs))) := by
  have hplaced := looseNumber_ne_misplaced (isTrimmed_trim cs)
  unfold convert Operand.ofText
  cases hnumber : looseNumber (String.ofList (trim cs)) with
  | misplaced => exact absurd hnumber hplaced
  | number x => rfl
  | blank => rfl
  | other => rfl

theorem convertTerm_eq (cs : List Char) : convertTerm cs = parseTerm cs := by
  unfold convertTerm parseTerm
  split
  · rfl
  · simp only [convert_eq]
    rfl

theorem compileAtom_eq (cs : List Char) : compileAtom cs = compileTerm cs := by
  unfold compileAtom
  rw [convertTerm_eq]
  rfl

/-! ## Trees -/

/-- A conjunction is cut first, then a disjunction; every part is trimmed and compiled again. -/
def compileNode (cs : List Char) : Except Raised Node :=
  if _ : doubled '&' <:+: cs then
    .all <$> (splitAtDoubled '&' cs).attach.mapM fun ⟨piece, _⟩ => compileNode (trim piece)
  else if _ : doubled '|' <:+: cs then
    .any <$> (splitAtDoubled '|' cs).attach.mapM fun ⟨piece, _⟩ => compileNode (trim piece)
  else .term <$> compileAtom (trim cs)
termination_by cs.length
decreasing_by
  all_goals
    exact (isInfix_trim _).length_le.trans_lt (length_lt_of_mem_splitAtDoubled (by assumption) (by assumption))

def compileTree (expression : String) : Except Raised Node :=
  if (trim expression.toList).isEmpty then throw (.condition (.notText (.text expression)))
  else compileNode expression.toList

theorem map_joined {α : Type} (join : List Node → Node) (f : α → Except Raised Node) {l : List α}
    (h : l.length ≠ 1) : join <$> l.mapM f = Node.joined join <$> l.mapM f := by
  cases hl : l.mapM f with
  | error e => rfl
  | ok ns =>
    have hlength := (mapM_eq_ok_iff.mp hl).length_eq
    exact congrArg Except.ok (Node.joined_of_length_ne_one join (hlength ▸ h)).symm

section

variable {cs : List Char}

theorem compileNode_of_conjunction (h : doubled '&' <:+: cs) :
    compileNode cs = .all <$> (splitAtDoubled '&' cs).mapM fun piece => compileNode (trim piece) := by
  rw [compileNode, dif_pos h]
  exact congrArg _ (mapM_attach (fun piece => compileNode (trim piece)) _)

theorem compileNode_of_disjunction (hall : ¬ doubled '&' <:+: cs) (h : doubled '|' <:+: cs) :
    compileNode cs = .any <$> (splitAtDoubled '|' cs).mapM fun piece => compileNode (trim piece) := by
  rw [compileNode, dif_neg hall, dif_pos h]
  exact congrArg _ (mapM_attach (fun piece => compileNode (trim piece)) _)

theorem compileNode_of_term (hall : ¬ doubled '&' <:+: cs) (hany : ¬ doubled '|' <:+: cs) :
    compileNode cs = .term <$> compileTerm (trim cs) := by
  rw [compileNode, dif_neg hall, dif_neg hany, compileAtom_eq]

theorem compileNode_of_clause (hall : ¬ doubled '&' <:+: cs) :
    compileNode cs = Node.ofClause <$> compileClause cs := by
  by_cases hany : doubled '|' <:+: cs
  · have hpiece : ∀ piece ∈ splitAtDoubled '|' cs,
        compileNode (trim piece) = .term <$> compileTerm (trim piece) := by
      intro piece hpiece
      have hpart := (isInfix_trim piece).trans (infix_of_mem_splitAtDoubled hpiece)
      have hcut : ¬ doubled '|' <:+: trim piece := fun hcut =>
        not_doubled_of_mem_splitAtDoubled hpiece (hcut.trans (isInfix_trim piece))
      rw [compileNode_of_term (fun h => hall (h.trans hpart)) hcut, trim_trim]
    rw [compileNode_of_disjunction hall hany, mapM_congr_of_mem hpiece,
      map_joined _ _ (length_splitAtDoubled_ne_one hany), mapM_map_apply, Functor.map_map]
    rfl
  · rw [compileNode_of_term hall hany, compileClause, splitAtDoubled_of_not_doubled hany, List.mapM_cons]
    cases compileTerm (trim cs) <;> rfl

theorem compileNode_eq (cs : List Char) : compileNode cs = Condition.tree <$> compileChars cs := by
  by_cases hall : doubled '&' <:+: cs
  · have hpiece : ∀ piece ∈ splitAtDoubled '&' cs,
        compileNode (trim piece) = Node.ofClause <$> compileClause (trim piece) := fun piece hpiece =>
      compileNode_of_clause fun hcut => not_doubled_of_mem_splitAtDoubled hpiece (hcut.trans (isInfix_trim piece))
    have hseveral := length_splitAtDoubled_ne_one hall
    rw [compileNode_of_conjunction hall, mapM_congr_of_mem hpiece, map_joined _ _ hseveral, mapM_map_apply,
      Functor.map_map]
    unfold compileChars
    split
    next whole hwhole => exact absurd (congrArg List.length hwhole) hseveral
    next =>
      cases (splitAtDoubled '&' cs).mapM fun piece => compileClause (trim piece) <;> rfl
  · rw [compileNode_of_clause hall, compileChars, splitAtDoubled_of_not_doubled hall]
    dsimp only
    cases compileClause cs <;> rfl

end

/-- The recursion comes to the tree of the clauses that are read. -/
theorem compileTree_eq (expression : String) :
    compileTree expression = (Condition.tree <$> Condition.read expression).mapError .condition := by
  have hcompile := compile_eq expression
  unfold compile at hcompile
  unfold compileTree
  rw [compileNode_eq]
  split
  next hblank =>
    rw [if_pos hblank] at hcompile
    cases hread : Condition.read expression with
    | ok c =>
      rw [hread] at hcompile
      cases hcompile
    | error cause =>
      rw [hread] at hcompile
      exact congrArg Except.error (Except.error.inj hcompile)
  next hblank =>
    rw [if_neg hblank] at hcompile
    rw [hcompile]
    cases Condition.read expression <;> rfl

end Raising

end SurvivalRules
