import SurvivalRules.Proofs.Condition.Grammar
import SurvivalRules.Proofs.Condition.Joined
import SurvivalRules.Proofs.Value.Alike

/-!
# What a condition depends on

A condition is answered from the values at the paths that are collected from its tree, and of these only the
contents count. Two states that agree at those paths have one answer, or one error, however the joints are
nested.
-/
namespace SurvivalRules

/-! ## Numbers at one place -/

/-- A comparison sees of a number no more than its place. -/
theorem Comparison.holds_of_point? {a a' b : Amount} (op : Comparison) (h : a.point? = a'.point?) :
    op.holds a b = op.holds a' b := by
  cases op <;> simp only [holds, Amount.le, Amount.lt, Amount.same, h]

/-- What is answered from the place of a number alone is answered alike by numbers at one place. -/
theorem bind_eq_of_point? {α : Type} {x y : Except Fault Binary64} {f : Binary64 → Except Fault α}
    (hplaces : x.map Binary64.point? = y.map Binary64.point?)
    (hf : ∀ a b : Binary64, a.point? = b.point? → f a = f b) : (x >>= f) = (y >>= f) := by
  cases x with
  | error cause =>
    cases y with
    | error cause' => exact congrArg Except.error (Except.error.inj hplaces)
    | ok b => cases hplaces
  | ok a =>
    cases y with
    | error cause => cases hplaces
    | ok b => exact hf a b (Except.ok.inj hplaces)

namespace Value

variable {v w : Value}

theorem Alike.truthy_eq (h : v.Alike w) : v.truthy = w.truthy := by
  rcases h with rfl | h
  · rfl
  · exact truthy_of_same h

theorem Alike.toNumber_eq (h : v.Alike w) : v.toNumber.map Binary64.point? = w.toNumber.map Binary64.point? := by
  rcases h with rfl | h
  · rfl
  · exact toNumber_of_same h

/-- Beside a value of equal contents, a text is the same text and nothing else is one. -/
theorem Alike.cases (h : v.Alike w) :
    v = w ∨ (v ≠ .null ∧ w ≠ .null ∧ (∀ s, v ≠ .text s) ∧ ∀ s, w ≠ .text s) := by
  rcases h with rfl | h
  · exact Or.inl rfl
  · cases v <;> cases w <;> simp_all [same, numeric?, amount?]

theorem looseEquals_of_number (hnull : v ≠ .null) (htext : ∀ s, v ≠ .text s) (right : Value) :
    v.looseEquals right = v.toNumber >>= fun a => right.toNumber >>= fun b =>
      .ok ((Amount.float a).same (.float b)) := by
  cases v with
  | null => exact absurd rfl hnull
  | text s => exact absurd rfl (htext s)
  | _ => rfl

theorem Alike.looseEquals_eq (h : v.Alike w) (right : Value) : v.looseEquals right = w.looseEquals right := by
  rcases h.cases with rfl | ⟨hv, hw, hvText, hwText⟩
  · rfl
  · rw [looseEquals_of_number hv hvText, looseEquals_of_number hw hwText]
    refine bind_eq_of_point? h.toNumber_eq fun a b hplace => ?_
    have hpoint : (Amount.float a).point? = (Amount.float b).point? := hplace
    simp only [Amount.same, hpoint]

end Value

/-! ## Terms and trees -/

theorem Term.holdsOf_of_alike {v w : Value} (t : Term) (h : v.Alike w) : t.holdsOf v = t.holdsOf w := by
  have horder : ∀ (op : Comparison) (right : Operand),
      (v.toNumber >>= fun a => right.value.toNumber >>= fun b => pure (op.holds (.float a) (.float b))) =
        (w.toNumber >>= fun a => right.value.toNumber >>= fun b => pure (op.holds (.float a) (.float b))) :=
    fun op right => bind_eq_of_point? h.toNumber_eq fun a b hplace => by
      have hpoint : (Amount.float a).point? = (Amount.float b).point? := hplace
      simp only [op.holds_of_point? hpoint]
  cases t with
  | truthy p => exact congrArg Except.ok h.truthy_eq
  | not p => simp only [holdsOf, h.truthy_eq]
  | compare p op right =>
    cases op with
    | equal => exact h.looseEquals_eq _
    | unequal => simp only [holdsOf, h.looseEquals_eq]
    | atLeast | atMost | greater | less => exact horder _ right

namespace Node

mutual

/-- The terms of a condition, in the order in which it is written. -/
def terms : Node → List Term
  | .term t => [t]
  | .all parts => termsOf parts
  | .any parts => termsOf parts

def termsOf : List Node → List Term
  | [] => []
  | n :: rest => terms n ++ termsOf rest

end

/-- The paths of the terms, as they are written. -/
def paths (n : Node) : List String := n.terms.map fun t => t.path.raw

/-- Every path of the tree is what its text is parsed to. -/
def IsParsed (n : Node) : Prop := ∀ t ∈ n.terms, StatePath.parse t.path.raw = .ok t.path

variable {s t : Tree}

mutual

/-- A tree of any shape has the answer of its terms. -/
theorem holds_congr : ∀ n : Node, (∀ u ∈ n.terms, u.holds s = u.holds t) → n.holds s = n.holds t
  | .term u, h => h u (List.mem_singleton.mpr rfl)
  | .all parts, h => allHold_congr parts h
  | .any parts, h => anyHolds_congr parts h

theorem allHold_congr : ∀ ns : List Node, (∀ u ∈ termsOf ns, u.holds s = u.holds t) →
    allHold s ns = allHold t ns
  | [], _ => rfl
  | n :: rest, h => by
    have hfirst := holds_congr n fun u hu => h u (List.mem_append_left _ hu)
    have hrest := allHold_congr rest fun u hu => h u (List.mem_append_right _ hu)
    rw [allHold, allHold, hfirst, hrest]

theorem anyHolds_congr : ∀ ns : List Node, (∀ u ∈ termsOf ns, u.holds s = u.holds t) →
    anyHolds s ns = anyHolds t ns
  | [], _ => rfl
  | n :: rest, h => by
    have hfirst := holds_congr n fun u hu => h u (List.mem_append_left _ hu)
    have hrest := anyHolds_congr rest fun u hu => h u (List.mem_append_right _ hu)
    rw [anyHolds, anyHolds, hfirst, hrest]

end

/-! ## The trees of conditions -/

theorem termsOf_flatMap (ns : List Node) : termsOf ns = ns.flatMap terms := by
  induction ns with
  | nil => rfl
  | cons n rest ih => rw [termsOf, ih, List.flatMap_cons]

/-- A joint has the terms of its parts, also where it is left out. -/
theorem terms_joined {join : List Node → Node} (h : ∀ ns, (join ns).terms = termsOf ns) (ns : List Node) :
    (joined join ns).terms = termsOf ns := by
  rcases ns with _ | ⟨n, _ | ⟨m, rest⟩⟩
  · exact h []
  · rw [joined, termsOf, termsOf, List.append_nil]
  · exact h _

theorem terms_ofClause (clause : List Term) : (ofClause clause).terms = clause := by
  rw [ofClause, terms_joined fun _ => by rw [terms], termsOf_flatMap, List.flatMap_map]
  simp only [terms, List.flatMap_singleton']

end Node

namespace Condition

variable {c : Condition} {expression : String}

theorem terms_tree (c : Condition) : c.tree.terms = c.clauses.flatMap id := by
  rw [tree, Node.terms_joined fun _ => by rw [Node.terms], Node.termsOf_flatMap, List.flatMap_map]
  simp only [Node.terms_ofClause]
  rfl

/-- The tree names the paths that the condition declares. -/
theorem paths_tree (c : Condition) : c.tree.paths = c.paths.map StatePath.raw := by
  rw [Node.paths, terms_tree, paths, List.map_map]
  rfl

end Condition

theorem Spells.parse_path {cs : List Char} {t : Term} (h : Spells cs t) :
    StatePath.parse t.path.raw = .ok t.path := by
  have hraw : ∀ {cs : List Char} {p : StatePath}, StatePath.parse (String.ofList cs) = .ok p →
      StatePath.parse p.raw = .ok p := fun h => (StatePath.parse_eq_ok_iff.mp h).1.symm ▸ h
  cases h with
  | negated h => exact hraw h
  | compared hpath => exact hraw hpath.parses
  | cut hpath => exact hraw hpath.parses
  | plain h => exact hraw h

namespace Raising

/-- The paths that an expression refers to, collected from its tree. -/
def conditionPaths (expression : String) : Except Raised (List String) :=
  Node.paths <$> compileTree expression

/-- Wherever a path can be read in both states, the values are alike. -/
def AgreeAt (raw : String) (s t : Tree) : Prop :=
  ∀ v w, getPath raw s = .ok v → getPath raw t = .ok w → v.Alike w

variable {expression : String} {n : Node} {s t : Tree}

theorem isParsed_of_compileTree (h : compileTree expression = .ok n) : n.IsParsed := by
  obtain ⟨c, hread, rfl⟩ := compileTree_eq_ok_iff.mp h
  intro t ht
  rw [Condition.terms_tree] at ht
  obtain ⟨clause, hclause, ht⟩ := List.mem_flatMap.mp ht
  obtain ⟨part, -, hpart⟩ := exists_of_mem_forall₂ (Condition.read_eq_ok_iff_spelledBy.mp hread) hclause
  obtain ⟨piece, -, hpiece⟩ := exists_of_mem_forall₂ hpart ht
  exact hpiece.parse_path

/-- An expression is evaluated by its tree. -/
theorem evaluate_eq_tree (expression : String) (state : Tree) :
    evaluate expression state = compileTree expression >>= fun n => raise (n.holds state) := by
  rw [evaluate_eq, compileTree_eq]
  cases Condition.read expression with
  | error cause => rfl
  | ok c => exact congrArg raise (c.holds_tree state).symm

theorem conditionPaths_eq_ok_iff {declared : List String} :
    conditionPaths expression = .ok declared ↔ ∃ n, compileTree expression = .ok n ∧ n.paths = declared := by
  unfold conditionPaths
  cases compileTree expression <;> simp

theorem agreeAt_of_parse {raw : String} {p : StatePath} (h : StatePath.parse raw = .ok p)
    (halike : (s.get p).Alike (t.get p)) : AgreeAt raw s t := by
  intro v w hv hw
  cases (getPath_of_parse h s).symm.trans hv
  cases (getPath_of_parse h t).symm.trans hw
  exact halike

end Raising

namespace Node

variable {n : Node} {s t : Tree}

theorem holds_of_agreeAt (hparsed : n.IsParsed) (hagree : ∀ raw ∈ n.paths, Raising.AgreeAt raw s t) :
    n.holds s = n.holds t := by
  refine n.holds_congr fun u hu => ?_
  have hpath := hparsed u hu
  have halike := hagree _ (List.mem_map_of_mem hu) _ _ (Raising.getPath_of_parse hpath s)
    (Raising.getPath_of_parse hpath t)
  exact u.holdsOf_of_alike halike

end Node

/-- States that agree at the declared paths of an expression give it the same answer or the same error, and so
they do for every tree over these paths. -/
theorem evaluate_congr_of_agreeAt {expression : String} {declared : List String} {s t : Tree}
    (hdeclared : Raising.conditionPaths expression = .ok declared)
    (hagree : ∀ raw ∈ declared, Raising.AgreeAt raw s t) :
    Raising.evaluate expression s = Raising.evaluate expression t ∧
      (∃ c, Condition.read expression = .ok c ∧ c.paths.map StatePath.raw = declared) ∧
      ∀ n : Node, n.IsParsed → n.paths ⊆ declared → n.holds s = n.holds t := by
  obtain ⟨n, hn, rfl⟩ := Raising.conditionPaths_eq_ok_iff.mp hdeclared
  obtain ⟨c, hread, hc⟩ := Raising.compileTree_eq_ok_iff.mp hn
  refine ⟨?_, ⟨c, hread, hc ▸ c.paths_tree.symm⟩, fun m hparsed hsub => ?_⟩
  · have hholds := Node.holds_of_agreeAt (Raising.isParsed_of_compileTree hn) hagree
    rw [Raising.evaluate_eq_tree, Raising.evaluate_eq_tree, hn]
    exact congrArg raise hholds
  · exact Node.holds_of_agreeAt hparsed fun raw hraw => hagree raw (hsub hraw)

/-- As `huntingState` for the hunter, with a trap count of another kind and other stores. -/
def otherHuntingState : Tree :=
  [("stats", .mapping [("attack", .int 7)]), ("flags", .mapping [("winter", .int 0), ("night", .bool true)]),
    ("resources", .mapping [("wood", .int 9), ("trap", .float (Binary64.ofInt 3))])]

theorem hunting_evaluated_alike :
    Raising.conditionPaths (conjunction huntingClauses) = .ok ["flags.winter", "weapons.bow", "resources.trap"] ∧
    (∀ raw ∈ ["flags.winter", "weapons.bow", "resources.trap"],
      Raising.AgreeAt raw huntingState otherHuntingState) ∧
    Raising.evaluate (conjunction huntingClauses) huntingState =
      Raising.evaluate (conjunction huntingClauses) otherHuntingState := by
  have hwinter : ReadsAs "!flags.winter" noWinter := by
    unfold ReadsAs
    decide +kernel
  have hbow : ReadsAs "weapons.bow" bowAtHand := by
    unfold ReadsAs
    decide +kernel
  have htrap : ReadsAs "resources.trap >= 2" twoTraps := by
    unfold ReadsAs
    decide +kernel
  have hatoms : ∀ clause ∈ huntingClauses, ∀ text ∈ clause, IsAtom text := by
    have hnoWinter : IsAtom "!flags.winter" := isAtom_iff.mpr ⟨by decide, by decide, _, hwinter⟩
    have hweapon : IsAtom "weapons.bow" := isAtom_iff.mpr ⟨by decide, by decide, _, hbow⟩
    have htraps : IsAtom "resources.trap >= 2" := isAtom_iff.mpr ⟨by decide, by decide, _, htrap⟩
    simp [huntingClauses, hnoWinter, hweapon, htraps]
  have hread : Condition.read (conjunction huntingClauses) = .ok ⟨[[noWinter], [bowAtHand, twoTraps]]⟩ :=
    read_conjunction (by decide) (by decide) hatoms
      (.cons (.cons hwinter .nil) (.cons (.cons hbow (.cons htrap .nil)) .nil))
  have hdeclared : Raising.conditionPaths (conjunction huntingClauses) =
      .ok ["flags.winter", "weapons.bow", "resources.trap"] :=
    Raising.conditionPaths_eq_ok_iff.mpr
      ⟨_, Raising.compileTree_eq_ok_iff.mpr ⟨_, hread, rfl⟩, by rw [Condition.paths_tree]; rfl⟩
  have hagree : ∀ raw ∈ ["flags.winter", "weapons.bow", "resources.trap"],
      Raising.AgreeAt raw huntingState otherHuntingState := by
    intro raw hraw
    simp only [List.mem_cons, List.not_mem_nil, or_false] at hraw
    rcases hraw with rfl | rfl | rfl
    · exact Raising.agreeAt_of_parse (p := noWinter.path) (by decide +kernel) (by decide +kernel)
    · exact Raising.agreeAt_of_parse (p := bowAtHand.path) (by decide +kernel) (by decide +kernel)
    · exact Raising.agreeAt_of_parse (p := twoTraps.path) (by decide +kernel) (by decide +kernel)
  exact ⟨hdeclared, hagree, (evaluate_congr_of_agreeAt hdeclared hagree).1⟩

end SurvivalRules
