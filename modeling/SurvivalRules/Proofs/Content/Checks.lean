import SurvivalRules.Proofs.Content.Orderly
import SurvivalRules.Proofs.Store.Plain

/-!
# Checks of content

Whether content is orderly can be looked up in its entries, except for the conditions of its effects.
-/
namespace SurvivalRules.Content

variable {c : Content} {e : String × Action × TieredPlan}

/-- The blocks of an action keep to the sections, and no level has too many effects. -/
def HasFittingBlocks (c : Content) (a : Action) : Prop :=
  (∀ block ∈ effectBlocks a, block.length ≤ 2 ^ 10 ∧ ∀ e ∈ block, c.entryFits e = true) ∧
    (∀ block ∈ showBlocks a, ∀ e ∈ block, requirementFits e = true) ∧
    ∀ block ∈ costBlocks a, ∀ e ∈ block, costFits e = true

instance (c : Content) (a : Action) : Decidable (c.HasFittingBlocks a) := inferInstanceAs (Decidable (_ ∧ _))

/-- An action is listed under its own id, which can stand in paths. -/
def IsListed (e : String × Action) : Prop :=
  e.2.id = e.1 ∧ StatePath.IsName e.1 ∧ Key.isText e.1 = true ∧
    (StatePath.parse ("story.seen." ++ seenKey e.1)).toOption.isSome = true

instance (e : String × Action) : Decidable (IsListed e) := inferInstanceAs (Decidable (_ ∧ _))

/-- A building is listed under its own key, and its action alone writes to its counter. -/
def IsRaised (c : Content) (e : String × Action × TieredPlan) : Prop :=
  (e.2.2.buildingKey = e.1 ∧ e.2.2.lastLevel ≤ significandBound) ∧
    (StatePath.IsName e.2.2.buildingKey ∧ c.action? e.2.1.id = some e.2.1 ∧ e.2.1.plan = .tiered e.2.2) ∧
    (∀ level ∈ OrderedMap.keys e.2.2.cost, ∃ effects ∈ OrderedMap.get? level e.2.2.effects,
      e.2.2.mark level ∈ effects ∧ ∀ f ∈ effects, f ≠ e.2.2.mark level → e.2.2.counter.IsApart [f.1]) ∧
    ∀ f ∈ c.actions, f.1 ≠ e.2.1.id → ∀ block ∈ effectBlocks f.2,
      e.2.2.counter.IsApart (OrderedMap.keys block)

instance (c : Content) (e : String × Action × TieredPlan) : Decidable (c.IsRaised e) :=
  inferInstanceAs (Decidable (_ ∧ _))

def PassesChecks (c : Content) : Prop :=
  c.IsModest ∧ (∀ a ∈ OrderedMap.values c.actions, c.HasFittingBlocks a) ∧
    (∀ e ∈ c.actions, IsListed e) ∧ ∀ e ∈ c.buildingActions, c.IsRaised e

instance (c : Content) : Decidable c.PassesChecks := inferInstanceAs (Decidable (_ ∧ _))

theorem IsRaised.raises (h : c.IsRaised e) : c.Raises e.2.1.id e.2.2 := by
  obtain ⟨-, ⟨hname, haction, hplan⟩, hmarks, hothers⟩ := h
  refine ⟨hname, ⟨e.2.1, haction, hplan⟩, fun level hlevel => ?_, fun id a ha hne => ?_⟩
  · obtain ⟨effects, heffects, hmark⟩ := hmarks level hlevel
    exact ⟨effects, Option.mem_def.mp heffects, hmark⟩
  · exact hothers (id, a) (OrderedMap.mem_of_get? ha) hne

/-- An id that is a name is counted in the story under a name. -/
theorem isListed_of_isName {e : String × Action} (hid : e.2.id = e.1) (hname : StatePath.IsName e.1)
    (htext : Key.isText e.1 = true) : IsListed e := by
  refine ⟨hid, hname, htext, ?_⟩
  rw [StatePath.parse_seen (StatePath.isName_seenKey hname)]
  rfl

theorem IsListed.exists_path {e : String × Action} (h : IsListed e) :
    ∃ q, StatePath.parse ("story.seen." ++ seenKey e.1) = .ok q := by
  obtain ⟨-, -, -, hseen⟩ := h
  cases hparse : StatePath.parse ("story.seen." ++ seenKey e.1) with
  | ok q => exact ⟨q, rfl⟩
  | error cause =>
    rw [hparse] at hseen
    cases hseen

/-- Content that passes the checks is orderly when the conditions of its effects are plain. -/
theorem orderly_of_passesChecks (h : c.PassesChecks)
    (hconditions : ∀ text ∈ c.conditionTexts, Condition.IsPlain text) : c.Orderly := by
  obtain ⟨hmodest, hblocks, hlisted, hraised⟩ := h
  exact {
    modest := hmodest
    effects := fun a ha block hblock => ((hblocks a ha).1 block hblock).2
    conditions := hconditions
    requirements := fun a ha => (hblocks a ha).2.1
    short := fun a ha block hblock => ((hblocks a ha).1 block hblock).1
    costs := fun a ha => (hblocks a ha).2.2
    ids := fun e he => ⟨(hlisted e he).1, (hlisted e he).2.1, (hlisted e he).2.2.1⟩
    seen := fun e he => (hlisted e he).exists_path
    raises := fun e he => (hraised e he).raises
    buildingKeys := fun e he => (hraised e he).1.1
    lastLevels := fun e he => (hraised e he).1.2 }

end SurvivalRules.Content
