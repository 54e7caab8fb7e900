import SurvivalRules.Proofs.Raising.Resolve

/-!
# Errors that are contained

No error of a path, a condition or an effect leaves the gate or a resolution. A malformed path among the
requirements hides an action once it is reached, and one among the costs keeps it from being done.
-/
namespace SurvivalRules

open Raising

/-- A run that comes to the same as the definition `y` and fails with faults of values only. -/
structure Contained {α : Type} (x : Except Raised α) (y : Except Fault α) : Prop where
  same : x = raise y
  onlyFaults : ∀ e, x = .error e → ∃ cause, e = .fault cause

theorem contained_of_eq {α : Type} {x : Except Raised α} {y : Except Fault α} (h : x = raise y) :
    Contained x y where
  same := h
  onlyFaults := fun _ he => eq_fault_of_raise (h.symm.trans he)

theorem runFrom_resolve (c : Content) (id : String) (state : Tree) (amplify : Bool) (d : Draws) :
    (Raising.resolve c id state amplify).run.run d =
      (raise (Drawing.runFrom (resolve c id state amplify) d).1,
        (Drawing.runFrom (resolve c id state amplify) d).2) := by
  rw [resolve_eq]
  rfl

def IsMalformedPath (raw : String) : Prop := ∃ cause, StatePath.parse raw = .error cause

/-- The requirements that apply hold up to a malformed path. -/
def ReachesMalformed (c : Content) (id : String) (state : Tree) : Prop :=
  ∃ a tier front raw expected back, c.action? id = some a ∧ a.tier state = .ok tier ∧
    tier.showWhen = some (front ++ (raw, expected) :: back) ∧
    (∀ e ∈ front, Requirement.holds e.1 e.2 state = .ok true) ∧ IsMalformedPath raw

/-- The costs that apply to an action ask a number of a malformed path, which stands behind the entries
`front`. -/
def AsksMalformed (c : Content) (id : String) (state : Tree) (a : Action) (front : Tree) : Prop :=
  ∃ tier raw required back, c.action? id = some a ∧ a.tier state = .ok tier ∧
    tier.cost = some (front ++ (raw, required) :: back) ∧ required.amount? ≠ none ∧ IsMalformedPath raw

section

variable {state front back : Tree} {raw : String} {v : Value}

theorem allHold_of_malformed (hfront : ∀ e ∈ front, Requirement.holds e.1 e.2 state = .ok true)
    {cause : PathError} (hraw : StatePath.parse raw = .error cause) :
    Requirement.allHold state (front ++ (raw, v) :: back) = .error (.path cause) := by
  induction front with
  | nil =>
    have hholds : Requirement.holds raw v state = .error (.path cause) := by
      simp [Requirement.holds, hraw]
    simp [Requirement.allHold, hholds, bind, Except.bind]
  | cons e rest ih =>
    obtain ⟨path, expected⟩ := e
    obtain ⟨hfirst, hrest⟩ := List.forall_mem_cons.mp hfront
    simp only [List.cons_append, Requirement.allHold, hfirst]
    exact ih hrest

theorem isVisible_of_reachesMalformed {c : Content} {id : String} (h : ReachesMalformed c id state) :
    Gate.isVisible c id state = .ok false := by
  obtain ⟨a, tier, front, raw, expected, back, ha, htier, hshow, hfront, cause, hraw⟩ := h
  simp only [Gate.isVisible, ha, htier, bind, Except.bind, hshow, allHold_of_malformed hfront hraw]
  rfl

variable {reduction : Except Fault (Option Amount)}

theorem costFailure_of_malformed (hv : v.amount? ≠ none) (hraw : IsMalformedPath raw) :
    Gate.costFailure reduction state raw v = .ok (some (raw ++ ": malformed path")) := by
  obtain ⟨cause, hraw⟩ := hraw
  obtain ⟨price, hprice⟩ := Option.ne_none_iff_exists'.mp hv
  simp [Gate.costFailure, hprice, hraw]

/-- A malformed path among the costs is never paid. -/
theorem not_canPay_of_malformed (hv : v.amount? ≠ none) (hraw : IsMalformedPath raw) :
    Gate.canPay reduction state (front ++ (raw, v) :: back) ≠ .ok true := by
  induction front with
  | nil =>
    simp [Gate.canPay, costFailure_of_malformed hv hraw, bind, Except.bind, pure, Except.pure]
  | cons e rest ih =>
    obtain ⟨path, required⟩ := e
    intro hpay
    obtain ⟨failure, -, hrest⟩ := bind_eq_ok_iff.mp hpay
    cases failure with
    | none => exact ih hrest
    | some reason => cases pure_eq_ok_iff.mp hrest

/-- Once it is reached, the costs cannot be paid. -/
theorem canPay_of_malformed (hv : v.amount? ≠ none) (hraw : IsMalformedPath raw)
    (hfront : ∀ e ∈ front, ∃ failure, Gate.costFailure reduction state e.1 e.2 = .ok failure) :
    Gate.canPay reduction state (front ++ (raw, v) :: back) = .ok false := by
  induction front with
  | nil =>
    simp [Gate.canPay, costFailure_of_malformed hv hraw, bind, Except.bind, pure, Except.pure]
  | cons e rest ih =>
    obtain ⟨path, required⟩ := e
    obtain ⟨⟨failure, hfailure⟩, hrest⟩ := List.forall_mem_cons.mp hfront
    simp only [List.cons_append, Gate.canPay]
    refine bind_eq_ok_iff.mpr ⟨failure, hfailure, ?_⟩
    cases failure with
    | none => exact ih hrest
    | some reason => rfl

end

section

variable {c : Content} {id : String} {state front : Tree} {a : Action}

theorem not_isExecutable_of_asksMalformed (h : AsksMalformed c id state a front) :
    Gate.isExecutable c id state ≠ .ok true := by
  obtain ⟨tier, raw, required, back, ha, htier, hcost, hnumber, hraw⟩ := h
  intro hexec
  simp only [Gate.isExecutable, ha] at hexec
  obtain ⟨cooling, -, hexec⟩ := bind_eq_ok_iff.mp hexec
  split at hexec
  · cases pure_eq_ok_iff.mp hexec
  · obtain ⟨tier', htier', hexec⟩ := bind_eq_ok_iff.mp hexec
    cases htier.symm.trans htier'
    rw [hcost] at hexec
    exact not_canPay_of_malformed hnumber hraw hexec

theorem isExecutable_of_asksMalformed (h : AsksMalformed c id state a front)
    (hcooling : ∃ cooling, Gate.isCoolingDown id state = .ok cooling)
    (hfront : ∀ e ∈ front, ∃ failure,
      Gate.costFailure (Gate.gateReduction c a state) state e.1 e.2 = .ok failure) :
    Gate.isExecutable c id state = .ok false := by
  obtain ⟨tier, raw, required, back, ha, htier, hcost, hnumber, hraw⟩ := h
  obtain ⟨cooling, hcooling⟩ := hcooling
  simp only [Gate.isExecutable, ha]
  refine bind_eq_ok_iff.mpr ⟨cooling, hcooling, ?_⟩
  cases cooling with
  | true => rfl
  | false =>
    refine bind_eq_ok_iff.mpr ⟨tier, htier, ?_⟩
    rw [hcost]
    exact canPay_of_malformed hnumber hraw hfront

end

/-- Whatever is asked of the gate and whatever is resolved, with the errors that are raised on the way and
the handlers that catch them, comes to what the definitions give; only faults of values are left to fail
with. A malformed path that the requirements reach hides the action. A malformed path that a number is asked
of keeps it from being done: the gate never says yes, and it says no unless there is a fault in the timer of
the action or in the costs before. -/
theorem own_errors_never_escape (c : Content) (id : String) (state : Tree) (amplify : Bool) (d : Draws) :
    Contained (Raising.isVisible c id state) (Gate.isVisible c id state) ∧
    Contained (Raising.isExecutable c id state) (Gate.isExecutable c id state) ∧
    Contained (Raising.unmetRequirements c id state) (Gate.unmetRequirements c id state) ∧
    Contained (Raising.costText c id state) (Gate.costText c id state) ∧
    Contained (Raising.effectiveCooldown c id state) (Gate.effectiveCooldown c id state) ∧
    Contained (Raising.visibleActions c state) (Gate.visibleActions c state) ∧
    (Contained ((Raising.resolve c id state amplify).run.run d).1
        (Drawing.runFrom (resolve c id state amplify) d).1 ∧
      ((Raising.resolve c id state amplify).run.run d).2 =
        (Drawing.runFrom (resolve c id state amplify) d).2) ∧
    (ReachesMalformed c id state → Gate.isVisible c id state = .ok false) ∧
    ∀ a front, AsksMalformed c id state a front →
      Gate.isExecutable c id state ≠ .ok true ∧
      ((∃ cooling, Gate.isCoolingDown id state = .ok cooling) →
        (∀ e ∈ front, ∃ failure,
          Gate.costFailure (Gate.gateReduction c a state) state e.1 e.2 = .ok failure) →
        Gate.isExecutable c id state = .ok false) := by
  refine ⟨contained_of_eq isVisible_eq, contained_of_eq isExecutable_eq, contained_of_eq unmetRequirements_eq,
    contained_of_eq costText_eq, contained_of_eq effectiveCooldown_eq, contained_of_eq visibleActions_eq,
    ⟨contained_of_eq ?_, ?_⟩, isVisible_of_reachesMalformed, fun a front h => ?_⟩
  · rw [runFrom_resolve]
  · rw [runFrom_resolve]
  · exact ⟨not_isExecutable_of_asksMalformed h, isExecutable_of_asksMalformed h⟩

/-- A loom of which a requirement and a cost have a malformed path. -/
def loom : Action where
  id := "weave"
  label := "Weave"
  description := ""
  category := none
  statsEffects := []
  craftingCostReduction := Binary64.zero
  buildingCostReduction := Binary64.zero
  plan := .flat ⟨some [("flags.loom", .bool true), ("bad path", .bool true)],
    [("resources.wood", .int 1), ("bad path", .int 1)], [], Binary64.zero⟩

def looms : Content := ⟨[("weave", loom)], [], [], []⟩

def loomState (wood : ℤ) : Tree :=
  [("resources", .mapping [("wood", .int wood)]), ("flags", .mapping [("loom", .bool true)])]

def loomTier : Tier :=
  ⟨none, some [("flags.loom", .bool true), ("bad path", .bool true)],
    some [("resources.wood", .int 1), ("bad path", .int 1)], some [], Binary64.zero⟩

theorem loom_is_hidden :
    Gate.isVisible looms "weave" (loomState 3) = .ok false ∧
      Gate.isExecutable looms "weave" (loomState 3) = .ok false := by
  have hraw : IsMalformedPath "bad path" := ⟨.badSegment "bad path" "bad path", by decide⟩
  have htier : loom.tier (loomState 3) = .ok loomTier := rfl
  obtain ⟨-, -, -, -, -, -, -, hvisible, hexec⟩ :=
    own_errors_never_escape looms "weave" (loomState 3) false zeroDraws
  refine ⟨hvisible ⟨loom, loomTier, [("flags.loom", .bool true)], _, _, [], rfl, htier, rfl, ?_, hraw⟩,
    (hexec loom [("resources.wood", .int 1)] ⟨loomTier, _, _, [], rfl, htier, rfl, by decide, hraw⟩).2 ?_ ?_⟩
  · simp only [List.forall_mem_singleton]
    decide +kernel
  · exact ⟨false, by decide +kernel⟩
  · simp only [List.forall_mem_singleton]
    exact ⟨none, by decide +kernel⟩

/-- With more wood than binary64 can hold, the malformed path is not reached. -/
theorem loom_fault_before_malformed :
    AsksMalformed looms "weave" (loomState (10 ^ 400)) loom [("resources.wood", .int 1)] ∧
      Gate.isExecutable looms "weave" (loomState (10 ^ 400)) = .error .outOfRange := by
  refine ⟨⟨loomTier, "bad path", .int 1, [], rfl, rfl, rfl, by decide, .badSegment "bad path" "bad path",
    by decide⟩, by decide +kernel⟩

end SurvivalRules
