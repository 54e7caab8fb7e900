import SurvivalRules.Proofs.Drawing

/-!
# Errors that the gate handles

The gate written out with the errors that its steps raise and the handlers that catch them. Each question is
answered as by the definition that runs, and what is left to fail with are the faults of values.
-/
namespace SurvivalRules

/-- What a step can raise: the errors of paths, conditions and effects, a record that does not pass its
checks, and the faults of values. -/
inductive Raised where
  | path (cause : PathError)
  | condition (cause : ConditionError)
  | effect (cause : EffectError)
  | invalid (cause : Invalid)
  | fault (cause : Fault)

/-- A step that can have a fault only. -/
def raise {α : Type} (x : Except Fault α) : Except Raised α := x.mapError .fault

instance : MonadLift (Except Fault) (Except Raised) := ⟨raise⟩

section

variable {α β : Type}

@[simp] theorem raise_ok (a : α) : raise (.ok a) = .ok a := rfl

@[simp] theorem raise_error (cause : Fault) :
    raise (.error cause : Except Fault α) = .error (.fault cause) := rfl

@[simp] theorem raise_pure (a : α) : raise (pure a) = pure a := rfl

@[simp] theorem raise_bind (x : Except Fault α) (f : α → Except Fault β) :
    raise (x >>= f) = raise x >>= fun a => raise (f a) := by
  cases x <;> rfl

@[simp] theorem liftM_eq_raise (x : Except Fault α) : (liftM x : Except Raised α) = raise x := rfl

theorem eq_fault_of_raise {x : Except Fault α} {e : Raised} (h : raise x = .error e) :
    ∃ cause, e = .fault cause := by
  cases x with
  | ok a => cases h
  | error cause =>
    cases h
    exact ⟨cause, rfl⟩

end

/-- The error of a place, as it is raised. -/
def StateError.raised : StateError → Raised
  | .path cause => .path cause
  | .fault cause => .fault cause

namespace Raising

def parsePath (raw : String) : Except Raised StatePath := (StatePath.parse raw).mapError .path

def getPath (raw : String) (state : Tree) : Except Raised Value := do return state.get (← parsePath raw)

/-- The value at a path, or null where the path is malformed. -/
def getPathSafe (raw : String) (state : Tree) : Except Raised Value :=
  try getPath raw state
  catch
    | .path _ => pure .null
    | e => throw e

def requirementHolds (path : String) (expected : Value) (state : Tree) : Except Raised Bool := do
  Requirement.holdsOf expected (← getPath path state)

/-- Nothing is caught here; a malformed path ends the check. -/
def checkRequirements (state : Tree) : Tree → Except Raised Bool
  | [] => return true
  | (path, expected) :: rest => do
    if ← requirementHolds path expected state then checkRequirements state rest else return false

def isVisible (c : Content) (id : String) (state : Tree) : Except Raised Bool :=
  match c.action? id with
  | none => return false
  | some a => do
    match (← a.tier state).showWhen with
    | none => return false
    | some block =>
      try checkRequirements state block
      catch
        | .path _ => pure false
        | e => throw e

def failureText (path : String) (expected : Value) (state : Tree) : Except Raised String := do
  return path ++ " must be " ++ (← expected.described) ++ " (is " ++
    (← Requirement.describeCurrent (← getPathSafe path state)) ++ ")"

def failedRequirements (state : Tree) : Tree → Except Raised (List String)
  | [] => return []
  | (path, expected) :: rest => do
    let ok ←
      try requirementHolds path expected state
      catch
        | .path _ => pure false
        | e => throw e
    if ok then failedRequirements state rest
    else
      let line ← failureText path expected state
      return line :: (← failedRequirements state rest)

/-- The parsed path, or none where the path is malformed. -/
def parsed? (raw : String) : Except Raised (Option StatePath) :=
  try some <$> parsePath raw
  catch
    | .path _ => pure none
    | e => throw e

/-- The path is parsed under a handler; what follows is not. -/
def costFailure (reduction : Except Fault (Option Amount)) (state : Tree) (path : String) (required : Value) :
    Except Raised (Option String) :=
  match required.amount? with
  | none => return none
  | some price => do
    match ← parsed? path with
    | none => return some (path ++ ": malformed path")
    | some p =>
      let current := state.get p
      if p.accumulates then do
        let need ← adjustedCost price (← reduction)
        let held ← (Requirement.orZero current).toNumber
        if need.le (.float held) then return none else return some (← Gate.shortage path need current)
      else if current.isBool || !current.same required then
        return some (← Gate.mismatch path required current)
      else return none

def costFailures (reduction : Except Fault (Option Amount)) (state : Tree) :
    Tree → Except Raised (List String)
  | [] => return []
  | (path, required) :: rest => do
    let failure ← costFailure reduction state path required
    let more ← costFailures reduction state rest
    return failure.toList ++ more

def canPay (reduction : Except Fault (Option Amount)) (state : Tree) : Tree → Except Raised Bool
  | [] => return true
  | (path, required) :: rest => do
    match ← costFailure reduction state path required with
    | some _ => return false
    | none => canPay reduction state rest

def isExecutable (c : Content) (id : String) (state : Tree) : Except Raised Bool :=
  match c.action? id with
  | none => return false
  | some a => do
    if ← Gate.isCoolingDown id state then return false
    else
      match (← a.tier state).cost with
      | none => return false
      | some cost => canPay (Gate.gateReduction c a state) state cost

def showFailures (state : Tree) (tier : Tier) : Except Raised (List String) :=
  match tier.showWhen with
  | some block => failedRequirements state block
  | none => return [if tier.level.any (· ≠ 0) then "not available at this level" else "never shown"]

def payFailures (c : Content) (a : Action) (state : Tree) (tier : Tier) : Except Raised (List String) :=
  match tier.cost with
  | some cost => costFailures (Gate.gateReduction c a state) state cost
  | none => return ["no cost defined for level " ++ Gate.levelText tier.level]

def unmetRequirements (c : Content) (id : String) (state : Tree) : Except Raised (List String) :=
  match c.action? id with
  | none => return [s!"unknown action '{id}'"]
  | some a => do
    let cooling := Gate.coolingText (← Gate.cooldownRemaining id state)
    let tier ← a.tier state
    let hidden ← showFailures state tier
    let unpaid ← payFailures c a state tier
    return cooling ++ hidden ++ unpaid

def costParts (reduction : Option Amount) : Tree → Except Raised (List String)
  | [] => return []
  | (path, required) :: rest => do
    let part ← Gate.costPart? reduction path required
    let more ← costParts reduction rest
    return part.toList ++ more

/-- The name of a resource is cut out of its path, which is not parsed. -/
def costText (c : Content) (id : String) (state : Tree) : Except Raised String :=
  match c.action? id with
  | none => return ""
  | some a => do
    match (← a.tier state).cost.getD [] with
    | [] => return ""
    | cost => return ", ".intercalate (← costParts (← Gate.gateReduction c a state) cost)

def effectiveCooldown (c : Content) (id : String) (state : Tree) : Except Raised Binary64 :=
  match c.action? id with
  | none => return Binary64.zero
  | some a => do
    let tier ← a.tier state
    let bonus ← (← Totals.ofState c state).forAction a.id a.category
    let left := tier.cooldown.sub bonus.cooldownReduction
    return if Amount.zero.lt (.float left) then left else Binary64.zero

def visibleAmong (c : Content) (state : Tree) : List String → Except Raised (List String)
  | [] => return []
  | id :: rest => do
    let shown ← isVisible c id state
    let more ← visibleAmong c state rest
    return if shown then id :: more else more

def visibleActions (c : Content) (state : Tree) : Except Raised (List String) :=
  visibleAmong c state (OrderedMap.keys c.actions)

section

variable {c : Content} {id : String} {state : Tree} {reduction : Except Fault (Option Amount)}

theorem getPathSafe_eq (raw : String) (state : Tree) :
    getPathSafe raw state = .ok (Requirement.currentValue raw state) := by
  unfold getPathSafe getPath parsePath Requirement.currentValue
  cases StatePath.parse raw <;> rfl

theorem getPath_of_parse {raw : String} {p : StatePath} (h : StatePath.parse raw = .ok p) (state : Tree) :
    getPath raw state = .ok (state.get p) := by
  rw [getPath, parsePath, h]
  rfl

theorem requirementHolds_eq (path : String) (expected : Value) (state : Tree) :
    requirementHolds path expected state =
      (Requirement.holds path expected state).mapError StateError.raised := by
  unfold requirementHolds getPath parsePath Requirement.holds
  cases StatePath.parse path with
  | error cause => rfl
  | ok p =>
    dsimp only
    cases h : Requirement.holdsOf expected (state.get p) <;>
      simp [h, Except.mapError, StateError.raised, bind, Except.bind, pure, Except.pure]

theorem checkRequirements_eq (block : Tree) :
    checkRequirements state block = (Requirement.allHold state block).mapError StateError.raised := by
  induction block with
  | nil => rfl
  | cons e rest ih =>
    obtain ⟨path, expected⟩ := e
    unfold checkRequirements Requirement.allHold
    rw [requirementHolds_eq]
    cases Requirement.holds path expected state with
    | error cause => rfl
    | ok b =>
      cases b with
      | false => rfl
      | true => exact ih

theorem isVisible_eq : isVisible c id state = raise (Gate.isVisible c id state) := by
  unfold isVisible Gate.isVisible
  cases c.action? id with
  | none => rfl
  | some a =>
    cases ht : a.tier state with
    | error cause => simp [ht, bind, Except.bind]
    | ok tier =>
      cases hshow : tier.showWhen with
      | none => simp [ht, hshow, bind, Except.bind]
      | some block =>
        simp only [ht, hshow, bind, Except.bind, liftM_eq_raise, raise_ok, checkRequirements_eq]
        cases Requirement.allHold state block with
        | ok b => rfl
        | error cause => cases cause <;> rfl

theorem failureText_eq (path : String) (expected : Value) :
    failureText path expected state = raise (Requirement.failureText path expected state) := by
  unfold failureText Requirement.failureText
  rw [getPathSafe_eq]
  simp only [raise_bind, raise_pure]
  rfl

theorem failedRequirements_eq (block : Tree) :
    failedRequirements state block = raise (Requirement.failures state block) := by
  induction block with
  | nil => rfl
  | cons e rest ih =>
    obtain ⟨path, expected⟩ := e
    have htold : (do
        let line ← failureText path expected state
        return line :: (← failedRequirements state rest)) = raise (do
        let line ← Requirement.failureText path expected state
        return line :: (← Requirement.failures state rest)) := by
      simp only [failureText_eq, ih, raise_bind, raise_pure]
    unfold failedRequirements Requirement.failures Requirement.met
    rw [requirementHolds_eq]
    cases Requirement.holds path expected state with
    | ok b =>
      cases b with
      | true => exact ih
      | false => exact htold
    | error cause =>
      cases cause with
      | path cause => exact htold
      | fault cause => rfl

theorem parsed?_eq (raw : String) : parsed? raw = pure (StatePath.parse raw).toOption := by
  unfold parsed? parsePath
  cases StatePath.parse raw <;> rfl

theorem costFailure_eq (path : String) (required : Value) :
    costFailure reduction state path required = raise (Gate.costFailure reduction state path required) := by
  unfold costFailure Gate.costFailure
  cases required.amount? with
  | none => rfl
  | some price =>
    simp only [parsed?_eq, pure_bind]
    cases StatePath.parse path with
    | error cause => rfl
    | ok p =>
      dsimp only [Except.toOption]
      split
      · simp only [raise_bind, liftM_eq_raise]
        congr! with share need held
        split
        · rfl
        · simp only [raise_bind, raise_pure]
      · split
        · simp only [map_eq_pure_bind, raise_bind, raise_pure, liftM_eq_raise]
        · rfl

theorem costFailures_eq (cost : Tree) :
    costFailures reduction state cost = raise (Gate.costFailures reduction state cost) := by
  induction cost with
  | nil => rfl
  | cons e rest ih =>
    obtain ⟨path, required⟩ := e
    simp only [costFailures, Gate.costFailures, costFailure_eq, ih, raise_bind, raise_pure]

theorem canPay_eq (cost : Tree) : canPay reduction state cost = raise (Gate.canPay reduction state cost) := by
  induction cost with
  | nil => rfl
  | cons e rest ih =>
    obtain ⟨path, required⟩ := e
    simp only [canPay, Gate.canPay, costFailure_eq, raise_bind]
    congr 1
    funext failure
    cases failure with
    | none => exact ih
    | some reason => rfl

theorem isExecutable_eq : isExecutable c id state = raise (Gate.isExecutable c id state) := by
  unfold isExecutable Gate.isExecutable
  cases c.action? id with
  | none => rfl
  | some a =>
    simp only [raise_bind, liftM_eq_raise]
    congr 1
    funext cooling
    cases cooling with
    | true => rfl
    | false =>
      simp only [Bool.false_eq_true, if_false, raise_bind]
      congr 1
      funext tier
      cases tier.cost with
      | none => rfl
      | some cost => exact canPay_eq cost

theorem showFailures_eq (tier : Tier) : showFailures state tier = raise (Gate.showFailures state tier) := by
  unfold showFailures Gate.showFailures
  cases tier.showWhen with
  | none => rfl
  | some block => exact failedRequirements_eq block

theorem payFailures_eq (a : Action) (tier : Tier) :
    payFailures c a state tier = raise (Gate.payFailures c a state tier) := by
  unfold payFailures Gate.payFailures
  cases tier.cost with
  | none => rfl
  | some cost => exact costFailures_eq cost

theorem unmetRequirements_eq : unmetRequirements c id state = raise (Gate.unmetRequirements c id state) := by
  unfold unmetRequirements Gate.unmetRequirements
  cases c.action? id with
  | none => rfl
  | some a => simp only [showFailures_eq, payFailures_eq, raise_bind, raise_pure, liftM_eq_raise]

theorem costParts_eq (reduction : Option Amount) (cost : Tree) :
    costParts reduction cost = raise (Gate.costParts reduction cost) := by
  induction cost with
  | nil => rfl
  | cons e rest ih =>
    obtain ⟨path, required⟩ := e
    simp only [costParts, Gate.costParts, ih, raise_bind, raise_pure, liftM_eq_raise]

theorem costText_eq : costText c id state = raise (Gate.costText c id state) := by
  unfold costText Gate.costText
  cases c.action? id with
  | none => rfl
  | some a =>
    simp only [raise_bind, liftM_eq_raise]
    congr 1
    funext tier
    cases tier.cost.getD [] with
    | nil => rfl
    | cons e rest => simp only [costParts_eq, raise_bind, raise_pure]

theorem effectiveCooldown_eq : effectiveCooldown c id state = raise (Gate.effectiveCooldown c id state) := by
  unfold effectiveCooldown Gate.effectiveCooldown
  cases c.action? id with
  | none => rfl
  | some a => simp only [raise_bind, raise_pure, liftM_eq_raise]

theorem visibleAmong_eq (ids : List String) :
    visibleAmong c state ids = raise (Gate.visibleAmong c state ids) := by
  induction ids with
  | nil => rfl
  | cons id rest ih => simp only [visibleAmong, Gate.visibleAmong, isVisible_eq, ih, raise_bind, raise_pure]

theorem visibleActions_eq : visibleActions c state = raise (Gate.visibleActions c state) :=
  visibleAmong_eq _

end

end Raising

end SurvivalRules
