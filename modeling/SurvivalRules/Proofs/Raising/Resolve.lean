import SurvivalRules.Proofs.Raising.Gate
import SurvivalRules.Resolve

/-!
# Errors that a resolution handles

Reading a condition, a chance or an outcome and resolving an action, written out with the errors that are
raised and the handlers that catch them. A resolution comes to the same as by the definition that runs, with
the same draws, and what is left to fail with are the faults of values.
-/
namespace SurvivalRules

/-- The error of an effect, as it is raised. -/
def EffectError.raised : EffectError → Raised
  | .fault cause => .fault cause
  | cause => .effect cause

theorem mapM_mapError {ε ε' α β : Type} (g : ε → ε') (f : α → Except ε β) (l : List α) :
    l.mapM (fun a => (f a).mapError g) = (l.mapM f).mapError g := by
  induction l with
  | nil => rfl
  | cons a rest ih =>
    simp only [List.mapM_cons, ih]
    cases f a with
    | error cause => rfl
    | ok b => cases rest.mapM f <;> rfl

namespace Raising

/-! ## Conditions -/

/-- A term that is not empty, whose path may be malformed. -/
def parseTerm (cs : List Char) : Except Raised Term :=
  match cs with
  | '!' :: rest => return .not (← parsePath (String.ofList (Text.trim rest)))
  | cs =>
    match splitComparison? [] cs with
    | some (left, op, value) =>
      return .compare (← parsePath (String.ofList (Text.trim left))) op
        (Operand.ofText (String.ofList (Text.trim value)))
    | none => return .truthy (← parsePath (String.ofList cs))

/-- The error of a path becomes one of the condition. -/
def compileTerm (cs : List Char) : Except Raised Term :=
  if cs.isEmpty then throw (.condition .emptyTerm)
  else
    try parseTerm cs
    catch
      | .path cause => throw (.condition (.badTerm (String.ofList cs) cause))
      | e => throw e

def compileClause (cs : List Char) : Except Raised (List Term) :=
  (Text.splitAtDoubled '|' cs).mapM fun piece => compileTerm (Text.trim piece)

def compileChars (cs : List Char) : Except Raised Condition := do
  match Text.splitAtDoubled '&' cs with
  | [whole] => return ⟨[← compileClause whole]⟩
  | pieces => return ⟨← pieces.mapM fun piece => compileClause (Text.trim piece)⟩

def compile (expression : String) : Except Raised Condition :=
  if (Text.trim expression.toList).isEmpty then throw (.condition (.notText (.text expression)))
  else compileChars expression.toList

def evaluate (expression : String) (state : Tree) : Except Raised Bool := do
  let condition ← compile expression
  condition.holds state

/-- A term that reads one path, with the handler around it. -/
theorem caught_eq (term : String) (cs : List Char) (f : StatePath → Term) :
    (try f <$> parsePath (String.ofList cs)
    catch
      | .path cause => throw (.condition (.badTerm term cause))
      | e => throw e : Except Raised Term) = (f <$> termPath term cs).mapError .condition := by
  unfold parsePath termPath
  cases StatePath.parse (String.ofList cs) <;> rfl

theorem compileTerm_eq (cs : List Char) : compileTerm cs = (Term.read cs).mapError .condition := by
  cases cs with
  | nil => rfl
  | cons c rest =>
    unfold compileTerm
    simp only [List.isEmpty_cons, Bool.false_eq_true, if_false]
    by_cases hnot : c = '!'
    · subst hnot
      simp only [parseTerm, Term.read, ← map_eq_pure_bind]
      exact caught_eq _ _ .not
    · have hterm : ∀ tail, c :: rest = '!' :: tail → False := fun tail he => hnot (List.cons.inj he).1
      cases hsplit : splitComparison? [] (c :: rest) with
      | none =>
        simp only [parseTerm, Term.read, hsplit, ← map_eq_pure_bind]
        exact caught_eq _ _ .truthy
      | some found =>
        simp only [parseTerm, Term.read, hsplit, ← map_eq_pure_bind]
        exact caught_eq _ _ fun path => .compare path _ _

theorem compileClause_eq (cs : List Char) : compileClause cs = (readClause cs).mapError .condition := by
  unfold compileClause readClause
  simp only [compileTerm_eq, mapM_mapError]

theorem compileChars_eq (cs : List Char) : compileChars cs = (Condition.readChars cs).mapError .condition := by
  unfold compileChars Condition.readChars
  generalize Text.splitAtDoubled '&' cs = pieces
  have hseveral : (return ⟨← pieces.mapM fun piece => compileClause (Text.trim piece)⟩) =
      (return ⟨← pieces.mapM fun piece => readClause (Text.trim piece)⟩ :
        Except ConditionError Condition).mapError .condition := by
    simp only [compileClause_eq, mapM_mapError]
    cases List.mapM (fun piece => readClause (Text.trim piece)) pieces <;> rfl
  rcases pieces with _ | ⟨whole, _ | ⟨second, rest⟩⟩
  · exact hseveral
  · dsimp only
    rw [compileClause_eq]
    cases readClause whole <;> rfl
  · exact hseveral

theorem compile_eq (expression : String) :
    compile expression = (Condition.read expression).mapError .condition := by
  unfold compile Condition.read
  split
  · rfl
  · exact compileChars_eq _

/-! ## Effects -/

def parseOutcome (v : Value) : Except Raised Outcome := (Outcome.ofValue v).mapError EffectError.raised

def validateChance (r : Tree) : Except Raised Chance := (Chance.ofRecord r).toExcept.mapError .invalid

/-- A record that does not pass its checks becomes an error of the effect. -/
def parseEffect : Value → Except Raised Effect
  | .mapping es =>
    try .chance <$> validateChance es
    catch
      | .invalid cause => throw (.effect (.invalidChance cause))
      | e => throw e
  | v => .sure <$> parseOutcome v

def chanceOutcome (k : Chance) : Except Raised Outcome := k.outcome.mapError EffectError.raised

theorem parseEffect_eq (v : Value) : parseEffect v = (Effect.ofValue v).mapError EffectError.raised := by
  cases v with
  | mapping es =>
    simp only [parseEffect, Effect.ofValue, validateChance]
    cases Chance.ofRecord es <;> rfl
  | _ =>
    simp only [parseEffect, Effect.ofValue, parseOutcome]
    cases Outcome.ofValue _ <;> rfl

/-- An entry that can be read, or why it is left out. -/
def readEntry (raw : String) (v : Value) : Except Raised (Except String (StatePath × Effect)) :=
  try
    let path ← parsePath raw
    let effect ← parseEffect v
    pure (.ok (path, effect))
  catch
    | .path cause => pure (.error cause.message)
    | .effect cause => pure (.error cause.message)
    | e => throw e

/-- What a chance comes to when it fires, or why its entry is left out. -/
def readOutcome (k : Chance) : Except Raised (Except String Outcome) :=
  try .ok <$> chanceOutcome k
  catch
    | .effect cause => pure (.error cause.message)
    | e => throw e

def answer (k : Chance) (state : Tree) : Except Raised ConditionAnswer :=
  match k.condition.filter (!·.isEmpty) with
  | none => pure .met
  | some text =>
    try do if ← evaluate text state then pure .met else pure (.unmet text)
    catch
      | .condition cause => pure (.unreadable cause)
      | e => throw e

theorem readEntry_eq (raw : String) (v : Value) :
    readEntry raw v = raise (match StatePath.parse raw with
      | .error cause => .ok (.error cause.message)
      | .ok path =>
        match Effect.ofValue v with
        | .error cause => .error <$> cause.told
        | .ok effect => .ok (.ok (path, effect))) := by
  unfold readEntry parsePath
  rw [parseEffect_eq]
  cases StatePath.parse raw with
  | error cause => rfl
  | ok path =>
    cases Effect.ofValue v with
    | ok effect => rfl
    | error cause => cases cause <;> rfl

theorem readOutcome_eq (k : Chance) :
    readOutcome k = raise (match k.outcome with
      | .error cause => .error <$> cause.told
      | .ok outcome => .ok (.ok outcome)) := by
  unfold readOutcome chanceOutcome
  cases k.outcome with
  | ok outcome => rfl
  | error cause => cases cause <;> rfl

theorem evaluate_eq (expression : String) (state : Tree) :
    evaluate expression state = match Condition.read expression with
      | .error cause => .error (.condition cause)
      | .ok condition => raise (condition.holds state) := by
  unfold evaluate
  rw [compile_eq]
  cases Condition.read expression <;> rfl

theorem answer_eq (k : Chance) (state : Tree) : answer k state = raise (k.answer state) := by
  unfold answer Chance.answer
  cases k.condition.filter (!·.isEmpty) with
  | none => rfl
  | some text =>
    dsimp only
    rw [evaluate_eq]
    cases Condition.read text with
    | error cause => rfl
    | ok condition =>
      dsimp only
      cases condition.holds state with
      | error cause => rfl
      | ok b => cases b <;> rfl

/-! ## Resolutions -/

/-- Steps that take draws and may raise. -/
abbrev RaisingDraws := ExceptT Raised (StateM Draws)

/-- Steps that take draws and can have a fault only. -/
def raiseDrawing {α : Type} (m : Drawing α) : RaisingDraws α := ExceptT.mk (raise <$> m.run)

instance : MonadLift Drawing RaisingDraws := ⟨raiseDrawing⟩

def applyChance (c : Circumstances) (raw : String) (path : StatePath) (k : Chance) (p : Progress) :
    RaisingDraws Progress := do
  match ← answer k c.state with
  | .unreadable cause => return p.skip raw cause.message
  | .unmet text => return p.note s!"{raw}: condition '{text}' not met"
  | .met =>
    let chance ← adjustedProbability (.float (k.probability.add c.bonus.probabilityBonus)) c.luck
    let roll ← Drawing.draw
    if !roll.lt chance then
      return p.note (rollText raw (← placesText roll) ">=" (← placesText chance) ++ ", no effect")
    else
      match ← readOutcome k with
      | .error reason => return p.skip raw reason
      | .ok outcome =>
        let p := p.note (rollText raw (← placesText roll) "<" (← placesText chance) ++ ", fired")
        return (← applyOutcome c path outcome p).addLog k

def applyEntry (c : Circumstances) (raw : String) (v : Value) (p : Progress) : RaisingDraws Progress := do
  match ← readEntry raw v with
  | .error reason => return p.skip raw reason
  | .ok (path, .sure outcome) => applyOutcome c path outcome p
  | .ok (path, .chance k) => applyChance c raw path k p

def applyEntries (c : Circumstances) : Tree → Progress → RaisingDraws Progress
  | [], p => return p
  | (raw, v) :: rest, p => do applyEntries c rest (← applyEntry c raw v p)

def ofEffects (c : Content) (a : Action) (state : Tree) (amplify : Bool) (effects : Tree) :
    RaisingDraws Resolution := do
  let around ← Resolution.circumstances c a state
  let p ← applyEntries around effects Progress.start
  return .ofProgress (← scaleGains state around.bonus.resourceMultiplier amplify p)

def resolve (c : Content) (id : String) (state : Tree) (amplify : Bool) : RaisingDraws Resolution :=
  match c.action? id with
  | none => return .nothing s!"unknown action '{id}', nothing resolved"
  | some a => do
    let tier ← a.tier state
    match tier.effects with
    | none => return .nothing (s!"{id}: no effects defined for level " ++ Gate.levelText tier.level)
    | some effects => ofEffects c a state amplify effects

section

variable {α β : Type}

@[simp] theorem raiseDrawing_pure (a : α) : raiseDrawing (pure a) = pure a := rfl

@[simp] theorem raiseDrawing_bind (m : Drawing α) (f : α → Drawing β) :
    raiseDrawing (m >>= f) = raiseDrawing m >>= fun a => raiseDrawing (f a) := by
  refine ExceptT.ext (StateT.ext fun d => ?_)
  simp only [raiseDrawing, ExceptT.run_mk, ExceptT.run_bind, StateT.run_map, StateT.run_bind]
  rcases m.run.run d with ⟨x, d'⟩
  cases x <;> rfl

@[simp] theorem lift_eq_raise (x : Except Fault α) : (liftM x : RaisingDraws α) = liftM (raise x) := rfl

@[simp] theorem lift_eq_raiseDrawing (m : Drawing α) : (liftM m : RaisingDraws α) = raiseDrawing m := rfl

@[simp] theorem raiseDrawing_lift (x : Except Fault α) :
    raiseDrawing (liftM x) = (liftM (raise x) : RaisingDraws α) := by
  cases x <;> rfl

end

section

variable {c : Circumstances} {raw : String} {path : StatePath}

theorem applyChance_eq (k : Chance) (p : Progress) :
    applyChance c raw path k p = raiseDrawing (SurvivalRules.applyChance c raw path k p) := by
  unfold applyChance SurvivalRules.applyChance
  rw [answer_eq]
  simp only [raiseDrawing_bind, raiseDrawing_lift]
  congr 1
  funext told
  cases told with
  | unreadable cause => rfl
  | unmet text => rfl
  | met =>
    simp only [raiseDrawing_bind, raiseDrawing_lift, lift_eq_raise, lift_eq_raiseDrawing]
    refine bind_congr fun chance => bind_congr fun roll => ?_
    split
    · simp only [raiseDrawing_bind, raiseDrawing_lift, raiseDrawing_pure]
    · rw [readOutcome_eq]
      cases k.outcome with
      | error cause =>
        dsimp only
        cases cause.told <;> rfl
      | ok outcome =>
        simp only [raiseDrawing_bind, raiseDrawing_lift, raiseDrawing_pure]
        rfl

theorem applyEntry_eq (v : Value) (p : Progress) :
    applyEntry c raw v p = raiseDrawing (SurvivalRules.applyEntry c raw v p) := by
  unfold applyEntry SurvivalRules.applyEntry
  rw [readEntry_eq]
  cases StatePath.parse raw with
  | error cause => rfl
  | ok path =>
    cases Effect.ofValue v with
    | error cause =>
      dsimp only
      cases cause.told <;> rfl
    | ok effect =>
      cases effect with
      | sure outcome => rfl
      | chance k => exact applyChance_eq k p

theorem applyEntries_eq (effects : Tree) (p : Progress) :
    applyEntries c effects p = raiseDrawing (SurvivalRules.applyEntries c effects p) := by
  induction effects generalizing p with
  | nil => rfl
  | cons e rest ih =>
    obtain ⟨raw, v⟩ := e
    simp only [applyEntries, SurvivalRules.applyEntries, applyEntry_eq, ih, raiseDrawing_bind]

end

theorem ofEffects_eq (c : Content) (a : Action) (state : Tree) (amplify : Bool) (effects : Tree) :
    ofEffects c a state amplify effects = raiseDrawing (Resolution.ofEffects c a state amplify effects) := by
  unfold ofEffects Resolution.ofEffects
  simp only [applyEntries_eq, raiseDrawing_bind, raiseDrawing_lift, raiseDrawing_pure]
  rfl

theorem resolve_eq (c : Content) (id : String) (state : Tree) (amplify : Bool) :
    resolve c id state amplify = raiseDrawing (SurvivalRules.resolve c id state amplify) := by
  unfold resolve SurvivalRules.resolve
  cases c.action? id with
  | none => rfl
  | some a =>
    simp only [raiseDrawing_bind, raiseDrawing_lift, lift_eq_raise]
    refine bind_congr fun tier => ?_
    cases tier.effects with
    | none => rfl
    | some effects => exact ofEffects_eq c a state amplify effects

end Raising

end SurvivalRules
