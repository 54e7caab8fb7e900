import SurvivalRules.Draws.Twister
import SurvivalRules.Value.Printer

/-!
# Sources of draws

Draws are numbers from zero up to but not including one. They are replayed from a list, over and over,
or they come from the seeded generator.
-/
namespace SurvivalRules

def isDraw (a : Amount) : Bool := Amount.zero.le a && a.lt (.int 1)

/-- Whether a value is a draw; a truth value counts as a number. -/
def Value.isDraw (v : Value) : Bool := v.numeric?.any SurvivalRules.isDraw

/-- The number that a draw is. -/
def Value.drawn (v : Value) : Amount := v.numeric?.getD .zero

theorem Value.isDraw_drawn {v : Value} (h : v.isDraw = true) :
    SurvivalRules.isDraw v.drawn = true := by
  unfold Value.isDraw at h
  unfold Value.drawn
  cases hv : v.numeric? with
  | none => simp [hv] at h
  | some a => simpa [hv] using h

inductive DrawError where
  | none
  | outside (found : Value)
  | illTyped
  deriving DecidableEq

def DrawError.message : DrawError → String
  | .none => "SequenceRandom needs at least one value"
  | .outside found => "draws must be within [0, 1), got " ++ found.describe
  | .illTyped => ""

/-- A list of draws and how many have been taken. -/
structure Replay where
  values : List Value
  calls : Nat
  values_ne_nil : values ≠ []
  isDraw_of_mem : ∀ v ∈ values, v.isDraw
  deriving DecidableEq

namespace Replay

/-- The first value that is no draw decides the error. -/
def firstError? : List Value → Option DrawError
  | [] => none
  | v :: rest =>
    if v.isDraw then firstError? rest
    else if v.numeric?.isSome then some (.outside v)
    else some .illTyped

theorem isDraw_of_firstError?_eq_none {vs : List Value} (h : firstError? vs = none) :
    ∀ v ∈ vs, v.isDraw := by
  induction vs with
  | nil => simp
  | cons v rest ih =>
    unfold firstError? at h
    split at h
    · next hv => exact List.forall_mem_cons.2 ⟨hv, ih h⟩
    · split at h <;> cases h

def ofValues (vs : List Value) : Except DrawError Replay :=
  if hne : vs = [] then .error .none
  else
    match h : firstError? vs with
    | some cause => .error cause
    | none => .ok ⟨vs, 0, hne, isDraw_of_firstError?_eq_none h⟩

/-- The list starts again when it is used up. -/
def nextValue (r : Replay) : Value × Replay :=
  have h : r.calls % r.values.length < r.values.length :=
    Nat.mod_lt _ (List.length_pos_iff.2 r.values_ne_nil)
  (r.values[r.calls % r.values.length], { r with calls := r.calls + 1 })

theorem isDraw_nextValue (r : Replay) : r.nextValue.1.isDraw :=
  r.isDraw_of_mem _ (List.getElem_mem _)

end Replay

inductive Draws where
  | replay (r : Replay)
  | seeded (t : Twister)
  deriving DecidableEq

namespace Draws

/-- The next draw as it is given. -/
def nextValue : Draws → Value × Draws
  | .replay r => let (v, r) := r.nextValue; (v, .replay r)
  | .seeded t => let (x, t) := t.next; (.float x, .seeded t)

def next (d : Draws) : Amount × Draws :=
  let (v, d) := d.nextValue
  (v.drawn, d)

/-- The number of draws taken; the seeded generator does not count. -/
def calls? : Draws → Option Nat
  | .replay r => some r.calls
  | .seeded _ => none

/-- The next `n` draws as they are given. -/
def take : Nat → Draws → List Value × Draws
  | 0, d => ([], d)
  | n + 1, d =>
    let (v, d) := d.nextValue
    let (more, d) := take n d
    (v :: more, d)

def defaultSeed : Int := 12345

def ofSeed (seed : Option Int) : Draws := .seeded (Twister.ofSeed (seed.getD defaultSeed))

end Draws

end SurvivalRules
