import SurvivalRules.Proofs.Store.Atomic

/-!
# Calls

A store in use is called one time after another: to try an action, to let time pass, or to tell something. The
log of the calls with their answers says which actions were done.
-/
namespace SurvivalRules

/-- What a store tells without changing. -/
inductive Query where
  | visible (id : String)
  | executable (id : String)
  | lastCooldown (id : String)
  | snapshot

inductive Call where
  | dispatch (id : String)
  | tick (seconds : Value)
  | read (query : Query)

inductive Reply where
  | verdict (answer : Except StateError Verdict)
  | ready (answer : Except Fault (List String))
  | reading (answer : Except Fault Value)

/-- The action that a call has done, if it has done one. -/
def doneBy? : Call × Reply → Option String
  | (.dispatch id, .verdict (.ok (.performed _))) => some id
  | _ => none

/-- The actions that were done, in their order. -/
def doneIn (log : List (Call × Reply)) : List String := log.filterMap doneBy?

theorem doneIn_concat (log : List (Call × Reply)) (e : Call × Reply) :
    doneIn (log ++ [e]) = doneIn log ++ (doneBy? e).toList := by
  rw [doneIn, List.filterMap_append, ← doneIn]
  cases he : doneBy? e <;> simp [he]

namespace Store

def ask (s : Store) : Query → Except Fault Value
  | .visible id => .bool <$> s.isVisible id
  | .executable id => .bool <$> s.isExecutable id
  | .lastCooldown id => s.lastCooldown id
  | .snapshot => .ok (.mapping s.state)

/-- A tick that fails leaves the store as it is. -/
def call (s : Store) : Call → Reply × Store
  | .dispatch id => (.verdict (s.dispatch id).1, (s.dispatch id).2)
  | .tick seconds =>
    match s.tick seconds with
    | .ok (ids, next) => (.ready (.ok ids), next)
    | .error cause => (.ready (.error cause), s)
  | .read query => (.reading (s.ask query), s)

def calls (s : Store) : List Call → List (Call × Reply) × Store
  | [] => ([], s)
  | c :: rest => ((c, (s.call c).1) :: ((s.call c).2.calls rest).1, ((s.call c).2.calls rest).2)

variable {s : Store}

theorem calls_concat (s : Store) (done : List Call) (c : Call) :
    s.calls (done ++ [c]) = ((s.calls done).1 ++ [(c, ((s.calls done).2.call c).1)],
      ((s.calls done).2.call c).2) := by
  induction done generalizing s with
  | nil => rfl
  | cons first rest ih => simp only [List.cons_append, calls, ih]

/-- What can come of a call: an action is done, time passes, or nothing changes but the draws. -/
inductive Comes (s : Store) : Call × Reply → Store → Prop where
  | performed {id : String} {result : Performed} {s' : Store} :
    s.dispatch id = (.ok (.performed result), s') →
    Comes s (.dispatch id, .verdict (.ok (.performed result))) s'
  | passed {seconds : Value} {ready : List String} {s' : Store} :
    s.tick seconds = .ok (ready, s') → Comes s (.tick seconds, .ready (.ok ready)) s'
  | idle {e : Call × Reply} {d : Draws} : doneBy? e = none → Comes s e (s.withDraws d)

theorem comes_call (s : Store) (c : Call) : s.Comes (c, (s.call c).1) (s.call c).2 := by
  cases c with
  | dispatch id =>
    rcases hdispatch : s.dispatch id with ⟨cause | verdict, s'⟩
    · obtain ⟨d, rfl⟩ := exists_withDraws_of_dispatch_error hdispatch
      rw [call, hdispatch]
      exact .idle rfl
    · cases verdict with
      | rejected reasons =>
        obtain rfl := eq_of_dispatch_rejected hdispatch
        rw [call, hdispatch]
        exact .idle (d := s'.draws) rfl
      | performed result =>
        rw [call, hdispatch]
        exact .performed hdispatch
  | tick seconds =>
    cases htick : s.tick seconds with
    | error cause =>
      simp only [call, htick]
      exact .idle (d := s.draws) rfl
    | ok out =>
      simp only [call, htick]
      exact .passed htick
  | read query => exact .idle (d := s.draws) rfl

/-- What the empty log and the store at the start have, and what no call takes away, all logs have. -/
theorem calls_induction {motive : List (Call × Reply) → Store → Prop} (hnil : motive [] s)
    (hstep : ∀ log t e t', motive log t → t.Comes e t' → motive (log ++ [e]) t') (cs : List Call) :
    motive (s.calls cs).1 (s.calls cs).2 := by
  -- a run grows by its last call
  induction cs using List.reverseRecOn with
  | nil => exact hnil
  | append_singleton done c ih =>
    rw [calls_concat]
    exact hstep _ _ _ _ ih (comes_call _ c)

end Store

end SurvivalRules
