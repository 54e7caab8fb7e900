import SurvivalRules.Proofs.Store.Debt

/-!
# All or nothing

A dispatch and a tick written out as runs that assign one thing after another to what they have in hand. A run
touches the store in one place, its commit; every step that can fail stands before it and leaves the store
alone, so a run that fails leaves the store as it was.
-/
namespace SurvivalRules

open Drawing

/-- A run on a memory. The memory counts as it is where the run stops, be it at an error. -/
abbrev Acting (ε σ α : Type) := ExceptT ε (StateM σ) α

namespace Acting

variable {ε σ β α γ : Type}

def outcome (x : Acting ε σ α) (m : σ) : Except ε α × σ := x.run.run m

/-- A step that does without the memory. -/
def settle (x : Except ε α) : Acting ε σ α := ExceptT.mk (pure x)

theorem outcome_bind_of_ok {x : Acting ε σ α} {m m' : σ} {a : α} (h : x.outcome m = (.ok a, m'))
    (f : α → Acting ε σ γ) : outcome (x >>= f) m = outcome (f a) m' := by
  have hbind : outcome (x >>= f) m = StateT.run (ExceptT.bindCont f (outcome x m).1) (outcome x m).2 := rfl
  rw [hbind, h]
  rfl

theorem outcome_bind_of_error {x : Acting ε σ α} {m m' : σ} {cause : ε}
    (h : x.outcome m = (.error cause, m')) (f : α → Acting ε σ γ) :
    outcome (x >>= f) m = (.error cause, m') := by
  have hbind : outcome (x >>= f) m = StateT.run (ExceptT.bindCont f (outcome x m).1) (outcome x m).2 := rfl
  rw [hbind, h]
  rfl

@[simp] theorem outcome_pure (a : α) (m : σ) : outcome (pure a : Acting ε σ α) m = (.ok a, m) := rfl

@[simp] theorem outcome_settle (x : Except ε α) (m : σ) : outcome (settle x) m = (x, m) := rfl

@[simp] theorem outcome_settle_ok_bind (a : α) (f : α → Acting ε σ γ) (m : σ) :
    outcome (settle (.ok a) >>= f) m = outcome (f a) m := rfl

@[simp] theorem outcome_settle_error_bind (cause : ε) (f : α → Acting ε σ γ) (m : σ) :
    outcome (settle (.error cause) >>= f) m = (.error cause, m) := rfl

@[simp] theorem outcome_get_bind (f : σ → Acting ε σ γ) (m : σ) :
    outcome (get >>= f) m = outcome (f m) m := rfl

@[simp] theorem outcome_modify_bind (g : σ → σ) (f : PUnit → Acting ε σ γ) (m : σ) :
    outcome (modify g >>= f) m = outcome (f ⟨⟩) (g m) := rfl

/-- However the run ends, the view is the same as before. -/
def Keeps (view : σ → β) (x : Acting ε σ α) : Prop := ∀ m, view (x.outcome m).2 = view m

/-- If the run fails, the view is the same as before. -/
def Atomic (view : σ → β) (x : Acting ε σ α) : Prop :=
  ∀ m cause m', x.outcome m = (.error cause, m') → view m' = view m

section

variable {view : σ → β} {x : Acting ε σ α} {f : α → Acting ε σ γ}

theorem keeps_pure (a : α) : Keeps view (pure a : Acting ε σ α) := fun _ => rfl

theorem keeps_settle (y : Except ε α) : Keeps view (settle y) := fun _ => rfl

theorem keeps_get : Keeps view (get : Acting ε σ σ) := fun _ => rfl

theorem keeps_modify {g : σ → σ} (h : ∀ m, view (g m) = view m) :
    Keeps view (modify g : Acting ε σ PUnit) := h

theorem Keeps.bind (hx : Keeps view x) (hf : ∀ a, Keeps view (f a)) : Keeps view (x >>= f) := by
  intro m
  have hm := hx m
  rcases hrun : outcome x m with ⟨cause | a, m₁⟩
  · rw [hrun] at hm
    rw [outcome_bind_of_error hrun]
    exact hm
  · rw [hrun] at hm
    rw [outcome_bind_of_ok hrun]
    exact (hf a m₁).trans hm

theorem Keeps.atomic (hx : Keeps view x) : Atomic view x := by
  intro m cause m' h
  have hm := hx m
  rwa [h] at hm

/-- Steps that keep the view may stand before a run that keeps it when it fails. -/
theorem Keeps.bind_atomic (hx : Keeps view x) (hf : ∀ a, Atomic view (f a)) : Atomic view (x >>= f) := by
  intro m cause m' h
  have hm := hx m
  rcases hrun : outcome x m with ⟨early | a, m₁⟩
  · rw [hrun] at hm
    rw [outcome_bind_of_error hrun] at h
    cases h
    exact hm
  · rw [hrun] at hm
    rw [outcome_bind_of_ok hrun] at h
    exact (hf a m₁ cause m' h).trans hm

/-- Once nothing can fail any more, everything may change. -/
theorem Atomic.bind_of_forall_ok (hx : Atomic view x)
    (hf : ∀ a m, ∃ c m', (f a).outcome m = (.ok c, m')) : Atomic view (x >>= f) := by
  intro m cause m' h
  rcases hrun : outcome x m with ⟨early | a, m₁⟩
  · rw [outcome_bind_of_error hrun] at h
    cases h
    exact hx m cause m' hrun
  · obtain ⟨c, m₂, hok⟩ := hf a m₁
    rw [outcome_bind_of_ok hrun, hok] at h
    cases h

end

end Acting

/-- What a tick has in hand: the store, its copy of the timers and the ids that are ready so far. -/
structure Ticking where
  store : Store
  timers : Tree
  ready : List String

namespace Ticking

def copied (timers : Tree) (m : Ticking) : Ticking := { m with timers := timers, ready := [] }

/-- A timer that ran out leaves the copy. -/
def settled (key : String) (remaining : Amount) (m : Ticking) : Ticking :=
  if remaining.le .zero then
    { m with timers := OrderedMap.erase key m.timers, ready := m.ready ++ [key] }
  else { m with timers := OrderedMap.insert key (.ofAmount remaining) m.timers }

/-- The copy takes the place of the timers. -/
def handedOver (m : Ticking) : Ticking :=
  let state := OrderedMap.insert Section.cooldowns.name (.mapping m.timers) m.store.state
  { m with store := m.store.replace state }

@[simp] theorem store_settled (key : String) (remaining : Amount) (m : Ticking) :
    (m.settled key remaining).store = m.store := by
  unfold settled
  split <;> rfl

end Ticking

namespace Store

open Acting

variable {s s' : Store} {id : String} {seconds : Amount}

/-- A step that takes its draws from the store. -/
def drawing {α : Type} (x : Drawing α) : Acting StateError Store α :=
  fun s => (liftFault (Drawing.runFrom x s.draws).1, s.withDraws (Drawing.runFrom x s.draws).2)

/-- Hands over the new state, reads the clock and tells everyone who listens. -/
def settleCommit (id : String) (state delta : Tree) : Acting StateError Store Unit := do
  modify fun s => s.replace (committed state delta)
  modify fun s => { s with clock := s.clock + 1 }
  modify fun s => { s with heard := s.heard ++ [(id, s.clock)] }

/-- Does an action that is admitted, one step after another. -/
def performing (id : String) (cooldown : Binary64) : Acting StateError Store Performed := do
  let s ← get
  let r ← drawing (resolve s.content id s.state s.amplify)
  let delta ← settle (recordAll s.state r.delta (bookkeeping id cooldown))
  settleCommit id s.state delta
  return performedOf cooldown r

/-- Tries an action, one step after another. -/
def dispatching (id : String) : Acting StateError Store Verdict := do
  let s ← get
  if ← settle (liftFault (Gate.isExecutable s.content id s.state)) then
    let cooldown ← settle (liftFault (Gate.effectiveCooldown s.content id s.state))
    return .performed (← performing id cooldown)
  else
    return .rejected (← settle (liftFault (Gate.unmetRequirements s.content id s.state)))

/-- What is left of a timer. -/
def leftOf (seconds : Amount) (timer : Value) : Except Fault Amount :=
  match timer.numeric? with
  | none => .error .illTyped
  | some timer => timer.sub seconds

def takeFrom (seconds : Amount) (key : String) (timer : Value) : Acting Fault Ticking Unit := do
  let remaining ← settle (leftOf seconds timer)
  modify (Ticking.settled key remaining)

def takeAll (seconds : Amount) : Tree → Acting Fault Ticking Unit
  | [] => pure ()
  | (key, timer) :: rest => do
    takeFrom seconds key timer
    takeAll seconds rest

/-- Lets time pass, one step after another. -/
def ticking (seconds : Value) : Acting Fault Ticking (List String) :=
  match seconds.numeric? with
  | none => settle (.error .illTyped)
  | some t =>
    if t.le .zero then return []
    else do
      let m ← get
      let timers ← settle (timersOf (m.store.state.lookup Section.cooldowns.name))
      modify (Ticking.copied timers)
      takeAll t timers
      modify Ticking.handedOver
      let m ← get
      return m.ready

/-- Everything about a store but its draws. -/
def apartFromDraws (s : Store) : Store := s.withDraws zeroDraws

theorem exists_eq_withDraws (h : s'.apartFromDraws = s.apartFromDraws) : ∃ d, s' = s.withDraws d := by
  refine ⟨s'.draws, ?_⟩
  cases s
  cases s'
  cases h
  rfl

@[simp] theorem liftFault_ok {α : Type} (a : α) : liftFault (.ok a) = .ok a := rfl

@[simp] theorem liftFault_error {α : Type} (cause : Fault) :
    liftFault (.error cause : Except Fault α) = .error (.fault cause) := rfl

theorem outcome_drawing {α : Type} (x : Drawing α) (s : Store) :
    (drawing x).outcome s =
      (liftFault (Drawing.runFrom x s.draws).1, s.withDraws (Drawing.runFrom x s.draws).2) := rfl

theorem keeps_drawing {α : Type} (x : Drawing α) : Keeps apartFromDraws (drawing x) := fun _ => rfl

/-- What can fail while an action is done stands before the commit. -/
theorem atomic_performing (id : String) (cooldown : Binary64) :
    Atomic apartFromDraws (performing id cooldown) := by
  refine keeps_get.bind_atomic fun s => (keeps_drawing _).bind_atomic fun r => ?_
  exact (keeps_settle _).atomic.bind_of_forall_ok fun delta m => ⟨_, _, rfl⟩

theorem atomic_dispatching (id : String) : Atomic apartFromDraws (dispatching id) := by
  refine keeps_get.bind_atomic fun s => (keeps_settle _).bind_atomic fun executable => ?_
  split
  · refine (keeps_settle _).bind_atomic fun cooldown => ?_
    exact (atomic_performing id cooldown).bind_of_forall_ok fun result m => ⟨_, _, rfl⟩
  · exact (keeps_settle _).bind_atomic fun reasons => (keeps_pure _).atomic

theorem outcome_performing (s : Store) (id : String) (cooldown : Binary64) :
    (performing id cooldown).outcome s = s.perform id cooldown := by
  rw [performing, outcome_get_bind]
  rcases hrun : Drawing.runFrom (resolve s.content id s.state s.amplify) s.draws with ⟨cause | r, d⟩
  · have hdrawing : (drawing (resolve s.content id s.state s.amplify)).outcome s =
        (.error (.fault cause), s.withDraws d) := by
      rw [outcome_drawing, hrun, liftFault_error]
    rw [outcome_bind_of_error hdrawing, perform_of_fails hrun]
  · have hdrawing : (drawing (resolve s.content id s.state s.amplify)).outcome s =
        (.ok r, s.withDraws d) := by
      rw [outcome_drawing, hrun, liftFault_ok]
    rw [outcome_bind_of_ok hdrawing]
    cases hrecord : recordAll s.state r.delta (bookkeeping id cooldown) with
    | error cause =>
      have hcommit : (s.withDraws d).commit id cooldown r = .error cause := by
        simp only [commit, withDraws, hrecord, bind, Except.bind]
      rw [perform_of_commit_error hrun hcommit]
      rfl
    | ok delta =>
      have hcommit : (s.withDraws d).commit id cooldown r = .ok { s with
          state := committed s.state delta
          draws := d
          clock := s.clock + 1
          heard := s.heard ++ [(id, s.clock + 1)] } := by
        simp only [commit, withDraws, hrecord, bind, Except.bind]
        rfl
      rw [perform_of_commit hrun hcommit]
      rfl

theorem outcome_dispatching (s : Store) (id : String) :
    (dispatching id).outcome s = s.dispatch id := by
  rw [dispatching, outcome_get_bind]
  cases hexec : Gate.isExecutable s.content id s.state with
  | error cause =>
    have hadmission : s.admission id = .error cause := by
      simp only [admission, hexec, bind, Except.bind]
    rw [dispatch, hadmission]
    rfl
  | ok executable =>
    rw [liftFault_ok, outcome_settle_ok_bind]
    cases executable with
    | false =>
      rw [dispatch_of_not_executable hexec, refusal]
      cases Gate.unmetRequirements s.content id s.state <;> rfl
    | true =>
      rw [if_pos rfl]
      cases hcooldown : Gate.effectiveCooldown s.content id s.state with
      | error cause =>
        have hadmission : s.admission id = .error cause := by
          simp only [admission, hexec, hcooldown, bind, Except.bind, if_true]
        rw [dispatch, hadmission]
        rfl
      | ok cooldown =>
        rw [liftFault_ok, outcome_settle_ok_bind, dispatch_of_executable hexec hcooldown]
        have hperform := outcome_performing s id cooldown
        rcases hrun : s.perform id cooldown with ⟨cause | result, next⟩
        · rw [hrun] at hperform
          rw [outcome_bind_of_error hperform]
          rfl
        · rw [hrun] at hperform
          rw [outcome_bind_of_ok hperform]
          rfl

/-- A dispatch that fails changes nothing but the draws. -/
theorem exists_withDraws_of_dispatch_error {cause : StateError} (h : s.dispatch id = (.error cause, s')) :
    ∃ d, s' = s.withDraws d := by
  rw [← outcome_dispatching] at h
  exact exists_eq_withDraws (atomic_dispatching id s cause s' h)

theorem eq_of_dispatch_rejected {reasons : List String}
    (h : s.dispatch id = (.ok (.rejected reasons), s')) : s' = s := by
  unfold dispatch at h
  split at h
  · cases h
  · cases h
    rfl
  next cooldown hadmission =>
    have hanswer := congrArg Prod.fst h
    dsimp only at hanswer
    cases hperform : (s.perform id cooldown).1 <;> rw [hperform] at hanswer <;> cases hanswer

/-- What a dispatch that is done changes, all of it. -/
structure CommittedAs (s : Store) (id : String) (result : Performed) (s' : Store) : Prop where
  executable : s.isExecutable id = .ok true
  cooldown : Gate.effectiveCooldown s.content id s.state = .ok result.cooldown
  /-- The effects were resolved against the old state, the writes of the store itself went into their
  delta, and the new state is the old one with all of this. -/
  whole : ∃ r d delta, Returns (resolve s.content id s.state s.amplify) s.draws r d ∧
    recordAll s.state r.delta (bookkeeping id result.cooldown) = .ok delta ∧
    result = performedOf result.cooldown r ∧
    s' = { s with
      state := committed s.state delta
      draws := d
      clock := s.clock + 1
      heard := s.heard ++ [(id, s.clock + 1)] }

theorem committedAs_of_dispatch {result : Performed}
    (h : s.dispatch id = (.ok (.performed result), s')) : s.CommittedAs id result s' := by
  obtain ⟨hexec, cooldown, r, d, hcooldown, hreturns, hcommit, rfl⟩ := dispatch_performed_spec h
  obtain ⟨delta, hrecord, hlast⟩ := bind_eq_ok_iff.mp hcommit
  exact ⟨hexec, hcooldown, r, d, delta, hreturns, hrecord, rfl, (pure_eq_ok_iff.mp hlast).symm⟩

theorem elapse_eq_bind (seconds : Amount) (key : String) (timer : Value) (rest : Tree) :
    elapse seconds ((key, timer) :: rest) = leftOf seconds timer >>= fun remaining =>
      (elapse seconds rest).map fun out =>
        if remaining.le .zero then (out.1, key :: out.2)
        else ((key, .ofAmount remaining) :: out.1, out.2) := by
  rw [elapse, leftOf]
  cases timer.numeric? with
  | none => rfl
  | some x =>
    cases x.sub seconds with
    | error cause => rfl
    | ok remaining => cases elapse seconds rest <;> rfl

/-- One entry changes the copy of the timers and the list of ids, not the store. -/
theorem keeps_takeFrom (seconds : Amount) (key : String) (timer : Value) :
    Keeps Ticking.store (takeFrom seconds key timer) :=
  (keeps_settle _).bind fun remaining => keeps_modify (Ticking.store_settled key remaining)

theorem keeps_takeAll (seconds : Amount) (timers : Tree) : Keeps Ticking.store (takeAll seconds timers) := by
  induction timers with
  | nil => exact keeps_pure _
  | cons e rest ih => exact (keeps_takeFrom seconds e.1 e.2).bind fun _ => ih

/-- The copy of the timers is handed over when nothing can fail any more. -/
theorem atomic_ticking (seconds : Value) : Atomic Ticking.store (ticking seconds) := by
  unfold ticking
  split
  · exact (keeps_settle _).atomic
  · split
    · exact (keeps_pure _).atomic
    next t _ _ =>
      refine keeps_get.bind_atomic fun m => (keeps_settle _).bind_atomic fun timers => ?_
      have hcopied : Keeps Ticking.store (modify (Ticking.copied timers) : Acting Fault Ticking PUnit) :=
        keeps_modify fun _ => rfl
      refine hcopied.bind_atomic fun _ => ?_
      exact (keeps_takeAll t timers).atomic.bind_of_forall_ok fun _ _ => ⟨_, _, rfl⟩

theorem takeAll_cons_of_error {key : String} {timer : Value} {cause : Fault}
    (h : leftOf seconds timer = .error cause) (rest : Tree) (m : Ticking) :
    (takeAll seconds ((key, timer) :: rest)).outcome m = (.error cause, m) := by
  rw [takeAll, takeFrom, h]
  rfl

theorem takeAll_cons_of_ok {key : String} {timer : Value} {remaining : Amount}
    (h : leftOf seconds timer = .ok remaining) (rest : Tree) (m : Ticking) :
    (takeAll seconds ((key, timer) :: rest)).outcome m =
      (takeAll seconds rest).outcome (m.settled key remaining) := by
  rw [takeAll, takeFrom, h]
  rfl

/-- The entries fail as their subtractions do, whatever the copy holds. -/
theorem answer_takeAll (seconds : Amount) (timers : Tree) (m : Ticking) :
    ((takeAll seconds timers).outcome m).1 = (elapse seconds timers).map fun _ => () := by
  induction timers generalizing m with
  | nil => rfl
  | cons e rest ih =>
    obtain ⟨key, timer⟩ := e
    rw [elapse_eq_bind]
    cases h : leftOf seconds timer with
    | error cause =>
      rw [takeAll_cons_of_error h]
      rfl
    | ok remaining =>
      rw [takeAll_cons_of_ok h, ih]
      cases elapse seconds rest <;> rfl

/-- Behind the entries that are done, the copy is as the mapping was. -/
theorem outcome_takeAll_append (s : Store) (done back : Tree) (ready : List String)
    {front running : Tree} {more : List String}
    (hnodup : (OrderedMap.keys (done ++ (front ++ back))).Nodup)
    (h : elapse seconds front = .ok (running, more)) :
    (takeAll seconds (front ++ back)).outcome ⟨s, done ++ (front ++ back), ready⟩ =
      (takeAll seconds back).outcome ⟨s, done ++ (running ++ back), ready ++ more⟩ := by
  induction front generalizing done running ready more with
  | nil =>
    cases h
    simp
  | cons e rest ih =>
    obtain ⟨key, timer⟩ := e
    rw [elapse_eq_bind] at h
    obtain ⟨remaining, hleft, h⟩ := bind_eq_ok_iff.mp h
    cases hrest : elapse seconds rest with
    | error cause =>
      rw [hrest] at h
      cases h
    | ok out =>
      obtain ⟨kept, ready'⟩ := out
      rw [hrest] at h
      simp only [Except.map, Except.ok.injEq] at h
      simp only [List.cons_append, OrderedMap.keys_append, OrderedMap.keys_cons] at hnodup
      have hmid := List.nodup_middle.mp hnodup
      rw [List.nodup_cons, List.mem_append, not_or] at hmid
      obtain ⟨⟨hdone, hback⟩, hothers⟩ := hmid
      rw [List.cons_append, takeAll_cons_of_ok hleft, Ticking.settled]
      split
      next hout =>
        rw [if_pos hout] at h
        cases h
        dsimp only
        rw [OrderedMap.erase_append_cons hdone (by simpa using hback),
          ih done (ready ++ [key]) (by simpa using hothers) hrest]
        simp
      next hrunning =>
        rw [if_neg hrunning] at h
        cases h
        dsimp only
        rw [OrderedMap.insert_append_of_not_mem hdone]
        have hsplit : done ++ OrderedMap.insert key (.ofAmount remaining) ((key, timer) :: (rest ++ back)) =
          (done ++ [(key, .ofAmount remaining)]) ++ (rest ++ back) := by simp [OrderedMap.insert]
        rw [hsplit, ih (done ++ [(key, Value.ofAmount remaining)]) ready (by simpa using hnodup) hrest]
        simp

/-- How the steps of a tick end. -/
def ticked (s : Store) (seconds : Value) : Except Fault (List String) × Ticking :=
  (ticking seconds).outcome ⟨s, [], []⟩

/-- No two running timers have one name. -/
def NamedOnce (s : Store) : Prop :=
  ∀ timers, timersOf (s.state.lookup Section.cooldowns.name) = .ok timers →
    (OrderedMap.keys timers).Nodup

section

variable {v : Value} {timers : Tree}

theorem ticked_of_error {cause : Fault} {m : Ticking} (hv : v.numeric? = some seconds)
    (hpos : seconds.le .zero = false)
    (htimers : timersOf (s.state.lookup Section.cooldowns.name) = .ok timers)
    (h : (takeAll seconds timers).outcome ⟨s, timers, []⟩ = (.error cause, m)) :
    s.ticked v = (.error cause, m) := by
  rw [ticked, ticking, hv]
  simp only [hpos, Bool.false_eq_true, if_false, outcome_get_bind, htimers, outcome_settle_ok_bind,
    outcome_modify_bind, Ticking.copied]
  rw [outcome_bind_of_error h]

theorem ticked_of_ok {m : Ticking} (hv : v.numeric? = some seconds) (hpos : seconds.le .zero = false)
    (htimers : timersOf (s.state.lookup Section.cooldowns.name) = .ok timers)
    (h : (takeAll seconds timers).outcome ⟨s, timers, []⟩ = (.ok (), m)) :
    s.ticked v = (.ok m.ready, m.handedOver) := by
  rw [ticked, ticking, hv]
  simp only [hpos, Bool.false_eq_true, if_false, outcome_get_bind, htimers, outcome_settle_ok_bind,
    outcome_modify_bind, Ticking.copied]
  rw [outcome_bind_of_ok h]
  rfl

theorem tick_eq_map (hv : v.numeric? = some seconds) (hpos : seconds.le .zero = false)
    (htimers : timersOf (s.state.lookup Section.cooldowns.name) = .ok timers) :
    s.tick v = (elapse seconds timers).map fun out =>
      (out.2, (Ticking.mk s out.1 out.2).handedOver.store) := by
  simp only [tick, hv, advance, hpos, Bool.false_eq_true, if_false, htimers, bind, Except.bind]
  cases elapse seconds timers <;> rfl

/-- A tick either ends before it comes to the timers or goes through them. -/
theorem tick_cases (s : Store) (v : Value) :
    (∃ answer, s.ticked v = (answer, ⟨s, [], []⟩) ∧ s.tick v = answer.map fun ready => (ready, s)) ∨
      ∃ seconds timers, v.numeric? = some seconds ∧ seconds.le .zero = false ∧
        timersOf (s.state.lookup Section.cooldowns.name) = .ok timers := by
  cases hv : v.numeric? with
  | none =>
    refine Or.inl ⟨.error .illTyped, ?_, ?_⟩
    · simp only [ticked, ticking, hv, outcome_settle]
    · simp only [tick, hv, Except.map]
  | some seconds =>
    cases hpos : seconds.le .zero with
    | true =>
      refine Or.inl ⟨.ok [], ?_, ?_⟩
      · simp only [ticked, ticking, hv, hpos, if_true, outcome_pure]
      · simp only [tick, hv, advance_of_le_zero s hpos, Except.map]
    | false =>
      cases htimers : timersOf (s.state.lookup Section.cooldowns.name) with
      | error cause =>
        refine Or.inl ⟨.error cause, ?_, ?_⟩
        · simp only [ticked, ticking, hv, hpos, Bool.false_eq_true, if_false, outcome_get_bind, htimers,
            outcome_settle_error_bind]
        · simp only [tick, hv, advance, hpos, Bool.false_eq_true, if_false, htimers, bind, Except.bind,
            Except.map]
      | ok timers => exact Or.inr ⟨seconds, timers, rfl, hpos, rfl⟩

/-- A tick and its steps fail in the same cases and with the same cause. -/
theorem tick_eq_error_iff {cause : Fault} :
    s.tick v = .error cause ↔ ∃ m, s.ticked v = (.error cause, m) := by
  rcases tick_cases s v with ⟨answer, hticked, htick⟩ | ⟨seconds, timers, hv, hpos, htimers⟩
  · rw [hticked, htick]
    cases answer <;> simp [Except.map]
  · have hanswer := answer_takeAll seconds timers ⟨s, timers, []⟩
    rw [tick_eq_map hv hpos htimers]
    rcases hrun : (takeAll seconds timers).outcome ⟨s, timers, []⟩ with ⟨early | done, m⟩
    · rw [ticked_of_error hv hpos htimers hrun]
      rw [hrun] at hanswer
      cases helapse : elapse seconds timers <;> rw [helapse] at hanswer <;> cases hanswer
      simp [Except.map]
    · rw [ticked_of_ok hv hpos htimers hrun]
      rw [hrun] at hanswer
      cases helapse : elapse seconds timers <;> rw [helapse] at hanswer <;> cases hanswer
      simp [Except.map]

/-- Where the timers have different names, the steps of a tick that passes give its answer and its store. -/
theorem exists_ticked_of_tick {ready : List String} (hnames : s.NamedOnce)
    (h : s.tick v = .ok (ready, s')) : ∃ m, s.ticked v = (.ok ready, m) ∧ m.store = s' := by
  rcases tick_cases s v with ⟨answer, hticked, htick⟩ | ⟨seconds, timers, hv, hpos, htimers⟩
  · rw [h] at htick
    cases answer with
    | error cause => cases htick
    | ok ready₀ =>
      cases htick
      exact ⟨_, hticked, rfl⟩
  · rw [tick_eq_map hv hpos htimers] at h
    cases helapse : elapse seconds timers with
    | error cause =>
      rw [helapse] at h
      cases h
    | ok out =>
      rw [helapse] at h
      cases h
      have hrun := outcome_takeAll_append s [] [] [] (by simpa using hnames timers htimers) helapse
      simp only [List.nil_append, List.append_nil, takeAll, outcome_pure] at hrun
      exact ⟨_, ticked_of_ok hv hpos htimers hrun, rfl⟩

/-- The steps of a tick that fails at an entry have been through the entries before it. -/
theorem ticked_midway {front back running : Tree} {e : String × Value} {ready : List String} {cause : Fault}
    (hv : v.numeric? = some seconds) (hpos : seconds.le .zero = false)
    (htimers : timersOf (s.state.lookup Section.cooldowns.name) = .ok (front ++ e :: back))
    (hnames : s.NamedOnce) (hfront : elapse seconds front = .ok (running, ready))
    (he : leftOf seconds e.2 = .error cause) :
    s.ticked v = (.error cause, ⟨s, running ++ e :: back, ready⟩) := by
  have hrun := outcome_takeAll_append s [] (e :: back) [] (by simpa using hnames _ htimers) hfront
  rw [takeAll_cons_of_error he] at hrun
  exact ticked_of_error hv hpos htimers hrun

theorem tick_frame {ready : List String} (h : s.tick v = .ok (ready, s')) :
    ∃ state, s' = s.replace state ∧
      ∀ k, k ≠ Section.cooldowns.name → state.lookup k = s.state.lookup k := by
  have hothers := fun k (hk : k ≠ Section.cooldowns.name) => lookup_tick_of_ne hk h
  rcases tick_cases s v with ⟨answer, -, htick⟩ | ⟨seconds, timers, hv, hpos, htimers⟩
  · rw [h] at htick
    cases answer <;> cases htick
    exact ⟨s.state, rfl, hothers⟩
  · rw [tick_eq_map hv hpos htimers] at h
    cases helapse : elapse seconds timers <;> rw [helapse] at h <;> cases h
    exact ⟨_, rfl, hothers⟩

end

/-- A dispatch commits whole or leaves the store as it was. -/
structure DispatchAtomic (s : Store) (id : String) : Prop where
  stepwise : (dispatching id).outcome s = s.dispatch id
  rejected : ∀ reasons s', s.dispatch id = (.ok (.rejected reasons), s') → s' = s
  failed : ∀ cause s', s.dispatch id = (.error cause, s') → ∃ d, s' = s.withDraws d
  performed : ∀ result s', s.dispatch id = (.ok (.performed result), s') → s.CommittedAs id result s'

/-- A tick commits whole or leaves the store as it was, also where it fails in the middle of the timers. -/
structure TickAtomic (s : Store) (v : Value) : Prop where
  failed : ∀ cause m, s.ticked v = (.error cause, m) → m.store = s
  answers : ∀ cause, s.tick v = .error cause ↔ ∃ m, s.ticked v = (.error cause, m)
  served : ∀ cause, s.tick v = .error cause → s.serve (.tick v) = s
  midway : s.NamedOnce → ∀ seconds front e back running ready cause, v.numeric? = some seconds →
    seconds.le .zero = false →
    timersOf (s.state.lookup Section.cooldowns.name) = .ok (front ++ e :: back) →
    elapse seconds front = .ok (running, ready) → leftOf seconds e.2 = .error cause →
    s.ticked v = (.error cause, ⟨s, running ++ e :: back, ready⟩)
  passed : ∀ ready s', s.tick v = .ok (ready, s') → ∃ state, s' = s.replace state ∧
    ∀ k, k ≠ Section.cooldowns.name → state.lookup k = s.state.lookup k
  stepwise : s.NamedOnce → ∀ ready s', s.tick v = .ok (ready, s') →
    ∃ m, s.ticked v = (.ok ready, m) ∧ m.store = s'

/-- Whatever the content, the state, the draws, the id and the time, a store commits whole or changes
nothing: a dispatch that is rejected leaves the store as it is, one that fails at any step takes at most draws,
and a tick that fails, be it behind timers that it has already been through, leaves the store as it is. -/
theorem operations_commit_whole (s : Store) (id : String) (v : Value) :
    s.DispatchAtomic id ∧ s.TickAtomic v := by
  refine ⟨⟨outcome_dispatching s id, fun _ _ => eq_of_dispatch_rejected,
    fun _ _ => exists_withDraws_of_dispatch_error, fun _ _ => committedAs_of_dispatch⟩, ?_⟩
  exact {
    failed := fun cause m => atomic_ticking v _ cause m
    answers := fun cause => tick_eq_error_iff
    served := by
      intro cause h
      simp only [serve, h]
    midway := fun hnames seconds front e back running ready cause hv hpos htimers hfront he =>
      ticked_midway hv hpos htimers hnames hfront he
    passed := fun _ _ => tick_frame
    stepwise := fun hnames _ _ => exists_ticked_of_tick hnames }

/-- Digs up between one and six of the gold. -/
def dig : Action where
  id := "dig here"
  label := "Dig"
  description := ""
  category := none
  statsEffects := []
  craftingCostReduction := Binary64.zero
  buildingCostReduction := Binary64.zero
  plan := .flat ⟨some [], [], [("resources.gold", .text "random(1,6)")], Binary64.zero⟩

/-- An action whose id is no part of a path, and a timer that is no number behind two that are. -/
def digger : Store :=
  start ⟨[("dig here", dig)], [], [], []⟩
    [("cooldowns", .mapping [("rest", .int 1), ("fish", .int 5), ("camp", .text "soon"), ("hunt", .int 2)])]
    zeroDraws false

theorem digger_namedOnce : digger.NamedOnce := by
  intro timers h
  cases h
  decide

theorem digger_is_left_alone :
    (∃ d, digger.dispatch "dig here" =
      (.error (.path (.badSegment "story.seen.actionDig here" "actionDig here")), digger.withDraws d)) ∧
      (digger.dispatch "pray").2 = digger ∧
      digger.ticked (.int 2) = (.error .illTyped,
        ⟨digger, [("fish", .int 3), ("camp", .text "soon"), ("hunt", .int 2)], ["rest"]⟩) := by
  have hdig : (digger.dispatch "dig here").1 =
      .error (.path (.badSegment "story.seen.actionDig here" "actionDig here")) := by decide +kernel
  have hpray : (digger.dispatch "pray").1 = .ok (.rejected ["unknown action 'pray'"]) := by decide +kernel
  obtain ⟨hdispatch, htick⟩ := operations_commit_whole digger "dig here" (.int 2)
  obtain ⟨d, hd⟩ := hdispatch.failed _ _ (Prod.ext hdig rfl)
  refine ⟨⟨d, Prod.ext hdig hd⟩, ?_, ?_⟩
  · exact (operations_commit_whole digger "pray" (.int 2)).1.rejected _ _ (Prod.ext hpray rfl)
  · have hfront : elapse (.int 2) [("rest", .int 1), ("fish", .int 5)] =
        .ok ([("fish", .int 3)], ["rest"]) := by decide +kernel
    exact htick.midway digger_namedOnce (.int 2) _ ("camp", .text "soon") [("hunt", .int 2)] _ _ _ rfl
      (by decide +kernel) rfl hfront rfl

end Store

end SurvivalRules
