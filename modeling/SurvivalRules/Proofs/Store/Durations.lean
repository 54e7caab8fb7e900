import SurvivalRules.Proofs.Numeric.Order
import SurvivalRules.Proofs.Store.Calls
import SurvivalRules.Proofs.Store.Elapse
import SurvivalRules.Proofs.Store.Lockout

/-!
# Timers stay inside their durations

A commit starts a timer together with the length that is kept of it, and time that passes shortens the timer
alone. So no timer is longer than what is kept of it, and none has run out. The one time that spoils this is an
infinite one that passes while an infinite timer runs: what is left of that timer is not-a-number.
-/
namespace SurvivalRules

open Drawing

namespace Store

variable {c : Content} {s s' : Store} {id : String} {log : List (Call × Reply)}

/-- A timer is that of an action that was done, has time left, and no more than is kept as the length of that
cooldown. -/
structure TimerWithin (log : List (Call × Reply)) (s : Store) (e : String × Value) (left cooldown : Binary64) :
    Prop where
  timer : e.2 = .float left
  done : e.1 ∈ doneIn log
  running : Amount.zero.lt (.float left) = true
  length : OrderedMap.get? e.1 (s.state.lookup "cooldownDurations").entries = some (.float cooldown)
  le : (Amount.float left).le (.float cooldown) = true

def TimersWithin (log : List (Call × Reply)) (s : Store) : Prop :=
  ∀ e ∈ s.timers, ∃ left cooldown, s.TimerWithin log e left cooldown

/-- Infinite time passes while an infinite timer runs. -/
def PassesForever (s : Store) (call : Call) : Prop :=
  call = .tick (.float (.infinity false)) ∧ ∃ e ∈ s.timers, e.2 = .float (.infinity false)

theorem eq_float_of_numeric? {v : Value} {x : Binary64} (h : v.numeric? = some (.float x)) :
    v = .float x := by
  cases v <;> simp_all [Value.numeric?, Value.amount?]

theorem TimerWithin.later {log' : List (Call × Reply)} {e : String × Value} {left cooldown : Binary64}
    (h : s.TimerWithin log e left cooldown) (hdone : doneIn log ⊆ doneIn log')
    (hlength : OrderedMap.get? e.1 (s'.state.lookup "cooldownDurations").entries =
      OrderedMap.get? e.1 (s.state.lookup "cooldownDurations").entries) :
    s'.TimerWithin log' e left cooldown :=
  ⟨h.timer, hdone h.done, h.running, hlength.trans h.length, h.le⟩

theorem entries_started (id : String) (cooldown : Binary64) (v : Value) : (started id cooldown v).entries =
    if Amount.zero.lt (.float cooldown) then OrderedMap.insert id (.float cooldown) v.entries
    else v.entries := by
  unfold started
  split <;> rfl

/-- The timer of the action that is done starts at its full length, and the others stay. -/
theorem TimersWithin.performed (h : s.TimersWithin log) (hs : s.Timed) (hc : s.content.TimersApart)
    {result : Performed} (hdone : s.dispatch id = (.ok (.performed result), s')) :
    s'.TimersWithin (log ++ [(.dispatch id, .verdict (.ok (.performed result)))]) := by
  have hlog : doneIn (log ++ [(.dispatch id, .verdict (.ok (.performed result)))]) = doneIn log ++ [id] :=
    doneIn_concat _ _
  have hlater := hlog ▸ List.subset_append_left (doneIn log) [id]
  have htimers := congrArg Value.entries (lookup_dispatch_performed hs hc hdone (Or.inl rfl))
  have hlengths := congrArg Value.entries (lookup_dispatch_performed hs hc hdone (Or.inr rfl))
  rw [entries_started] at htimers hlengths
  intro e he
  by_cases hlt : Amount.zero.lt (.float result.cooldown) = true
  · rw [if_pos hlt] at htimers hlengths
    by_cases hid : e.1 = id
    · have hown := OrderedMap.get?_of_mem ((timed_dispatch_performed hs hc hdone).1.distinct "cooldowns") he
      rw [htimers, hid, OrderedMap.get?_insert_self] at hown
      refine ⟨result.cooldown, result.cooldown, (Option.some.inj hown).symm, by simp [hlog, hid], hlt, ?_,
        Amount.le_self (Amount.isNaN_of_zero_lt hlt)⟩
      rw [hlengths, hid, OrderedMap.get?_insert_self]
    · rw [timers, htimers] at he
      have hbefore : e ∈ s.timers := (OrderedMap.mem_insert he).resolve_left fun heq => hid (heq ▸ rfl)
      obtain ⟨left, cooldown, hwithin⟩ := h e hbefore
      exact ⟨left, cooldown, hwithin.later hlater
        (by rw [hlengths, OrderedMap.get?_insert_of_ne (Ne.symm hid)])⟩
  · rw [if_neg hlt] at htimers hlengths
    rw [timers, htimers] at he
    obtain ⟨left, cooldown, hwithin⟩ := h e he
    exact ⟨left, cooldown, hwithin.later hlater (by rw [hlengths])⟩

/-- Without infinite time for an infinite timer, what is left of a timer is a number. -/
theorem isNaN_left_eq_false {v : Value} {seconds : Amount} {id : String} {left y : Binary64}
    (hv : v.numeric? = some seconds) (hnan : v ≠ .float .nan) (hforever : ¬ s.PassesForever (.tick v))
    (hmem : (id, .float left) ∈ s.timers) (hpos : Amount.zero.lt (.float left) = true)
    (hy : seconds.toBinary64 = .ok y) : (left.sub y).isNaN = false := by
  rw [Bool.eq_false_iff, ne_eq, Binary64.isNaN_sub_iff_of_zero_lt hpos]
  rintro (rfl | ⟨rfl, rfl⟩)
  · cases Amount.eq_float_of_toBinary64 hy rfl
    exact hnan (eq_float_of_numeric? hv)
  · cases Amount.eq_float_of_toBinary64 hy rfl
    exact hforever ⟨by rw [eq_float_of_numeric? hv], _, hmem, rfl⟩

theorem TimersWithin.passed (h : s.TimersWithin log) (hs : s.Timed) {v : Value} {ready : List String}
    (hnan : v ≠ .float .nan) (hforever : ¬ s.PassesForever (.tick v))
    (htick : s.tick v = .ok (ready, s')) : s'.TimersWithin (log ++ [(.tick v, .ready (.ok ready))]) := by
  have hlog : doneIn (log ++ [(.tick v, .ready (.ok ready))]) = doneIn log := by
    simp [doneIn_concat, doneBy?]
  have hlengths : s'.state.lookup "cooldownDurations" = s.state.lookup "cooldownDurations" :=
    lookup_tick_of_ne (by decide) htick
  intro e he
  rcases hs.tick_cases htick with rfl | ⟨seconds, hv, hpos, helapses, -⟩
  · obtain ⟨left, cooldown, hwithin⟩ := h e he
    exact ⟨left, cooldown, hwithin.later (by rw [hlog]; exact List.Subset.refl _) rfl⟩
  · obtain ⟨timer, remaining, hbefore, hleft, hon, heq⟩ := helapses.exists_of_mem he
    obtain ⟨left, cooldown, hwithin⟩ := h _ hbefore
    obtain rfl : timer = .float left := hwithin.timer
    obtain ⟨y, hy, rfl⟩ := leftOf_float hleft
    have hnumber := isNaN_left_eq_false hv hnan hforever hbefore hwithin.running hy
    have hseconds : seconds ≠ .float .nan := by
      rintro rfl
      exact hnan (eq_float_of_numeric? hv)
    have hless := Binary64.sub_le_self (Amount.nonNegative_of_toBinary64 hpos hseconds hy) hnumber
    exact ⟨left.sub y, cooldown, {
      timer := heq
      done := hlog ▸ hwithin.done
      running := (Amount.zero_lt_iff hnumber).mpr hon
      length := hlengths ▸ hwithin.length
      le := Amount.le_trans hless hwithin.le }⟩

theorem TimersWithin.comes (h : s.TimersWithin log) (hs : s.Timed) (hc : s.content.TimersApart)
    {call : Call} {reply : Reply} (hnan : call ≠ .tick (.float .nan)) (hforever : ¬ s.PassesForever call)
    (hcomes : s.Comes (call, reply) s') : s'.TimersWithin (log ++ [(call, reply)]) := by
  cases hcomes with
  | performed hdone => exact h.performed hs hc hdone
  | passed htick => exact h.passed hs (fun hv => hnan (by rw [hv])) hforever htick
  | idle hnot =>
    intro e he
    obtain ⟨left, cooldown, hwithin⟩ := h e he
    have hlog := List.subset_append_left (doneIn log) (doneBy? (call, reply)).toList
    exact ⟨left, cooldown, hwithin.later (doneIn_concat log _ ▸ hlog) rfl⟩

theorem Timed.comes (hs : s.Timed) (hc : s.content.TimersApart) {e : Call × Reply} (he : s.Comes e s') :
    s'.Timed ∧ s'.content = s.content := by
  cases he with
  | performed hdone => exact timed_dispatch_performed hs hc hdone
  | passed htick =>
    obtain ⟨state, hreplace, -⟩ := tick_frame htick
    exact ⟨hs.tick htick, by rw [hreplace, content_replace]⟩
  | idle => exact ⟨hs.of_state_eq rfl, rfl⟩

theorem timers_of_isVacant (hnone : (s.state.lookup "cooldowns").isVacant = true) : s.timers = [] := by
  unfold timers
  cases hlook : s.state.lookup "cooldowns" with
  | mapping es =>
    rw [hlook] at hnone
    rw [Value.entries, List.isEmpty_iff.mp hnone]
  | _ => rfl

section

variable {state : Tree} {draws : Draws} {amplify : Bool}

theorem timed_start (hd : state.Distinct) (hnone : (state.lookup "cooldowns").isVacant = true) :
    (start c state draws amplify).Timed :=
  ⟨hd, Or.inl hnone, by rw [timers_of_isVacant hnone]; exact List.forall_mem_nil _⟩

theorem timed_calls (hc : c.TimersApart) (hd : state.Distinct)
    (hnone : (state.lookup "cooldowns").isVacant = true) (cs : List Call) :
    ((start c state draws amplify).calls cs).2.Timed ∧
      ((start c state draws amplify).calls cs).2.content = c := by
  refine calls_induction (motive := fun _ t => t.Timed ∧ t.content = c) ⟨timed_start hd hnone, rfl⟩ ?_ cs
  rintro log t e t' ⟨htimed, hcontent⟩ he
  obtain ⟨hnext, hkept⟩ := htimed.comes (hcontent ▸ hc) he
  exact ⟨hnext, hkept.trans hcontent⟩

/-- Infinite time leaves not-a-number of an infinite timer. -/
theorem exists_nan_of_passesForever (hs : s.Timed) {call : Call} (h : s.PassesForever call) :
    ∃ key, (key, .float .nan) ∈ (s.call call).2.timers := by
  obtain ⟨rfl, ⟨key, timer⟩, he, htimer⟩ := h
  obtain rfl : timer = .float (.infinity false) := htimer
  obtain ⟨running, ready, helapses⟩ := exists_elapses (.infinity false) hs.floats
  have hadvance := advance_eq_ok_iff.mpr
    (Or.inr ⟨by decide, s.timers, running, hs.timersOf_eq, helapses, rfl⟩)
  have htick := (tick_eq_ok_iff (v := .float (.infinity false))).mpr ⟨_, rfl, hadvance⟩
  refine ⟨key, ?_⟩
  simp only [Store.call, htick, timers_handedOver]
  obtain ⟨remaining, hleft, ⟨hout, -⟩ | ⟨-, hmem⟩⟩ := helapses.of_mem he
  · cases hleft
    exact absurd hout (by decide)
  · cases hleft
    exact hmem

/-- As long as no tick lasts for not-a-number, every timer is at every point of a run that of an action that
was done, above zero and at most as long as is kept of it, exactly when no infinite time passes while an
infinite timer runs. -/
theorem timers_within_iff (hc : c.TimersApart) (hd : state.Distinct)
    (hnone : (state.lookup "cooldowns").isVacant = true) {cs : List Call}
    (hnan : ∀ call ∈ cs, call ≠ .tick (.float .nan)) :
    (∀ done, done <+: cs → ((start c state draws amplify).calls done).2.TimersWithin
        ((start c state draws amplify).calls done).1) ↔
      ∀ done call, done ++ [call] <+: cs →
        ¬ ((start c state draws amplify).calls done).2.PassesForever call := by
  have htimed : ∀ done, ((start c state draws amplify).calls done).2.Timed ∧
      ((start c state draws amplify).calls done).2.content = c := timed_calls hc hd hnone
  constructor
  · intro hwithin done call hpre hforever
    obtain ⟨key, hmem⟩ := exists_nan_of_passesForever (htimed done).1 hforever
    have hafter := hwithin _ hpre
    rw [calls_concat] at hafter
    obtain ⟨left, cooldown, hwithin⟩ := hafter _ hmem
    cases hwithin.timer
    exact absurd hwithin.running (by decide)
  · intro hforever done hpre
    -- a run grows by its last call
    induction done using List.reverseRecOn with
    | nil =>
      intro e he
      rw [show ((start c state draws amplify).calls []).2.timers = [] from timers_of_isVacant hnone] at he
      cases he
    | append_singleton front call ih =>
      have hfront := ih ((List.prefix_append front [call]).trans hpre)
      obtain ⟨hs, hcontent⟩ := htimed front
      rw [calls_concat]
      have hapart : ((start c state draws amplify).calls front).2.content.TimersApart := by rwa [hcontent]
      exact hfront.comes hs hapart (hnan call (hpre.subset (by simp))) (hforever front call hpre)
        (comes_call _ call)

end

def campCalls : List Call :=
  [.dispatch "fire", .tick (.int 4), .dispatch "rest", .dispatch "fire", .tick (.float (Binary64.ofInt 3))]

theorem camp_timers_within :
    (∀ call ∈ campCalls, call ≠ .tick (.float .nan)) ∧
      (∀ done, done <+: campCalls → (campStore.calls done).2.TimersWithin (campStore.calls done).1) ∧
      (campStore.calls campCalls).2.timers =
        [("fire", .float (Binary64.ofInt 3)), ("rest", .float (Binary64.ofInt 7))] := by
  have hnan : ∀ call ∈ campCalls, call ≠ .tick (.float .nan) := by
    simp only [campCalls, List.forall_mem_cons]
    refine ⟨by simp, by simp, by simp, by simp, ?_, by simp⟩
    rw [Binary64.ofInt_eq_finite (by decide)]
    simp
  refine ⟨hnan, ?_, by decide +kernel⟩
  refine (timers_within_iff campContent_timersApart (Tree.distinct_of_forall_mem (by decide)) (by decide)
    hnan).mpr ?_
  rintro done call hpre ⟨rfl, -⟩
  have hmem := hpre.subset (List.mem_append_right done (List.mem_singleton_self _))
  rw [campCalls, Binary64.ofInt_eq_finite (by decide)] at hmem
  simp at hmem

/-- A cooldown near the end of the range of binary64. -/
def longFire : Action :=
  { fireNamed "fire" with plan := .flat ⟨some [], [], [], Binary64.ofInt (10 ^ 308)⟩ }

/-- Makes the cooldown longer by as much again. -/
def idol : Item where
  id := "idol"
  name := "Idol"
  description := ""
  slot := .relics
  actionBonuses := [("fire", ⟨[], Binary64.one, Binary64.ofInt (-10 ^ 308), Binary64.zero⟩)]
  generalBonuses := ⟨.int 0, .int 0, .int 0, .int 0, .int 0, Binary64.zero, Binary64.zero⟩

def shrine : Store :=
  start ⟨[("fire", longFire)], [("idol", idol)], [], []⟩ [("relics", .mapping [("idol", .bool true)])]
    zeroDraws false

theorem shrine_timersApart : shrine.content.TimersApart := by
  refine ⟨by decide, ?_⟩
  intro action hmem block hblock e he
  simp only [shrine, start, OrderedMap.values, List.map_cons, List.map_nil, List.mem_singleton] at hmem
  subst hmem
  have hblocks : Content.effectBlocks longFire = [[]] := rfl
  rw [hblocks, List.mem_singleton] at hblock
  subst hblock
  cases he

def shrineCalls : List Call := [.dispatch "fire", .tick (.float (.infinity false))]

/-- Infinite time leaves a timer of not-a-number, under which the action can be done at once. -/
theorem infinite_time_spoils_timer :
    shrine.content.TimersApart ∧ shrine.state.Distinct ∧
      (shrine.state.lookup "cooldowns").isVacant = true ∧
      (∀ call ∈ shrineCalls, call ≠ .tick (.float .nan)) ∧
      (Binary64.ofInt (10 ^ 308)).toRat?.isSome = true ∧
      (shrine.calls shrineCalls).2.timers = [("fire", .float .nan)] ∧
      (shrine.calls shrineCalls).2.isExecutable "fire" = .ok true ∧
      ¬ (shrine.calls shrineCalls).2.TimersWithin (shrine.calls shrineCalls).1 := by
  have htimers : (shrine.calls shrineCalls).2.timers = [("fire", .float .nan)] := by decide +kernel
  refine ⟨shrine_timersApart, Tree.distinct_of_forall_mem (by decide), by decide, by simp [shrineCalls],
    by decide +kernel, htimers, by decide +kernel, fun hwithin => ?_⟩
  obtain ⟨left, cooldown, hfire⟩ := hwithin ("fire", .float .nan) (by simp [htimers])
  cases hfire.timer
  exact absurd hfire.running (by decide)

end Store

end SurvivalRules
