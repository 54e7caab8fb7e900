import SurvivalRules.Proofs.Store.Atomic
import SurvivalRules.Proofs.Store.Timers

/-!
# Time that passes

Every timer loses the same time. One that has none left goes out and is reported, every other one runs on
with what is left of it; and a tick does nothing else.
-/
namespace SurvivalRules

namespace Store

open Drawing

/-- How the timers that run on and the ids that are ready come from the timers before `seconds` passed. -/
inductive Elapses (seconds : Amount) : Tree → Tree → List String → Prop where
  | done : Elapses seconds [] [] []
  | out {id : String} {timer : Value} {remaining : Amount} {rest running : Tree} {ready : List String} :
    leftOf seconds timer = .ok remaining → remaining.le .zero = true →
    Elapses seconds rest running ready → Elapses seconds ((id, timer) :: rest) running (id :: ready)
  | on {id : String} {timer : Value} {remaining : Amount} {rest running : Tree} {ready : List String} :
    leftOf seconds timer = .ok remaining → remaining.le .zero = false →
    Elapses seconds rest running ready →
    Elapses seconds ((id, timer) :: rest) ((id, .ofAmount remaining) :: running) ready

variable {s s' : Store} {seconds remaining : Amount} {before running : Tree} {ready : List String}

theorem elapses_of_elapse (h : elapse seconds before = .ok (running, ready)) :
    Elapses seconds before running ready := by
  induction before generalizing running ready with
  | nil =>
    cases h
    exact .done
  | cons e rest ih =>
    obtain ⟨id, timer⟩ := e
    rw [elapse_eq_bind] at h
    obtain ⟨remaining, hleft, h⟩ := bind_eq_ok_iff.mp h
    cases hrest : elapse seconds rest with
    | error cause =>
      rw [hrest] at h
      cases h
    | ok out =>
      rw [hrest] at h
      simp only [Except.map, Except.ok.injEq] at h
      split at h
      next hout =>
        cases h
        exact .out hleft hout (ih hrest)
      next hon =>
        cases h
        exact .on hleft (Bool.not_eq_true _ ▸ hon) (ih hrest)

theorem Elapses.elapse_eq (h : Elapses seconds before running ready) :
    elapse seconds before = .ok (running, ready) := by
  induction h with
  | done => rfl
  | out hleft hout _ ih =>
    rw [elapse_eq_bind, hleft, ih]
    simp [bind, Except.bind, Except.map, hout]
  | on hleft hon _ ih =>
    rw [elapse_eq_bind, hleft, ih]
    simp [bind, Except.bind, Except.map, hon]

theorem elapse_eq_ok_iff :
    elapse seconds before = .ok (running, ready) ↔ Elapses seconds before running ready :=
  ⟨elapses_of_elapse, Elapses.elapse_eq⟩

/-- What is left of a timer for a number is a number. -/
theorem leftOf_float {seconds remaining : Amount} {x : Binary64}
    (h : leftOf seconds (.float x) = .ok remaining) :
    ∃ y, seconds.toBinary64 = .ok y ∧ remaining = .float (x.sub y) := by
  obtain ⟨z, hz, h⟩ := bind_eq_ok_iff.mp (show (Amount.float x).toBinary64 >>= _ = _ from h)
  obtain ⟨y, hy, hsub⟩ := bind_eq_ok_iff.mp h
  cases hz
  exact ⟨y, hy, (pure_eq_ok_iff.mp hsub).symm⟩

namespace Elapses

/-- A timer either goes out and is reported, or it runs on. -/
theorem of_mem (h : Elapses seconds before running ready) {id : String} {timer : Value}
    (hmem : (id, timer) ∈ before) : ∃ remaining, leftOf seconds timer = .ok remaining ∧
      (remaining.le .zero = true ∧ id ∈ ready ∨
        remaining.le .zero = false ∧ (id, .ofAmount remaining) ∈ running) := by
  induction h with
  | done => cases hmem
  | @out key first remaining rest running ready hleft hout _ ih =>
    rcases List.mem_cons.mp hmem with hfirst | hlater
    · cases hfirst
      exact ⟨remaining, hleft, Or.inl ⟨hout, List.mem_cons_self⟩⟩
    · obtain ⟨r, hr, hcases⟩ := ih hlater
      exact ⟨r, hr, hcases.imp_left fun hready => ⟨hready.1, List.mem_cons_of_mem key hready.2⟩⟩
  | @on key first remaining rest running ready hleft hon _ ih =>
    rcases List.mem_cons.mp hmem with hfirst | hlater
    · cases hfirst
      exact ⟨remaining, hleft, Or.inr ⟨hon, List.mem_cons_self⟩⟩
    · obtain ⟨r, hr, hcases⟩ := ih hlater
      exact ⟨r, hr, hcases.imp_right fun hrunning => ⟨hrunning.1, List.mem_cons_of_mem _ hrunning.2⟩⟩

/-- What runs on was running. -/
theorem exists_of_mem (h : Elapses seconds before running ready) {e : String × Value}
    (hmem : e ∈ running) : ∃ timer remaining, (e.1, timer) ∈ before ∧
      leftOf seconds timer = .ok remaining ∧ remaining.le .zero = false ∧ e.2 = .ofAmount remaining := by
  induction h with
  | done => cases hmem
  | out _ _ _ ih =>
    obtain ⟨timer, r, hbefore, hr⟩ := ih hmem
    exact ⟨timer, r, List.mem_cons_of_mem _ hbefore, hr⟩
  | on hleft hon _ ih =>
    rcases List.mem_cons.mp hmem with rfl | hlater
    · exact ⟨_, _, List.mem_cons_self, hleft, hon, rfl⟩
    · obtain ⟨timer, r, hbefore, hr⟩ := ih hlater
      exact ⟨timer, r, List.mem_cons_of_mem _ hbefore, hr⟩

/-- What is reported was running, and has gone out. -/
theorem exists_of_mem_ready (h : Elapses seconds before running ready) {id : String} (hmem : id ∈ ready) :
    ∃ timer remaining, (id, timer) ∈ before ∧ leftOf seconds timer = .ok remaining ∧
      remaining.le .zero = true := by
  induction h with
  | done => cases hmem
  | out hleft hout _ ih =>
    rcases List.mem_cons.mp hmem with rfl | hlater
    · exact ⟨_, _, List.mem_cons_self, hleft, hout⟩
    · obtain ⟨timer, r, hbefore, hr⟩ := ih hlater
      exact ⟨timer, r, List.mem_cons_of_mem _ hbefore, hr⟩
  | on _ _ _ ih =>
    obtain ⟨timer, r, hbefore, hr⟩ := ih hmem
    exact ⟨timer, r, List.mem_cons_of_mem _ hbefore, hr⟩

/-- The timers keep their order. -/
theorem sublist (h : Elapses seconds before running ready) :
    (OrderedMap.keys running).Sublist (OrderedMap.keys before) := by
  induction h with
  | done => exact List.Sublist.refl []
  | out _ _ _ ih => exact ih.cons _
  | on _ _ _ ih => exact ih.cons_cons _

/-- Where names are given once, a timer that goes out leaves none behind. -/
theorem not_mem_of_le (h : Elapses seconds before running ready)
    (hnodup : (OrderedMap.keys before).Nodup) {id : String} {timer : Value} (hmem : (id, timer) ∈ before)
    (hleft : leftOf seconds timer = .ok remaining) (hout : remaining.le .zero = true) :
    id ∉ OrderedMap.keys running := by
  intro hid
  obtain ⟨e, he, rfl⟩ := List.mem_map.mp hid
  obtain ⟨timer', remaining', hbefore, hleft', hon, -⟩ := h.exists_of_mem he
  have hfirst := OrderedMap.get?_of_mem hnodup hmem
  have hsecond := OrderedMap.get?_of_mem hnodup hbefore
  cases hfirst.symm.trans hsecond
  cases hleft.symm.trans hleft'
  rw [hout] at hon
  cases hon

theorem floats (h : Elapses seconds before running ready) (hbefore : ∀ e ∈ before, ∃ x, e.2 = .float x) :
    ∀ e ∈ running, ∃ x, e.2 = .float x := by
  intro e he
  obtain ⟨timer, remaining, hmem, hleft, -, he⟩ := h.exists_of_mem he
  obtain ⟨x, rfl⟩ := hbefore _ hmem
  obtain ⟨y, -, rfl⟩ := leftOf_float hleft
  exact ⟨_, he⟩

end Elapses

/-- Timers that are numbers can all be shortened. -/
theorem exists_elapses (y : Binary64) {before : Tree} (h : ∀ e ∈ before, ∃ x, e.2 = .float x) :
    ∃ running ready, Elapses (.float y) before running ready := by
  induction before with
  | nil => exact ⟨[], [], .done⟩
  | cons e rest ih =>
    obtain ⟨key, timer⟩ := e
    obtain ⟨⟨x, hx⟩, hrest⟩ := List.forall_mem_cons.mp h
    obtain rfl : timer = .float x := hx
    obtain ⟨running, ready, helapses⟩ := ih hrest
    cases hout : (Amount.float (x.sub y)).le .zero with
    | true => exact ⟨_, _, .out rfl hout helapses⟩
    | false => exact ⟨_, _, .on rfl hout helapses⟩

/-- A tick that does not fail either has no time to let pass or takes it from every timer. -/
theorem advance_eq_ok_iff : s.advance seconds = .ok (ready, s') ↔
    seconds.le .zero = true ∧ ready = [] ∧ s' = s ∨
      seconds.le .zero = false ∧ ∃ timers running,
        timersOf (s.state.lookup Section.cooldowns.name) = .ok timers ∧
        Elapses seconds timers running ready ∧
        s' = s.replace (OrderedMap.insert Section.cooldowns.name (.mapping running) s.state) := by
  cases hpos : seconds.le .zero with
  | true =>
    rw [advance_of_le_zero s hpos]
    simp [eq_comm]
  | false =>
    simp only [advance, hpos, Bool.false_eq_true, if_false, bind_eq_ok_iff, false_and, true_and, false_or]
    constructor
    · rintro ⟨timers, htimers, ⟨running, ready'⟩, helapse, hlast⟩
      cases pure_eq_ok_iff.mp hlast
      exact ⟨timers, running, htimers, elapse_eq_ok_iff.mp helapse, rfl⟩
    · rintro ⟨timers, running, htimers, helapses, rfl⟩
      exact ⟨timers, htimers, (running, ready), elapse_eq_ok_iff.mpr helapses, rfl⟩

theorem tick_eq_ok_iff {v : Value} : s.tick v = .ok (ready, s') ↔
    ∃ seconds, v.numeric? = some seconds ∧ s.advance seconds = .ok (ready, s') := by
  unfold tick
  cases v.numeric? <;> simp

theorem timers_handedOver (s : Store) (running : Tree) : timers (s.replace
    (OrderedMap.insert Section.cooldowns.name (.mapping running) s.state)) = running := by
  simp only [timers, state_replace, Section.name, Tree.lookup_insert_self, Value.entries]

/-- A tick of a store with timers for numbers takes its time off each, and leaves the rest alone. -/
theorem Timed.tick_cases (h : s.Timed) {v : Value} {ready : List String}
    (htick : s.tick v = .ok (ready, s')) : s' = s ∨ ∃ seconds, v.numeric? = some seconds ∧
      seconds.le .zero = false ∧ Elapses seconds s.timers s'.timers ready ∧
      s' = s.replace (OrderedMap.insert Section.cooldowns.name (.mapping s'.timers) s.state) := by
  obtain ⟨seconds, hv, hadvance⟩ := tick_eq_ok_iff.mp htick
  rcases advance_eq_ok_iff.mp hadvance with ⟨-, -, rfl⟩ | ⟨hpos, timers, running, htimers, helapses, rfl⟩
  · exact Or.inl rfl
  · cases h.timersOf_eq.symm.trans htimers
    rw [timers_handedOver]
    exact Or.inr ⟨seconds, hv, hpos, helapses, rfl⟩

theorem Timed.tick (h : s.Timed) {v : Value} {ready : List String}
    (htick : s.tick v = .ok (ready, s')) : s'.Timed := by
  rcases h.tick_cases htick with rfl | ⟨seconds, -, -, helapses, hreplace⟩
  · exact h
  · have hlook : s'.state.lookup "cooldowns" = .mapping s'.timers :=
      (congrArg (fun t : Store => t.state.lookup "cooldowns") hreplace).trans (Tree.lookup_insert_self _ _ _)
    refine ⟨fun k => ?_, Or.inr ⟨_, hlook⟩, helapses.floats h.floats⟩
    by_cases hk : k = "cooldowns"
    · subst hk
      rw [hlook]
      exact (h.distinct "cooldowns").sublist helapses.sublist
    · rw [lookup_tick_of_ne hk htick]
      exact h.distinct k

end Store

end SurvivalRules
