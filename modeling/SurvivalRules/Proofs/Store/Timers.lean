import SurvivalRules.Proofs.Store.Cooldown

/-!
# The timers of a store

While no effect writes to the sections of cooldowns, a timer changes in two ways only: a commit starts the
one of its own action, and time that passes takes the same from all of them and drops those that run out.
-/
namespace SurvivalRules

open Drawing

/-- Every id is a single segment of a path, and no effect writes to the sections of cooldowns. -/
structure Content.TimersApart (c : Content) : Prop where
  isName : ∀ id ∈ OrderedMap.keys c.actions, StatePath.IsName id
  apart : ∀ a ∈ OrderedMap.values c.actions, ∀ block ∈ Content.effectBlocks a, ∀ e ∈ block, ∀ q,
    StatePath.parse e.1 = .ok q → q.head ≠ "cooldowns" ∧ q.head ≠ "cooldownDurations"

namespace Store

variable {s s' : Store} {id a : String}

def timers (s : Store) : Tree := (s.state.lookup "cooldowns").entries

/-- What the state of a store keeps over every run: its sections name everything once, and its timers are
binary64 numbers in a mapping, or there are none. -/
structure Timed (s : Store) : Prop where
  distinct : s.state.Distinct
  shape : (s.state.lookup "cooldowns").isVacant = true ∨
    ∃ timers, s.state.lookup "cooldowns" = .mapping timers
  floats : ∀ e ∈ s.timers, ∃ x, e.2 = .float x

theorem timers_section?_eq (h : (s.state.lookup "cooldowns").isVacant = true ∨
    ∃ timers, s.state.lookup "cooldowns" = .mapping timers) :
    s.state.section? "cooldowns" = .ok s.timers := by
  unfold timers Tree.section?
  rcases h with hvacant | ⟨es, hes⟩
  · split
    next es hes =>
      rw [hes]
      rfl
    next v hv =>
      rw [if_pos hvacant]
      cases hlook : s.state.lookup "cooldowns" with
      | mapping es => exact absurd hlook (hv es)
      | _ => rfl
  · rw [hes]
    rfl

theorem Timed.section?_eq (h : s.Timed) : s.state.section? "cooldowns" = .ok s.timers :=
  timers_section?_eq h.shape

theorem Timed.remaining_eq (h : s.Timed) (id : String) :
    Gate.cooldownRemaining id s.state = Gate.timeLeft (s.timers.lookup id) := by
  rw [Gate.cooldownRemaining_eq, show s.state.section? Section.cooldowns.name = _ from h.section?_eq]
  rfl

theorem timersOf_of_section? {state timers : Tree} {k : String} (h : state.section? k = .ok timers) :
    timersOf (state.lookup k) = .ok timers := by
  unfold Tree.section? at h
  split at h
  next es hes =>
    cases h
    rw [hes]
    cases timers <;> rfl
  next =>
    split at h
    next hvacant =>
      cases h
      rw [timersOf, if_pos hvacant]
    next => cases h

theorem Timed.timersOf_eq (h : s.Timed) :
    timersOf (s.state.lookup Section.cooldowns.name) = .ok s.timers :=
  timersOf_of_section? h.section?_eq

def after (x : Binary64) (seconds : ℤ) : Binary64 := x.sub (Binary64.ofInt seconds)

def runsOut (x : Binary64) (seconds : ℤ) : Bool := (Amount.float (after x seconds)).le .zero

theorem elapse_cons {seconds : ℤ} (hseconds : seconds.natAbs ≤ significandBound) (key : String)
    (x : Binary64) {rest left : Tree} {ready : List String}
    (h : elapse (.int seconds) rest = .ok (left, ready)) :
    elapse (.int seconds) ((key, .float x) :: rest) =
      .ok (if runsOut x seconds then (left, key :: ready)
        else ((key, .float (after x seconds)) :: left, ready)) := by
  have hsub : (Amount.float x).sub (.int seconds) = .ok (.float (after x seconds)) := by
    simp only [Amount.sub, Amount.combine, Amount.toBinary64_int hseconds]
    rfl
  have hout : (Amount.float (after x seconds)).le .zero = runsOut x seconds := rfl
  simp only [elapse, Value.numeric?, Value.amount?, hsub, h, bind, Except.bind, hout]
  cases runsOut x seconds <;> rfl

/-- How the timers of a mapping and the ids that are ready come from the timers before some time passed. -/
structure Elapsed (seconds : ℤ) (before left : Tree) (ready : List String) : Prop where
  floats : ∀ e ∈ left, ∃ x, e.2 = .float x
  nodup : (OrderedMap.keys left).Nodup
  other : ∀ id, id ∉ OrderedMap.keys before → id ∉ OrderedMap.keys left ∧ id ∉ ready
  out : ∀ id x, OrderedMap.get? id before = some (.float x) → runsOut x seconds = true →
    id ∉ OrderedMap.keys left ∧ id ∈ ready
  running : ∀ id x, OrderedMap.get? id before = some (.float x) → runsOut x seconds = false →
    OrderedMap.get? id left = some (.float (after x seconds)) ∧ id ∉ ready

theorem elapsed_cons_out {seconds : ℤ} {key : String} {x : Binary64} {rest left : Tree}
    {ready : List String} (h : Elapsed seconds rest left ready) (hkey : key ∉ OrderedMap.keys rest)
    (hout : runsOut x seconds = true) :
    Elapsed seconds ((key, .float x) :: rest) left (key :: ready) where
  floats := h.floats
  nodup := h.nodup
  other id hid := by
    simp only [OrderedMap.keys_cons, List.mem_cons, not_or] at hid ⊢
    obtain ⟨hleft, hready⟩ := h.other id hid.2
    exact ⟨hleft, hid.1, hready⟩
  out id y hy hy' := by
    unfold OrderedMap.get? at hy
    split at hy
    next he =>
      subst he
      exact ⟨(h.other key hkey).1, List.mem_cons_self⟩
    next =>
      obtain ⟨hleft, hready⟩ := h.out id y hy hy'
      exact ⟨hleft, List.mem_cons_of_mem key hready⟩
  running id y hy hy' := by
    unfold OrderedMap.get? at hy
    split at hy
    next he =>
      cases hy
      rw [hout] at hy'
      cases hy'
    next hne =>
      obtain ⟨hleft, hready⟩ := h.running id y hy hy'
      exact ⟨hleft, List.not_mem_cons_of_ne_of_not_mem (Ne.symm hne) hready⟩

theorem elapsed_cons_running {seconds : ℤ} {key : String} {x : Binary64} {rest left : Tree}
    {ready : List String} (h : Elapsed seconds rest left ready) (hkey : key ∉ OrderedMap.keys rest)
    (hrunning : runsOut x seconds = false) :
    Elapsed seconds ((key, .float x) :: rest) ((key, .float (after x seconds)) :: left) ready where
  floats := List.forall_mem_cons.mpr ⟨⟨_, rfl⟩, h.floats⟩
  nodup := by
    simp only [OrderedMap.keys_cons, List.nodup_cons]
    exact ⟨(h.other key hkey).1, h.nodup⟩
  other id hid := by
    simp only [OrderedMap.keys_cons, List.mem_cons, not_or] at hid ⊢
    obtain ⟨hleft, hready⟩ := h.other id hid.2
    exact ⟨⟨hid.1, hleft⟩, hready⟩
  out id y hy hy' := by
    unfold OrderedMap.get? at hy
    split at hy
    next he =>
      cases hy
      rw [hrunning] at hy'
      cases hy'
    next hne =>
      obtain ⟨hleft, hready⟩ := h.out id y hy hy'
      exact ⟨List.not_mem_cons_of_ne_of_not_mem (Ne.symm hne) hleft, hready⟩
  running id y hy hy' := by
    unfold OrderedMap.get? at hy ⊢
    split at hy
    next he =>
      cases hy
      subst he
      exact ⟨by simp, (h.other key hkey).2⟩
    next hne =>
      obtain ⟨hleft, hready⟩ := h.running id y hy hy'
      exact ⟨by simpa [hne] using hleft, hready⟩

theorem exists_elapse {seconds : ℤ} (hseconds : seconds.natAbs ≤ significandBound) {before : Tree}
    (hfloats : ∀ e ∈ before, ∃ x, e.2 = .float x) (hnodup : (OrderedMap.keys before).Nodup) :
    ∃ left ready, elapse (.int seconds) before = .ok (left, ready) ∧
      Elapsed seconds before left ready := by
  induction before with
  | nil => exact ⟨[], [], rfl, by simp, by simp, by simp, by simp, by simp⟩
  | cons e rest ih =>
    obtain ⟨key, v⟩ := e
    obtain ⟨⟨x, hx⟩, hrest⟩ := List.forall_mem_cons.mp hfloats
    simp only at hx
    subst hx
    simp only [OrderedMap.keys_cons, List.nodup_cons] at hnodup
    obtain ⟨left, ready, helapse, hspec⟩ := ih hrest hnodup.2
    have hcons := elapse_cons hseconds key x helapse
    cases hout : runsOut x seconds with
    | true =>
      rw [hout, if_pos rfl] at hcons
      exact ⟨left, key :: ready, hcons, elapsed_cons_out hspec hnodup.1 hout⟩
    | false =>
      rw [hout, if_neg Bool.false_ne_true] at hcons
      exact ⟨_, ready, hcons, elapsed_cons_running hspec hnodup.1 hout⟩

/-- A tick of whole seconds lets them pass for the timers and changes nothing else. -/
theorem exists_tick (h : s.Timed) {seconds : ℤ} (hpos : 0 < seconds)
    (hbound : seconds.natAbs ≤ significandBound) :
    ∃ ready s', s.tick (.int seconds) = .ok (ready, s') ∧ Elapsed seconds s.timers s'.timers ready ∧
      s'.Timed ∧ s'.content = s.content ∧
      s'.state.lookup "cooldownDurations" = s.state.lookup "cooldownDurations" := by
  obtain ⟨left, ready, helapse, hspec⟩ := exists_elapse hbound h.floats (h.distinct "cooldowns")
  have hle : (Amount.int seconds).le .zero = false := by
    rw [Bool.eq_false_iff, ne_eq, Amount.zero, Amount.le_int_iff]
    omega
  have htick : s.tick (.int seconds) = .ok (ready, s.replace
      (OrderedMap.insert Section.cooldowns.name (.mapping left) s.state)) := by
    simp only [tick, Value.numeric?, Value.amount?, advance, hle, Bool.false_eq_true, if_false,
      h.timersOf_eq, helapse, bind, Except.bind, pure, Except.pure]
  have htimers : timers (s.replace
      (OrderedMap.insert Section.cooldowns.name (.mapping left) s.state)) = left := by
    simp only [timers, state_replace, Section.name, Tree.lookup_insert_self, Value.entries]
  refine ⟨ready, _, htick, htimers.symm ▸ hspec, ⟨fun k => ?_, Or.inr ⟨left, ?_⟩, ?_⟩, rfl, ?_⟩
  · simp only [state_replace, Section.name, Tree.lookup_insert]
    split
    · exact hspec.nodup
    · exact h.distinct k
  · simp only [state_replace, Section.name, Tree.lookup_insert_self]
  · rw [htimers]
    exact hspec.floats
  · simp only [state_replace, Section.name]
    exact Tree.lookup_insert_of_ne (by decide) _ _

theorem not_mem_keys_resolve {c : Content} (hc : c.TimersApart) {state : Tree} {amplify : Bool}
    {d d' : Draws} {r : Resolution} (h : Returns (resolve c id state amplify) d r d') :
    "cooldowns" ∉ OrderedMap.keys r.delta ∧ "cooldownDurations" ∉ OrderedMap.keys r.delta := by
  cases ha : c.action? id with
  | none =>
    simp only [resolve, ha] at h
    obtain ⟨rfl, -⟩ := returns_pure_iff.mp h
    exact ⟨List.not_mem_nil, List.not_mem_nil⟩
  | some action =>
    have hmem : action ∈ OrderedMap.values c.actions := List.mem_map_of_mem (OrderedMap.mem_of_get? ha)
    refine resolve_induction (motive := fun delta => "cooldowns" ∉ OrderedMap.keys delta ∧
      "cooldownDurations" ∉ OrderedMap.keys delta) ha h ⟨List.not_mem_nil, List.not_mem_nil⟩ ?_ ?_
    · rintro block hblock e he q hq v - delta ⟨hcooldowns, hdurations⟩
      obtain ⟨hfirst, hsecond⟩ := hc.apart action hmem block hblock e he q hq
      obtain ⟨x, hx⟩ := Delta.exists_set_eq_insert delta state q v
      simp only [hx, OrderedMap.mem_keys_insert, not_or]
      exact ⟨⟨Ne.symm hfirst, hcooldowns⟩, Ne.symm hsecond, hdurations⟩
    · rintro delta entries scaled - - ⟨hcooldowns, hdurations⟩
      simp only [OrderedMap.mem_keys_insert, not_or]
      exact ⟨⟨by decide, hcooldowns⟩, by decide, hdurations⟩

/-- What a section of cooldowns holds after an action with this cooldown was done. -/
def started (id : String) (cooldown : Binary64) (v : Value) : Value :=
  if Amount.zero.lt (.float cooldown) then
    .mapping (OrderedMap.insert id (.float cooldown) v.entries)
  else v

theorem lookup_dispatch_performed (h : s.Timed) (hc : s.content.TimersApart) {result : Performed}
    (hdone : s.dispatch id = (.ok (.performed result), s')) {k : String}
    (hk : k = "cooldowns" ∨ k = "cooldownDurations") :
    s'.state.lookup k = started id result.cooldown (s.state.lookup k) := by
  obtain ⟨hexec, r, d, delta, hres, hrecord, hstate, -⟩ := exists_delta_of_dispatch hdone
  obtain ⟨-, action, -, -, ha, -⟩ := Gate.isExecutable_spec hexec
  have htidy := tidy_bookkeeping h.distinct (tidy_resolve h.distinct hres) hrecord
  have hresources : k ≠ Section.resources.name := by
    rcases hk with rfl | rfl <;> decide
  have huntouched : k ∉ OrderedMap.keys r.delta := by
    rcases hk with rfl | rfl
    · exact (not_mem_keys_resolve hc hres).1
    · exact (not_mem_keys_resolve hc hres).2
  rw [hstate, lookup_committed htidy hresources]
  by_cases hlt : Amount.zero.lt (.float result.cooldown) = true
  · have hname := hc.isName id (OrderedMap.mem_keys_of_get? ha)
    obtain ⟨hmem, hlook⟩ := lookup_own_timer hname hlt hrecord hk
    rw [if_pos hmem, hlook, Delta.base_of_not_mem huntouched, started, if_pos hlt]
  · have hstory : k ≠ Section.story.name := by
      rcases hk with rfl | rfl <;> decide
    have hsame := sameSection_bookkeeping hstory (fun hrunning => absurd hrunning hlt) hrecord
    rw [if_neg fun hmem => huntouched (hsame.2.mp hmem), started, if_neg hlt]

theorem timed_dispatch_performed (h : s.Timed) (hc : s.content.TimersApart) {result : Performed}
    (hdone : s.dispatch id = (.ok (.performed result), s')) :
    s'.Timed ∧ s'.content = s.content := by
  have hlook := lookup_dispatch_performed h hc hdone (Or.inl rfl)
  obtain ⟨-, r, d, delta, hres, hrecord, hstate, hcontent⟩ := exists_delta_of_dispatch hdone
  refine ⟨⟨?_, ?_, ?_⟩, hcontent⟩
  · rw [hstate]
    exact distinct_committed (tidy_bookkeeping h.distinct (tidy_resolve h.distinct hres) hrecord)
      h.distinct
  · rw [hlook]
    unfold started
    split
    · exact Or.inr ⟨_, rfl⟩
    · exact h.shape
  · unfold timers
    rw [hlook]
    unfold started
    split
    · intro e he
      rcases OrderedMap.mem_insert he with rfl | hmem
      · exact ⟨_, rfl⟩
      · exact h.floats e hmem
    · exact h.floats

end Store

end SurvivalRules
