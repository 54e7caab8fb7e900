import SurvivalRules.Proofs.Store.Timers

/-!
# Lockout by cooldowns

Over any run of dispatches and ticks, an action that was done with a cooldown is held back until that time
has passed, is ready in the tick that ends it and in no other, and its last cooldown can be looked up. What
carries the proof is how much of one cooldown has passed, which other actions leave alone.
-/
namespace SurvivalRules

inductive Operation where
  | dispatch (id : String)
  | tick (seconds : ℤ)

inductive Answer where
  | verdict (answer : Except StateError Verdict)
  | ready (answer : Except Fault (List String))

namespace Operation

def seconds : Operation → ℤ
  | .dispatch _ => 0
  | .tick seconds => seconds

/-- Ticks last for a positive number of seconds that binary64 holds exactly. -/
def IsBounded : Operation → Prop
  | .dispatch _ => True
  | .tick seconds => 0 < seconds ∧ seconds.natAbs ≤ significandBound

def elapsed (ops : List Operation) : ℤ := (ops.map seconds).sum

theorem seconds_nonneg {op : Operation} (h : op.IsBounded) : 0 ≤ op.seconds := by
  cases op with
  | dispatch id => exact le_rfl
  | tick seconds => exact h.1.le

end Operation

def IsDone (a : String) (e : Operation × Answer) : Prop :=
  e.1 = .dispatch a ∧ ∃ result, e.2 = .verdict (.ok (.performed result))

namespace Store

variable {s s' : Store} {a : String} {n t : ℤ}

def step (s : Store) : Operation → Answer × Store
  | .dispatch id => (.verdict (s.dispatch id).1, (s.dispatch id).2)
  | .tick seconds =>
    match s.tick (.int seconds) with
    | .ok (ids, next) => (.ready (.ok ids), next)
    | .error cause => (.ready (.error cause), s)

def run (s : Store) : List Operation → List (Operation × Answer) × Store
  | [] => ([], s)
  | op :: rest =>
    ((op, (s.step op).1) :: ((s.step op).2.run rest).1, ((s.step op).2.run rest).2)

/-- The last cooldown of `a` was `n`, and of it `t` has passed. -/
structure Counting (s : Store) (a : String) (n t : ℤ) : Prop where
  length : ∃ lengths, s.state.lookup "cooldownDurations" = .mapping lengths ∧
    Tree.lookup lengths a = .float (Binary64.ofInt n)
  running : t < n → OrderedMap.get? a s.timers = some (.float (Binary64.ofInt (n - t)))
  out : n ≤ t → a ∉ OrderedMap.keys s.timers

theorem timeLeft_ofInt {m : ℤ} (h : m.natAbs ≤ significandBound) :
    Gate.timeLeft (.float (Binary64.ofInt m)) = .ok (Binary64.ofInt m) := by
  rw [Binary64.ofInt_eq_finite h]
  rfl

theorem Counting.remaining_eq (h : s.Counting a n t) (hs : s.Timed) (ht : 0 ≤ t)
    (hn : n.natAbs ≤ significandBound) :
    Gate.cooldownRemaining a s.state = .ok (Binary64.ofInt (max 0 (n - t))) := by
  rw [hs.remaining_eq, Tree.lookup]
  rcases lt_or_ge t n with hlt | hge
  · rw [h.running hlt, Option.getD_some, timeLeft_ofInt (by omega), max_eq_right (by omega)]
  · rw [OrderedMap.get?_eq_none_iff.mpr (h.out hge), max_eq_left (by omega), Binary64.ofInt_zero]
    rfl

theorem Counting.lastCooldown_eq (h : s.Counting a n t) :
    s.lastCooldown a = .ok (.float (Binary64.ofInt n)) := by
  obtain ⟨lengths, hlook, hlength⟩ := h.length
  have hsection : s.state.section? Section.cooldownDurations.name = .ok lengths :=
    Tree.section?_of_lookup hlook
  simp only [lastCooldown, hsection, bind, Except.bind, pure, Except.pure, hlength]

/-- While some of its cooldown is left an action is refused, and nothing changes. -/
theorem Counting.dispatch_eq (h : s.Counting a n t) (hs : s.Timed) (ht : 0 ≤ t)
    (hn : n.natAbs ≤ significandBound) (hlt : t < n) : s.dispatch a = (s.refusal a, s) := by
  have hleft := h.remaining_eq hs ht hn
  rw [max_eq_right (by omega)] at hleft
  have hrunning := (Amount.zero_lt_ofInt_iff (n := n - t) (by omega)).mpr (by omega)
  exact dispatch_of_not_executable (Gate.not_executable_of_remaining s.content hleft hrunning)

theorem counting_of_performed (hs : s.Timed) (hc : s.content.TimersApart) {result : Performed}
    (hdone : s.dispatch a = (.ok (.performed result), s'))
    (hcooldown : result.cooldown = Binary64.ofInt n) (hpos : 0 < n)
    (hn : n.natAbs ≤ significandBound) : s'.Counting a n 0 := by
  have hlt : Amount.zero.lt (.float result.cooldown) = true := by
    rw [hcooldown]
    exact (Amount.zero_lt_ofInt_iff hn).mpr hpos
  have htimers := lookup_dispatch_performed hs hc hdone (Or.inl rfl)
  have hlengths := lookup_dispatch_performed hs hc hdone (Or.inr rfl)
  rw [started, if_pos hlt, hcooldown] at htimers hlengths
  refine ⟨⟨_, hlengths, Tree.lookup_insert_self _ _ _⟩, fun _ => ?_, fun hle => absurd hpos (by omega)⟩
  rw [timers, htimers, Value.entries, OrderedMap.get?_insert_self, sub_zero]

theorem Counting.performed_of_ne (h : s.Counting a n t) (hs : s.Timed) (hc : s.content.TimersApart)
    {id : String} {result : Performed} (hne : id ≠ a)
    (hdone : s.dispatch id = (.ok (.performed result), s')) : s'.Counting a n t := by
  obtain ⟨lengths, hlook, hlength⟩ := h.length
  have htimers := lookup_dispatch_performed hs hc hdone (Or.inl rfl)
  have hlengths := lookup_dispatch_performed hs hc hdone (Or.inr rfl)
  by_cases hlt : Amount.zero.lt (.float result.cooldown) = true
  · rw [started, if_pos hlt] at htimers hlengths
    rw [hlook, Value.entries] at hlengths
    refine ⟨⟨_, hlengths, ?_⟩, fun hrun => ?_, fun hout => ?_⟩
    · rw [Tree.lookup_insert_of_ne hne, hlength]
    · rw [timers, htimers, Value.entries, OrderedMap.get?_insert_of_ne hne]
      exact h.running hrun
    · rw [timers, htimers, Value.entries, OrderedMap.mem_keys_insert, not_or]
      exact ⟨Ne.symm hne, h.out hout⟩
  · rw [started, if_neg hlt] at htimers hlengths
    have hsame : s'.timers = s.timers := by rw [timers, htimers, timers]
    exact ⟨⟨lengths, hlengths.trans hlook, hlength⟩, by rw [hsame]; exact h.running,
      by rw [hsame]; exact h.out⟩

/-- A tick takes its seconds off, and reports `a` when it ends the cooldown. -/
theorem Counting.elapsed {seconds : ℤ} {ready : List String} (h : s.Counting a n t) (ht : 0 ≤ t)
    (hn : n.natAbs ≤ significandBound) (hpos : 0 < seconds)
    (hbound : seconds.natAbs ≤ significandBound)
    (helapsed : Elapsed seconds s.timers s'.timers ready)
    (hlengths : s'.state.lookup "cooldownDurations" = s.state.lookup "cooldownDurations") :
    s'.Counting a n (t + seconds) ∧ (a ∈ ready ↔ t < n ∧ n ≤ t + seconds) := by
  rcases lt_or_ge t n with hlt | hge
  · have hafter : after (Binary64.ofInt (n - t)) seconds = Binary64.ofInt (n - (t + seconds)) := by
      rw [after, Binary64.sub_ofInt (by omega) hbound, sub_sub]
    have hleft : (n - (t + seconds)).natAbs ≤ significandBound := by omega
    have hout : runsOut (Binary64.ofInt (n - t)) seconds = true ↔ n ≤ t + seconds := by
      rw [runsOut, hafter, Amount.le_ofInt_zero_iff hleft]
      omega
    rcases lt_or_ge (t + seconds) n with hrun | hend
    · have hrunning : runsOut (Binary64.ofInt (n - t)) seconds = false := by
        rw [Bool.eq_false_iff, ne_eq, hout]
        omega
      obtain ⟨htimer, hready⟩ := helapsed.running a _ (h.running hlt) hrunning
      refine ⟨⟨hlengths ▸ h.length, fun _ => by rw [htimer, hafter], fun hle => ?_⟩, ?_⟩
      · omega
      · exact ⟨fun hmem => absurd hmem hready, fun hend => by omega⟩
    · obtain ⟨htimer, hready⟩ := helapsed.out a _ (h.running hlt) (hout.mpr hend)
      exact ⟨⟨hlengths ▸ h.length, fun hrun => by omega, fun _ => htimer⟩,
        ⟨fun _ => ⟨hlt, hend⟩, fun _ => hready⟩⟩
  · obtain ⟨htimer, hready⟩ := helapsed.other a (h.out hge)
    refine ⟨⟨hlengths ▸ h.length, fun hrun => by omega, fun _ => htimer⟩, ?_⟩
    exact ⟨fun hmem => absurd hmem hready, fun hend => by omega⟩

theorem Timed.of_state_eq (h : s.Timed) (hstate : s'.state = s.state) : s'.Timed :=
  ⟨hstate ▸ h.distinct, hstate ▸ h.shape, by rw [timers, hstate]; exact h.floats⟩

theorem Counting.of_state_eq (h : s.Counting a n t) (hstate : s'.state = s.state) :
    s'.Counting a n t := by
  have htimers : s'.timers = s.timers := by rw [timers, hstate, timers]
  exact ⟨hstate ▸ h.length, by rw [htimers]; exact h.running, by rw [htimers]; exact h.out⟩

theorem timed_step (hs : s.Timed) (hc : s.content.TimersApart) {op : Operation}
    (hop : op.IsBounded) : (s.step op).2.Timed ∧ (s.step op).2.content = s.content := by
  cases op with
  | dispatch id =>
    rcases dispatch_cases s id with ⟨result, hdone⟩ | ⟨hstate, hcontent⟩
    · exact timed_dispatch_performed hs hc hdone
    · exact ⟨hs.of_state_eq hstate, hcontent⟩
  | tick seconds =>
    obtain ⟨ready, s', htick, -, htimed, hcontent, -⟩ := exists_tick hs hop.1 hop.2
    simp only [step, htick]
    exact ⟨htimed, hcontent⟩

/-- A step that does not do `a` moves its cooldown on by the time that passes. -/
theorem Counting.step (h : s.Counting a n t) (hs : s.Timed) (hc : s.content.TimersApart) (ht : 0 ≤ t)
    (hn : n.natAbs ≤ significandBound) {op : Operation} (hop : op.IsBounded)
    (hnot : ¬ IsDone a (op, (s.step op).1)) : (s.step op).2.Counting a n (t + op.seconds) := by
  cases op with
  | dispatch id =>
    rw [Operation.seconds, add_zero]
    rcases dispatch_cases s id with ⟨result, hdone⟩ | ⟨hstate, -⟩
    · have hne : id ≠ a := by
        rintro rfl
        exact hnot ⟨rfl, result, by rw [Store.step, hdone]⟩
      exact h.performed_of_ne hs hc hne hdone
    · exact h.of_state_eq hstate
  | tick seconds =>
    obtain ⟨ready, s', htick, helapsed, -, -, hlengths⟩ := exists_tick hs hop.1 hop.2
    simp only [Store.step, htick]
    exact (h.elapsed ht hn hop.1 hop.2 helapsed hlengths).1

theorem timed_run (hs : s.Timed) (hc : s.content.TimersApart) {ops : List Operation}
    (hops : ∀ op ∈ ops, op.IsBounded) :
    (s.run ops).2.Timed ∧ (s.run ops).2.content = s.content := by
  induction ops generalizing s with
  | nil => exact ⟨hs, rfl⟩
  | cons op rest ih =>
    obtain ⟨hop, hrest⟩ := List.forall_mem_cons.mp hops
    obtain ⟨htimed, hcontent⟩ := timed_step hs hc hop
    obtain ⟨hlast, hkept⟩ := ih htimed (hcontent ▸ hc) hrest
    exact ⟨hlast, hkept.trans hcontent⟩

theorem Counting.run (h : s.Counting a n t) (hs : s.Timed) (hc : s.content.TimersApart) (ht : 0 ≤ t)
    (hn : n.natAbs ≤ significandBound) {ops : List Operation} (hops : ∀ op ∈ ops, op.IsBounded)
    (hnot : ∀ e ∈ (s.run ops).1, ¬ IsDone a e) :
    (s.run ops).2.Counting a n (t + Operation.elapsed ops) := by
  -- the time that has passed grows with every step, so it is general in the induction
  induction ops generalizing s t with
  | nil =>
    rw [show t + Operation.elapsed [] = t by simp [Operation.elapsed]]
    exact h
  | cons op rest ih =>
    obtain ⟨hop, hrest⟩ := List.forall_mem_cons.mp hops
    obtain ⟨hfirst, hlater⟩ := List.forall_mem_cons.mp hnot
    obtain ⟨htimed, hcontent⟩ := timed_step hs hc hop
    have hnext := h.step hs hc ht hn hop hfirst
    have hlast := ih hnext htimed (hcontent ▸ hc) (add_nonneg ht (Operation.seconds_nonneg hop)) hrest
      hlater
    rwa [add_assoc, show op.seconds + Operation.elapsed rest = Operation.elapsed (op :: rest) from
      (List.sum_cons).symm] at hlast

theorem elapsed_nonneg {ops : List Operation} (hops : ∀ op ∈ ops, op.IsBounded) :
    0 ≤ Operation.elapsed ops :=
  List.sum_nonneg (List.forall_mem_map.mpr fun op hop => Operation.seconds_nonneg (hops op hop))

/-- Take any run from a store without timers, then an action that is done with a cooldown of `n` seconds, and
then any run in which it is not done again. The time left of it is what is left of `n`; until then it is
refused and nothing changes; its last cooldown is `n`; and the next tick reports it exactly if that tick ends
its cooldown. -/
theorem lockout {s₁ : Store} {before later : List Operation} {result : Performed}
    (hc : s.content.TimersApart) (hd : s.state.Distinct)
    (hnone : (s.state.lookup "cooldowns").isVacant = true)
    (hbefore : ∀ op ∈ before, op.IsBounded) (hlater : ∀ op ∈ later, op.IsBounded)
    (hdone : (s.run before).2.dispatch a = (.ok (.performed result), s₁))
    (hcooldown : result.cooldown = Binary64.ofInt n) (hpos : 0 < n)
    (hn : n.natAbs ≤ significandBound) (hnot : ∀ e ∈ (s₁.run later).1, ¬ IsDone a e) :
    Gate.cooldownRemaining a (s₁.run later).2.state =
        .ok (Binary64.ofInt (max 0 (n - Operation.elapsed later))) ∧
      (Operation.elapsed later < n →
        (s₁.run later).2.dispatch a = ((s₁.run later).2.refusal a, (s₁.run later).2)) ∧
      (s₁.run later).2.lastCooldown a = .ok (.float (Binary64.ofInt n)) ∧
      ∀ seconds : ℤ, 0 < seconds → seconds.natAbs ≤ significandBound →
        ∃ ready s₂, (s₁.run later).2.tick (.int seconds) = .ok (ready, s₂) ∧
          (a ∈ ready ↔ Operation.elapsed later < n ∧ n ≤ Operation.elapsed later + seconds) := by
  have hstart : s.Timed := by
    refine ⟨hd, Or.inl hnone, ?_⟩
    unfold timers
    cases hlook : s.state.lookup "cooldowns" with
    | mapping es =>
      rw [hlook] at hnone
      simp [List.isEmpty_iff.mp hnone, Value.entries]
    | _ => simp [Value.entries]
  obtain ⟨hready, hcontent⟩ := timed_run hstart hc hbefore
  have hc₀ : (s.run before).2.content.TimersApart := hcontent ▸ hc
  obtain ⟨htimed, hcontent₁⟩ := timed_dispatch_performed hready hc₀ hdone
  have hc₁ : s₁.content.TimersApart := hcontent₁ ▸ hc₀
  have hcount := (counting_of_performed hready hc₀ hdone hcooldown hpos hn).run htimed hc₁ le_rfl hn
    hlater hnot
  rw [zero_add] at hcount
  have ht := elapsed_nonneg hlater
  obtain ⟨hlast, -⟩ := timed_run htimed hc₁ hlater
  refine ⟨hcount.remaining_eq hlast ht hn, hcount.dispatch_eq hlast ht hn, hcount.lastCooldown_eq, ?_⟩
  intro seconds hseconds hbound
  obtain ⟨ready, s₂, htick, helapsed, -, -, hlengths⟩ := exists_tick hlast hseconds hbound
  exact ⟨ready, s₂, htick, (hcount.elapsed ht hn hseconds hbound helapsed hlengths).2⟩

def campContent : Content := ⟨["fire", "rest"].map fun id => (id, fireNamed id), [], [], []⟩

def campStore : Store := start campContent [] zeroDraws false

theorem campContent_timersApart : campContent.TimersApart := by
  refine ⟨by decide, ?_⟩
  intro action hmem block hblock e he
  simp only [campContent, OrderedMap.values, List.map_cons, List.map_nil, List.mem_cons,
    List.not_mem_nil, or_false] at hmem
  rcases hmem with rfl | rfl <;> simp_all [Content.effectBlocks, fireNamed]

def campAfterFire : Store := ((campStore.run [.dispatch "rest", .tick 3]).2.dispatch "fire").2

theorem camp_lockout :
    Gate.cooldownRemaining "fire" (campAfterFire.run [.tick 4, .dispatch "rest"]).2.state =
        .ok (Binary64.ofInt 6) ∧
      ∃ ready s₂, (campAfterFire.run [.tick 4, .dispatch "rest"]).2.tick (.int 6) = .ok (ready, s₂) ∧
        "fire" ∈ ready := by
  have hdone : (campStore.run [.dispatch "rest", .tick 3]).2.dispatch "fire" =
      (.ok (.performed fireDone), campAfterFire) := Prod.ext (by decide +kernel) rfl
  have hbefore : ∀ op ∈ [Operation.dispatch "rest", .tick 3], op.IsBounded := by
    simp [Operation.IsBounded, significandBound]
  have hlater : ∀ op ∈ [Operation.tick 4, .dispatch "rest"], op.IsBounded := by
    simp [Operation.IsBounded, significandBound]
  have hcooldown : fireDone.cooldown = Binary64.ofInt 10 := rfl
  obtain ⟨hleft, -, -, hready⟩ := lockout campContent_timersApart
    (Tree.distinct_of_forall_mem (by decide)) (by decide) hbefore hlater hdone hcooldown (by decide)
    (by decide) (by simp [run, IsDone])
  refine ⟨hleft, ?_⟩
  obtain ⟨ready, s₂, htick, hmem⟩ := hready 6 (by decide) (by decide)
  exact ⟨ready, s₂, htick, hmem.mpr ⟨by decide, by decide⟩⟩

/-- An action that is shown while there is wood. -/
def gatherAction : Action :=
  { fireNamed "gather" with
    plan := .flat ⟨some [("resources.wood", .text ">=1")], [], [], Binary64.ofInt 10⟩ }

def forestStore : Store :=
  start ⟨[("gather", gatherAction)], [], [], []⟩ [("resources", .mapping [("wood", .int (10 ^ 400))])]
    zeroDraws false

theorem forestStore_timersApart : forestStore.content.TimersApart := by
  refine ⟨by decide, ?_⟩
  intro action hmem block hblock e he
  simp only [forestStore, start, OrderedMap.values, List.map_cons, List.map_nil, List.mem_singleton]
    at hmem
  subst hmem
  simp_all [Content.effectBlocks, gatherAction]

/-- An action on cooldown is not rejected when its reasons cannot be told. -/
theorem forest_fault_on_cooldown :
    forestStore.content.TimersApart ∧ forestStore.state.Distinct ∧
      (forestStore.state.lookup "cooldowns").isVacant = true ∧
      (forestStore.dispatch "gather").1 = .ok (.performed fireDone) ∧
      ((forestStore.dispatch "gather").2.dispatch "gather").1 = .error (.fault .outOfRange) :=
  ⟨forestStore_timersApart, Tree.distinct_of_forall_mem (by decide), by decide +kernel⟩

end Store

end SurvivalRules
