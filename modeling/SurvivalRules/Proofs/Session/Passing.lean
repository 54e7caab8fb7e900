import SurvivalRules.Proofs.Numeric.Order
import SurvivalRules.Proofs.Store.Elapse
import SurvivalRules.Proofs.Store.Lockout
import SurvivalRules.Proofs.Value.Alike
import SurvivalRules.Session

/-!
# What a tick makes ready

A player lets any time pass that can be typed, infinity and not-a-number among them. The gate takes a timer of
not-a-number for one that has run out, and a tick takes it for one that runs on, so the time after which such a
timer is left makes its action ready without a word.
-/
namespace SurvivalRules

open Drawing

theorem Amount.sub_float (a : Amount) (x : Binary64) :
    a.sub (.float x) = a.toBinary64.map fun y => .float (y.sub x) := by
  cases a with
  | int n =>
    simp only [sub, combine]
    cases (Amount.int n).toBinary64 <;> rfl
  | float y => rfl

namespace Gate

variable {timer : Value} {left x : Binary64}

theorem timeLeft_eq (x : Binary64) : timeLeft (.float x) = .ok (if x.isNaN then .zero else x) := rfl

/-- A timer that has time left for the gate has that time as its number. -/
theorem toNumber_of_timeLeft (h : timeLeft timer = .ok left) (hpos : Amount.zero.lt (.float left) = true) :
    timer.toNumber = .ok left := by
  have hnothing : ¬ Amount.zero.lt (.float Binary64.zero) = true := by decide
  unfold timeLeft at h
  split at h
  · cases h
    exact absurd hpos hnothing
  · obtain ⟨n, hn, hlast⟩ := bind_eq_ok_iff.mp h
    cases pure_eq_ok_iff.mp hlast
    split at hpos
    · exact absurd hpos hnothing
    next hnumber => rw [hn, if_neg hnumber]

/-- A tick takes its time off what is left for the gate, if it can. -/
theorem leftOf_eq_sub (h : timeLeft timer = .ok left) (hpos : Amount.zero.lt (.float left) = true)
    {remaining : Amount} (hleft : Store.leftOf (.float x) timer = .ok remaining) :
    remaining = .float (left.sub x) := by
  unfold Store.leftOf at hleft
  split at hleft
  · cases hleft
  next a ha =>
    rw [Amount.sub_float, ← Value.toNumber_of_numeric? ha, toNumber_of_timeLeft h hpos] at hleft
    exact (Except.ok.inj hleft).symm

/-- A timer that a tick has left running holds an action back unless it is not-a-number. -/
theorem exists_remaining_iff {id : String} {state : Tree}
    (h : cooldownRemaining id state = timeLeft (.float x)) (hon : (Amount.float x).le .zero = false) :
    (∃ left, cooldownRemaining id state = .ok left ∧ Amount.zero.lt (.float left) = true) ↔
      ¬ x.isNaN = true := by
  rw [h, timeLeft_eq]
  by_cases hnan : x.isNaN = true
  · rw [if_pos hnan]
    refine iff_of_false ?_ (not_not_intro hnan)
    rintro ⟨left, hleft, hpos⟩
    cases hleft
    exact absurd hpos (by decide)
  · rw [if_neg hnan]
    exact iff_of_true ⟨x, rfl, (Amount.zero_lt_iff (Bool.eq_false_of_not_eq_true hnan)).mpr hon⟩ hnan

end Gate

namespace Store

variable {s s' : Store} {id : String} {left x : Binary64} {ready : List String}

/-- The timer of an action that has to wait is in its section under the id. -/
theorem exists_timer (hleft : Gate.cooldownRemaining id s.state = .ok left)
    (hpos : Amount.zero.lt (.float left) = true) : ∃ timer,
      s.state.section? Section.cooldowns.name = .ok s.timers ∧ (id, timer) ∈ s.timers ∧
      Gate.timeLeft timer = .ok left := by
  rw [Gate.cooldownRemaining_eq] at hleft
  obtain ⟨timers, hsection, hvalue⟩ := bind_eq_ok_iff.mp hleft
  obtain rfl : s.timers = timers := Tree.entries_of_section?_eq_ok hsection
  rw [Tree.lookup] at hvalue
  cases hget : OrderedMap.get? id s.timers with
  | none =>
    rw [hget] at hvalue
    cases hvalue
    exact absurd hpos (by decide)
  | some timer =>
    rw [hget] at hvalue
    exact ⟨timer, hsection, OrderedMap.mem_of_get? hget, hvalue⟩

/-- When time passes, a timer that has time left for the gate goes out with a report, or what it has left is the
difference. -/
theorem timer_after_advance (hd : s.state.DistinctAt "cooldowns")
    (hleft : Gate.cooldownRemaining id s.state = .ok left) (hpos : Amount.zero.lt (.float left) = true)
    (hadvance : s.advance (.float x) = .ok (ready, s')) (hx : (Amount.float x).le .zero = false) :
    (Amount.float (left.sub x)).le .zero = true ∧ id ∈ ready ∧ id ∉ OrderedMap.keys s'.timers ∨
      (Amount.float (left.sub x)).le .zero = false ∧ id ∈ OrderedMap.keys s'.timers ∧
        Gate.cooldownRemaining id s'.state = Gate.timeLeft (.float (left.sub x)) := by
  obtain ⟨timer, hsection, hmem, hvalue⟩ := exists_timer hleft hpos
  rcases advance_eq_ok_iff.mp hadvance with ⟨hle, -⟩ | ⟨-, timers, running, htimers, helapses, rfl⟩
  · rw [hx] at hle
    cases hle
  cases (timersOf_of_section? hsection).symm.trans htimers
  rw [timers_handedOver]
  obtain ⟨remaining, hremaining, hcases⟩ := helapses.of_mem hmem
  obtain rfl := Gate.leftOf_eq_sub hvalue hpos hremaining
  rcases hcases with ⟨hout, hready⟩ | ⟨hon, hstill⟩
  · exact Or.inl ⟨hout, hready, helapses.not_mem_of_le hd hmem hremaining hout⟩
  · refine Or.inr ⟨hon, List.mem_map_of_mem hstill, ?_⟩
    have hget := OrderedMap.get?_of_mem (helapses.sublist.nodup hd) hstill
    rw [state_replace, Gate.cooldownRemaining_of_lookup (Tree.lookup_insert_self _ _ _), Tree.lookup, hget]
    rfl

end Store

namespace Session

/-- The time of a tick that turns what is left of a timer into not-a-number. -/
def Unmakes (x left : Binary64) : Prop :=
  x = .nan ∨ x = .infinity false ∧ left = .infinity false

/-- The tick of a line returned the id among those that are ready, and took its timer away. -/
def Reports (s : Session) (line : String) (x : Binary64) (id : String) : Prop :=
  ∃ ready store, s.store.advance (.float x) = .ok (ready, store) ∧
    s.execute line = (tickLines x ready, { s with store := store }) ∧ id ∈ ready ∧
    id ∉ OrderedMap.keys (store.state.lookup "cooldowns").entries

def IsCooling (s : Session) (id : String) : Prop :=
  ∃ left, Gate.cooldownRemaining id s.store.state = .ok left ∧ Amount.zero.lt (.float left) = true

variable {s : Session} {line id : String} {x left : Binary64}

theorem not_le_zero_of_unmakes (h : Unmakes x left) : (Amount.float x).le .zero = false := by
  rcases h with rfl | ⟨rfl, -⟩ <;> decide

/-- Whatever time a line lets pass, an action that has to wait is afterwards reported and its timer gone, or it
still has to wait, unless that time leaves not-a-number of its timer; then it is neither, if the tick does not
fail as a whole. -/
theorem readied_by_report_iff (hline : Command.read line = .tick x)
    (hd : s.store.state.DistinctAt "cooldowns")
    (hleft : Gate.cooldownRemaining id s.store.state = .ok left)
    (hpos : Amount.zero.lt (.float left) = true) :
    (s.Reports line x id ∨ (s.execute line).2.IsCooling id) ↔
      (Unmakes x left → ∃ cause, s.store.advance (.float x) = .error cause) := by
  cases hadvance : s.store.advance (.float x) with
  | error cause =>
    have hsame : (s.execute line).2 = s := by simp only [execute, hline, run, tick, hadvance]
    rw [hsame]
    exact iff_of_true (Or.inr ⟨left, hleft, hpos⟩) fun _ => ⟨cause, rfl⟩
  | ok out =>
    obtain ⟨ready, store⟩ := out
    have hexecute : s.execute line = (tickLines x ready, { s with store := store }) := by
      simp only [execute, hline, run, tick, hadvance]
    rw [hexecute]
    cases hx : (Amount.float x).le .zero with
    | true =>
      have hsame := hadvance
      rw [Store.advance_of_le_zero s.store hx] at hsame
      cases hsame
      refine iff_of_true (Or.inr ⟨left, hleft, hpos⟩) fun hunmakes => ?_
      rw [not_le_zero_of_unmakes hunmakes] at hx
      cases hx
    | false =>
      rcases Store.timer_after_advance hd hleft hpos hadvance hx with
        ⟨hout, hready, hgone⟩ | ⟨hon, hstill, hremaining⟩
      · refine iff_of_true (Or.inl ⟨ready, store, hadvance, hexecute, hready, hgone⟩) fun hunmakes => ?_
        rw [Amount.isNaN_not_le ((Binary64.isNaN_sub_iff_of_zero_lt hpos).mpr hunmakes)] at hout
        cases hout
      · have hsilent : ¬ s.Reports line x id := by
          rintro ⟨ready', store', hadvance', -, -, hgone⟩
          cases hadvance.symm.trans hadvance'
          exact hgone hstill
        have hcooling : IsCooling { s with store := store } id ↔ ¬ (left.sub x).isNaN = true :=
          Gate.exists_remaining_iff hremaining hon
        rw [or_iff_right hsilent, hcooling, Binary64.isNaN_sub_iff_of_zero_lt hpos]
        simp [Unmakes]

/-- A game in which the fire was lit and cools down for ten seconds. -/
def nightfall : Session := .start (Store.fireStore.dispatch "fire").2 false

theorem nightfall_distinctAt : nightfall.store.state.DistinctAt "cooldowns" := by
  unfold Tree.DistinctAt
  decide +kernel

theorem nightfall_remaining :
    Gate.cooldownRemaining "fire" nightfall.store.state = .ok (Binary64.ofInt 10) := by decide +kernel

theorem endless_night_is_reported :
    Command.read "tick inf" = .tick (.infinity false) ∧
      Gate.cooldownRemaining "fire" nightfall.store.state = .ok (Binary64.ofInt 10) ∧
      (nightfall.Reports "tick inf" (.infinity false) "fire" ∨
        (nightfall.execute "tick inf").2.IsCooling "fire") ∧
      (nightfall.execute "tick inf").1 = .ok ["[Time] infs passed; ready: fire"] := by
  have hline : Command.read "tick inf" = .tick (.infinity false) := by decide +kernel
  have hunmakes : ¬ Unmakes (.infinity false) (Binary64.ofInt 10) := by
    rintro (h | ⟨-, h⟩) <;> exact absurd h (by decide +kernel)
  refine ⟨hline, nightfall_remaining, ?_, by decide +kernel⟩
  exact (readied_by_report_iff hline nightfall_distinctAt nightfall_remaining (by decide +kernel)).mpr
    fun h => absurd h hunmakes

/-- A tick for not-a-number makes the fire ready without a word. -/
theorem nan_readies_silently :
    Command.read "tick nan" = .tick .nan ∧
      Gate.cooldownRemaining "fire" nightfall.store.state = .ok (Binary64.ofInt 10) ∧
      (nightfall.execute "tick nan").1 = .ok ["[Time] nans passed"] ∧
      ¬ (nightfall.Reports "tick nan" .nan "fire" ∨ (nightfall.execute "tick nan").2.IsCooling "fire") ∧
      (nightfall.execute "tick nan").2.store.isExecutable "fire" = .ok true := by
  have hremaining : Gate.cooldownRemaining "fire" (nightfall.execute "tick nan").2.store.state =
      .ok .zero := by decide +kernel
  have hready : (nightfall.store.advance (.float .nan)).map Prod.fst = .ok [] := by decide +kernel
  refine ⟨by decide +kernel, nightfall_remaining, by decide +kernel, ?_, by decide +kernel⟩
  rintro (⟨ready, store, hadvance, -, hmem, -⟩ | ⟨left, hleft, hpos⟩)
  · rw [hadvance] at hready
    cases hready
    cases hmem
  · cases hremaining.symm.trans hleft
    exact absurd hpos (by decide)

end Session

end SurvivalRules
