import SurvivalRules.Proofs.Store.Dispatch

/-!
# No debts

A commit forgives every debt among the resources and leaves everything else as it was merged. Time that
passes does not touch the resources, so no debt comes back until the state is replaced.
-/
namespace SurvivalRules

open Drawing

/-- What a store is asked to do. The time and the state may be any values. -/
inductive Request where
  | dispatch (id : String)
  | tick (seconds : Value)
  | replace (state : Value)

def Value.IsDebt (v : Value) : Prop := ∃ a, v.amount? = some a ∧ a.lt .zero = true

/-- No number directly among the resources is below zero. -/
def Tree.DebtFree (state : Tree) : Prop :=
  ∀ held, state.lookup Section.resources.name = .mapping held → ∀ e ∈ held, ¬ e.2.IsDebt

/-- The values are the same, except that zero stands for a debt. -/
def ForgivenEntry (e e' : String × Value) : Prop :=
  e'.1 = e.1 ∧ (e.2.IsDebt ∧ e'.2 = .int 0 ∨ ¬ e.2.IsDebt ∧ e'.2 = e.2)

/-- A state that differs from the merged one at most in debts among the resources, which became zero. -/
structure Forgiven (merged state : Tree) : Prop where
  keys : OrderedMap.keys state = OrderedMap.keys merged
  others : ∀ k, k ≠ Section.resources.name → state.lookup k = merged.lookup k
  mapped : ∀ held, merged.lookup Section.resources.name = .mapping held →
    ∃ kept, state.lookup Section.resources.name = .mapping kept ∧ List.Forall₂ ForgivenEntry held kept
  unmapped : (∀ held, merged.lookup Section.resources.name ≠ .mapping held) →
    state.lookup Section.resources.name = merged.lookup Section.resources.name

namespace Store

variable {s s' : Store} {id : String}

/-- A request that fails leaves the store as it is, but for the draws that a dispatch took. -/
def serve (s : Store) : Request → Store
  | .dispatch id => (s.dispatch id).2
  | .tick seconds =>
    match s.tick seconds with
    | .ok (_, next) => next
    | .error _ => s
  | .replace state =>
    match s.replaceWith state with
    | .ok next => next
    | .error _ => s

def serveAll (s : Store) (requests : List Request) : Store := requests.foldl serve s

theorem clampAmount_spec (v : Value) :
    v.IsDebt ∧ clampAmount v = .int 0 ∨ ¬ v.IsDebt ∧ clampAmount v = v := by
  unfold clampAmount Value.IsDebt
  cases v.amount? with
  | none => simp
  | some a => cases hlt : a.lt .zero <;> simp [hlt]

theorem not_isDebt_clampAmount (v : Value) : ¬ (clampAmount v).IsDebt := by
  rintro ⟨a, ha, hlt⟩
  cases (not_lt_zero_clampAmount ha).symm.trans hlt

theorem forgivenEntry_mapValues (held : Tree) :
    List.Forall₂ ForgivenEntry held (OrderedMap.mapValues clampAmount held) := by
  induction held with
  | nil => exact .nil
  | cons e rest ih => exact .cons ⟨rfl, clampAmount_spec e.2⟩ ih

theorem debtFree_clampResources (merged : Tree) : (clampResources merged).DebtFree := by
  intro held hheld e he
  unfold clampResources at hheld
  split at hheld
  next unclamped hunclamped =>
    rw [Tree.lookup_insert_self] at hheld
    cases hheld
    obtain ⟨e₀, -, rfl⟩ := List.mem_map.mp he
    exact not_isDebt_clampAmount e₀.2
  next hother => exact absurd hheld (hother held)

theorem forgiven_clampResources (merged : Tree) : Forgiven merged (clampResources merged) where
  keys := by
    unfold clampResources
    split
    next held hheld =>
      have hmem : Section.resources.name ∈ OrderedMap.keys merged := by
        by_contra hnot
        rw [Tree.lookup_of_not_mem hnot] at hheld
        cases hheld
      rw [OrderedMap.keys_insert, if_pos hmem]
    next => rfl
  others := fun k hk => lookup_clampResources_of_ne hk merged
  mapped := by
    intro held hheld
    refine ⟨_, ?_, forgivenEntry_mapValues held⟩
    simp only [clampResources, hheld, Tree.lookup_insert_self]
  unmapped := by
    intro hother
    unfold clampResources
    split
    next held hheld => exact absurd hheld (hother held)
    next => rfl

/-- Time that passes touches nothing but the running timers. -/
theorem lookup_tick_of_ne {seconds : Value} {ready : List String} {k : String}
    (hk : k ≠ Section.cooldowns.name) (h : s.tick seconds = .ok (ready, s')) :
    s'.state.lookup k = s.state.lookup k := by
  unfold tick at h
  split at h
  next t ht =>
    unfold advance at h
    split at h
    · cases h
      rfl
    · obtain ⟨timers, -, h⟩ := bind_eq_ok_iff.mp h
      obtain ⟨⟨running, out⟩, -, h⟩ := bind_eq_ok_iff.mp h
      cases pure_eq_ok_iff.mp h
      exact Tree.lookup_insert_of_ne (Ne.symm hk) s.state _
  next => cases h

theorem debtFree_serve (hs : s.state.DebtFree) {request : Request} (hkeep : ∀ v, request ≠ .replace v) :
    (s.serve request).state.DebtFree := by
  cases request with
  | dispatch id =>
    rcases dispatch_cases s id with ⟨result, hdone⟩ | ⟨hstate, -⟩
    · obtain ⟨-, r, d, delta, -, -, hstate, -⟩ := exists_delta_of_dispatch hdone
      simp only [serve, hstate]
      exact debtFree_clampResources _
    · simp only [serve, hstate]
      exact hs
  | tick seconds =>
    simp only [serve]
    split
    next ready next htick =>
      intro held hheld
      rw [lookup_tick_of_ne (by decide) htick] at hheld
      exact hs held hheld
    next => exact hs
  | replace v => exact absurd rfl (hkeep v)

theorem debtFree_serveAll (hs : s.state.DebtFree) {requests : List Request}
    (hkeep : ∀ request ∈ requests, ∀ v, request ≠ .replace v) :
    (s.serveAll requests).state.DebtFree := by
  induction requests generalizing s with
  | nil => exact hs
  | cons request rest ih =>
    obtain ⟨hfirst, hrest⟩ := List.forall_mem_cons.mp hkeep
    exact ih (debtFree_serve hs hfirst) hrest

/-- Take any requests to any store, then an action that is done. Its commit merges its final delta and only
forgives debts; and whatever is asked for later, the resources are free of debts until the state is
replaced. -/
theorem committed_resources_debtFree {s₁ : Store} {before later : List Request} {result : Performed}
    (hdone : (s.serveAll before).dispatch id = (.ok (.performed result), s₁))
    (hkeep : ∀ request ∈ later, ∀ v, request ≠ .replace v) :
    (s₁.serveAll later).state.DebtFree ∧
      ∃ r d delta, Returns (resolve (s.serveAll before).content id (s.serveAll before).state
          (s.serveAll before).amplify) (s.serveAll before).draws r d ∧
        recordAll (s.serveAll before).state r.delta (bookkeeping id result.cooldown) = .ok delta ∧
        Forgiven (Delta.merge (s.serveAll before).state delta) s₁.state := by
  obtain ⟨-, r, d, delta, hreturns, hrecord, hstate, -⟩ := exists_delta_of_dispatch hdone
  have hclamped : s₁.state = clampResources (Delta.merge (s.serveAll before).state delta) := hstate
  refine ⟨debtFree_serveAll ?_ hkeep, r, d, delta, hreturns, hrecord, ?_⟩
  · rw [hclamped]
    exact debtFree_clampResources _
  · rw [hclamped]
    exact forgiven_clampResources _

/-- Loses between two and nine of the gold. -/
def gamble : Action where
  id := "gamble"
  label := "Gamble"
  description := ""
  category := none
  statsEffects := []
  craftingCostReduction := Binary64.zero
  buildingCostReduction := Binary64.zero
  plan := .flat ⟨some [], [], [("resources.gold", .text "random(-9,-2)")], Binary64.zero⟩

/-- One piece of gold, a debt from before, and a word among the resources. -/
def gambler : Store :=
  start ⟨[("gamble", gamble)], [], [], []⟩
    [("resources", .mapping [("gold", .int 1), ("meat", .int (-4)), ("note", .text "owed")])] zeroDraws
    false

def gambled : Performed :=
  ⟨[], [], Binary64.zero, ["[Effects] resources.gold: random(-9,-2) rolled -9"]⟩

def ruined : Store := ((gambler.serveAll [.tick (.int 1)]).dispatch "gamble").2

theorem ruined_debtFree :
    ruined.state.lookup "resources" =
        .mapping [("gold", .int 0), ("meat", .int 0), ("note", .text "owed")] ∧
      (ruined.serveAll [.dispatch "gamble", .tick (.int 3)]).state.DebtFree := by
  have hdone : (gambler.serveAll [.tick (.int 1)]).dispatch "gamble" = (.ok (.performed gambled), ruined) :=
    Prod.ext (by decide +kernel) rfl
  have hlater : ∀ request ∈ [Request.dispatch "gamble", .tick (.int 3)], ∀ v, request ≠ .replace v := by
    simp
  exact ⟨by decide +kernel, (committed_resources_debtFree hdone hlater).1⟩

end Store

end SurvivalRules
