import SurvivalRules.Proofs.Store.Plain

/-!
# What a plain action reads

A plain action reads the sections that bonuses are computed from, the places of its effects and costs, and
its own timer. In two states that agree on these it is as executable, has the same cooldown, and settles at
the same values.
-/
namespace SurvivalRules

open Drawing

namespace Totals

/-- The sections that bonuses are computed from. -/
def sections : List String := Section.stats.name :: Section.buildings.name :: Slot.all.map Slot.name

theorem ofState_congr (c : Content) {t u : Tree} (h : ∀ k ∈ sections, u.lookup k = t.lookup k) :
    ofState c u = ofState c t := by
  have hstats : u.lookup Section.stats.name = t.lookup Section.stats.name := h _ (by simp [sections])
  have hbuildings : u.lookup Section.buildings.name = t.lookup Section.buildings.name :=
    h _ (by simp [sections])
  have hslots : ∀ slot : Slot, u.lookup slot.name = t.lookup slot.name :=
    fun slot => h _ (by cases slot <;> simp [sections, Slot.all])
  have howned : c.ownedItems u = c.ownedItems t := by
    unfold Content.ownedItems
    exact congrArg (List.flatMap · Slot.all) (funext fun slot => by
      rw [Content.ownedIn, Content.ownedIn, hslots slot])
  have hstart : start u = start t := by
    rw [start, start, statsOf, statsOf, hstats]
  have hstanding : c.standingBuildings u = c.standingBuildings t := by
    rw [Content.standingBuildings, Content.standingBuildings, hbuildings]
  rw [ofState, ofState, howned, hstart, hstanding]

end Totals

/-- The place of the timer of an action. -/
def timerPath (id : String) : StatePath := ⟨"cooldowns." ++ id, "cooldowns", [id]⟩

/-- Whatever a plain action reads is the same in both states. -/
structure ReadsSame (id : String) (p : FlatPlan) (t u : Tree) : Prop where
  bonuses : ∀ k ∈ Totals.sections, u.lookup k = t.lookup k
  effects : ∀ e ∈ p.effects, ∀ q, StatePath.parse e.1 = .ok q → u.get q = t.get q
  cost : ∀ e ∈ p.cost, ∀ q, StatePath.parse e.1 = .ok q → u.get q = t.get q
  timer : u.get (timerPath id) = t.get (timerPath id)
  areas : ∀ k es, t.section? k = .ok es → ∃ es', u.section? k = .ok es'

namespace Gate

variable {t u : Tree} {reduction : Except Fault (Option Amount)}

theorem costFailure_congr {raw : String} (required : Value)
    (h : ∀ q, StatePath.parse raw = .ok q → u.get q = t.get q) :
    costFailure reduction u raw required = costFailure reduction t raw required := by
  unfold costFailure
  cases hq : StatePath.parse raw with
  | error cause => rfl
  | ok q => simp only [h q hq]

theorem canPay_congr {cost : Tree}
    (h : ∀ e ∈ cost, ∀ q, StatePath.parse e.1 = .ok q → u.get q = t.get q) :
    canPay reduction u cost = canPay reduction t cost := by
  induction cost with
  | nil => rfl
  | cons e rest ih =>
    obtain ⟨hfirst, hrest⟩ := List.forall_mem_cons.mp h
    simp only [canPay, costFailure_congr e.2 hfirst, ih hrest]

/-- The time left of a timer is read at its place. -/
theorem cooldownRemaining_eq_ok_iff {id : String} {state : Tree} {x : Binary64} :
    cooldownRemaining id state = .ok x ↔
      (∃ es, state.section? Section.cooldowns.name = .ok es) ∧
        timeLeft (state.get (timerPath id)) = .ok x := by
  rw [cooldownRemaining_eq, bind_eq_ok_iff]
  have hvalue : ∀ es, state.section? Section.cooldowns.name = .ok es →
      state.get (timerPath id) = es.lookup id := by
    intro es hes
    rw [Tree.get_cons (show (timerPath id).rest = [id] from rfl), Value.descend_nil,
      show (timerPath id).head = Section.cooldowns.name from rfl, Tree.entries_of_section?_eq_ok hes]
  constructor
  · rintro ⟨es, hes, hleft⟩
    exact ⟨⟨es, hes⟩, by rwa [hvalue es hes]⟩
  · rintro ⟨⟨es, hes⟩, hleft⟩
    exact ⟨es, hes, by rwa [← hvalue es hes]⟩

end Gate

namespace ReadsSame

variable {c : Content} {id : String} {p : FlatPlan} {t u : Tree} {amplify : Bool}

theorem isExecutable (h : ReadsSame id p t u) {a : Action} (ha : c.action? id = some a)
    (hflat : a.plan = .flat p) (hexec : Gate.isExecutable c id t = .ok true) :
    Gate.isExecutable c id u = .ok true := by
  obtain ⟨hready, a', tier, cost, ha', htier, hcost, hpay⟩ := Gate.isExecutable_spec hexec
  cases ha.symm.trans ha'
  cases (Store.tier_of_flat hflat t).symm.trans htier
  cases hcost
  obtain ⟨left, hleft, hlast⟩ := bind_eq_ok_iff.mp hready
  obtain ⟨⟨es, hes⟩, hvalue⟩ := Gate.cooldownRemaining_eq_ok_iff.mp hleft
  have hleft' : Gate.cooldownRemaining id u = .ok left :=
    Gate.cooldownRemaining_eq_ok_iff.mpr ⟨h.areas _ es hes, h.timer ▸ hvalue⟩
  have hready' : Gate.isCoolingDown id u = .ok false := by
    rw [Gate.isCoolingDown_of_remaining hleft']
    exact hlast
  have hreduction : Gate.gateReduction c a u = Gate.gateReduction c a t := by
    rw [Gate.gateReduction, Gate.gateReduction, Totals.ofState_congr c h.bonuses]
  simp only [Gate.isExecutable, ha, hready', Store.tier_of_flat hflat u, bind, Except.bind,
    Bool.false_eq_true, if_false]
  rw [hreduction, Gate.canPay_congr h.cost, hpay]

theorem effectiveCooldown (h : ReadsSame id p t u) {a : Action} (ha : c.action? id = some a)
    (hflat : a.plan = .flat p) : Gate.effectiveCooldown c id u = Gate.effectiveCooldown c id t := by
  simp only [Gate.effectiveCooldown, ha, Store.tier_of_flat hflat, Totals.ofState_congr c h.bonuses]

theorem circumstances (h : ReadsSame id p t u) {a : Action} {around : Circumstances}
    (haround : Resolution.circumstances c a t = .ok around) :
    Resolution.circumstances c a u = .ok { around with state := u } := by
  obtain ⟨totals, htotals, hrest⟩ := bind_eq_ok_iff.mp haround
  obtain ⟨bonus, hbonus, hlast⟩ := bind_eq_ok_iff.mp hrest
  cases pure_eq_ok_iff.mp hlast
  refine bind_eq_ok_iff.mpr ⟨totals, by rw [Totals.ofState_congr c h.bonuses, htotals], ?_⟩
  exact bind_eq_ok_iff.mpr ⟨bonus, hbonus, rfl⟩

theorem amountBefore (h : ReadsSame id p t u) {e : String × Value} (he : e ∈ p.effects) {q : StatePath}
    (hq : StatePath.parse e.1 = .ok q) {name : String} (hname : q.resource? = some name) {x : Amount}
    (hx : SurvivalRules.amountBefore t name = .ok x) : SurvivalRules.amountBefore u name = .ok x := by
  obtain ⟨hhead, hrest⟩ := StatePath.resource?_eq_some_iff.mp hname
  obtain ⟨held, hheld, -⟩ := bind_eq_ok_iff.mp hx
  obtain ⟨held', hheld'⟩ := h.areas _ held hheld
  have hx' : SurvivalRules.amountBefore u name =
      .ok (((OrderedMap.get? name held').bind Value.amount?).getD .zero) := by
    simp only [SurvivalRules.amountBefore, hheld', bind, Except.bind]
    rfl
  rw [hx', amountBefore_eq_ok hhead hrest hx, ← h.effects e he q hq, ← amountBefore_eq_ok hhead hrest hx']

/-- Entries settle at the same values in both states. -/
theorem settled (h : ReadsSame id p t u) {around : Circumstances} (hstate : around.state = t)
    {e : String × Value} (he : e ∈ p.effects) {q : StatePath} (hq : StatePath.parse e.1 = .ok q)
    {w : Value} (hw : SurvivalRules.settled around amplify q e.2 = .ok w) :
    SurvivalRules.settled { around with state := u } amplify q e.2 = .ok w := by
  subst hstate
  obtain ⟨total, htotal, hlast⟩ := bind_eq_ok_iff.mp hw
  have htotal' : addedUp { around with state := u } q e.2 = .ok total := by
    rw [← htotal]
    simp only [addedUp, h.effects e he q hq]
  refine bind_eq_ok_iff.mpr ⟨total, htotal', ?_⟩
  cases hname : q.resource? with
  | none =>
    rw [hname] at hlast
    exact hlast
  | some name =>
    rw [hname] at hlast
    obtain ⟨v, hv, hclamped⟩ := bind_eq_ok_iff.mp hlast
    refine bind_eq_ok_iff.mpr ⟨v, ?_, hclamped⟩
    cases hamount : total.amount? with
    | none =>
      rw [rescaled_of_none hamount] at hv ⊢
      exact hv
    | some new =>
      obtain ⟨scaled, t', hscaled, rfl⟩ := (rescaled_eq_ok_iff hamount (Trace.empty "Effects")).mp hv
      refine (rescaled_eq_ok_iff hamount (Trace.empty "Effects")).mpr ⟨scaled, t', ?_, rfl⟩
      obtain ⟨before, hbefore, hrest⟩ := bind_eq_ok_iff.mp hscaled
      exact bind_eq_ok_iff.mpr ⟨before, h.amountBefore he hq hname hbefore, hrest⟩

theorem settles (h : ReadsSame id p t u) {around : Circumstances} (hstate : around.state = t)
    {writes : List (StatePath × Value)} (hsettles : Settles around amplify p.effects writes) :
    Settles { around with state := u } amplify p.effects writes := by
  have hall : ∀ effects : Tree, effects ⊆ p.effects → ∀ writes,
      Settles around amplify effects writes →
        Settles { around with state := u } amplify effects writes := by
    intro effects hsub writes hsettles
    induction hsettles with
    | nil => exact .nil
    | cons hfirst _ ih =>
      obtain ⟨hmem, hrest⟩ := List.cons_subset.mp hsub
      exact .cons ⟨hfirst.1, h.settled hstate hmem hfirst.1.parses hfirst.2⟩ (ih hrest)
  exact hall p.effects (List.Subset.refl _) writes hsettles

end ReadsSame

end SurvivalRules
