import SurvivalRules.Proofs.Discount
import SurvivalRules.Proofs.Gate.Affordability
import SurvivalRules.Proofs.Totals.OneMore

/-!
# Gaining an item keeps crafting affordable

Only crafting is discounted where a price is compared with what is held. An item that is gained takes nothing off
the resources, and with it no price is higher: each step from the total reduction to the price keeps the order.
-/
namespace SurvivalRules

/-- Nothing but resources is asked for, and no number below zero. -/
def Tree.AsksResources (cost : Tree) : Prop :=
  ∀ e ∈ cost, (∀ p, StatePath.parse e.1 = .ok p → p.accumulates = true) ∧
    ∀ price ∈ e.2.amount?, Amount.zero.le price = true

instance (cost : Tree) : Decidable cost.AsksResources := inferInstanceAs (Decidable (∀ e ∈ cost, _ ∧ _))

theorem Tree.readsAtMost_of_get_eq {s t : Tree} {p : StatePath} (h : t.get p = s.get p) : s.ReadsAtMost t p := by
  intro x y hx hy
  rw [h] at hy
  cases hx.symm.trans hy
  cases hnan : x.isNaN with
  | true => exact Or.inl rfl
  | false => exact Or.inr (Amount.le_self hnan)

namespace Gate

variable {c : Content} {id : String} {a : Action} {i : Item} {mark : Value} {state : Tree} {t t' : Totals}

theorem gateReduction_of_isCrafting (hcraft : a.isCrafting = true) {share : Option Amount}
    (h : gateReduction c a state = .ok share) :
    ∃ t, Totals.ofState c state = .ok t ∧ share = some (.float t.craftingCostReduction) := by
  obtain ⟨t, ht, hlast⟩ := bind_eq_ok_iff.mp h
  rw [Action.gateReduction, if_pos hcraft] at hlast
  exact ⟨t, ht, (pure_eq_ok_iff.mp hlast).symm⟩

theorem asksNoMore_of_gained (hc : c.IsFiled) (hcraft : a.isCrafting = true) (hi : c.item? i.id = some i)
    (hmark : mark.truthy = true) (hnot : i ∉ c.ownedItems state) {price : Amount} (h0 : Amount.zero.le price = true) :
    AsksNoMore (gateReduction c a state) (gateReduction c a (Content.gained state i mark)) price := by
  intro share share' need need' hshare hshare' hneed hneed' held hheld
  obtain ⟨t, ht, rfl⟩ := gateReduction_of_isCrafting hcraft hshare
  obtain ⟨t', ht', rfl⟩ := gateReduction_of_isCrafting hcraft hshare'
  obtain ⟨hmore, -⟩ := Totals.reductions_of_gained hc hi hmark hnot ht ht'
  exact Amount.le_trans (adjustedCost_antitone hmore h0 hneed hneed') hheld

/-- When all that a crafting action asks for are amounts of resources and the action can be done, then it can be done
with one item more, whatever that item supersedes, or the gate does not answer there. -/
theorem isExecutable_of_gained (hc : c.IsLoaded) (ha : c.action? id = some a) (hcraft : a.isCrafting = true)
    (hasks : ∀ tier cost, a.tier state = .ok tier → tier.cost = some cost → cost.AsksResources)
    (hi : c.item? i.id = some i) (hnot : i ∉ c.ownedItems state) (hmark : mark.truthy = true)
    (hexec : isExecutable c id state = .ok true) {executable : Bool}
    (hreturns : isExecutable c id (Content.gained state i mark) = .ok executable) : executable = true := by
  obtain ⟨hready, a', tier, cost, ha', htier, hcost, hpay⟩ := isExecutable_spec hexec
  cases ha.symm.trans ha'
  have hresources := hasks tier cost htier hcost
  have helse : ∀ k, i.slot.name ≠ k → (Content.gained state i mark).lookup k = state.lookup k := fun k hk =>
    Tree.lookup_write_of_ne hk state mark [i.id]
  have hbuildings : i.slot.name ≠ Section.buildings.name := by cases i.slot <;> decide
  have hcooldowns : i.slot.name ≠ Section.cooldowns.name := by cases i.slot <;> decide
  have hheld : i.slot.name ≠ Section.resources.name := by cases i.slot <;> decide
  simp only [isExecutable, ha, isCoolingDown_congr (helse _ hcooldowns), hready,
    Action.tier_congr (helse _ hbuildings), htier, hcost, bind, Except.bind, Bool.false_eq_true, if_false] at hreturns
  refine canPay_of_readsAtMost (fun e he p hp hacc => ?_) (fun e _ _ p _ hacc => ?_) (fun e he price hprice => ?_)
    hpay hreturns
  · cases hacc.symm.trans ((hresources e he).1 p hp)
  · refine Tree.readsAtMost_of_get_eq ?_
    rw [Tree.get_eq_descend, Tree.get_eq_descend, StatePath.accumulates_iff.mp hacc, helse _ hheld]
  · exact asksNoMore_of_gained hc.isFiled hcraft hi hmark hnot ((hresources e he).2 price hprice)

end Gate

/-- A tool that takes a share off all that is crafted. -/
def hammer (id : String) (share : ℚ) : Item :=
  ⟨id, id, "", .tools, [], { GeneralBonuses.none with craftingCostReduction := Binary64.nearest share }⟩

def hammers : EquipmentFamily := ⟨"hammers", .tools, ["stoneHammer", "ironHammer"]⟩

def smithy : Content :=
  ⟨[("forgeSword", pricedAt "forgeSword" [("resources.iron", .int 9), ("resources.coal", .float Binary64.one)])],
    [("stoneHammer", hammer "stoneHammer" (1 / 2)), ("ironHammer", hammer "ironHammer" (1 / 4))],
    [("hammers", hammers)], []⟩

def smith : Tree :=
  [("tools", .mapping [("stoneHammer", .bool true)]), ("resources", .mapping [("iron", .int 4)])]

theorem smith_still_forges :
    Content.ofRecords (smithy.actions.map (·.2.toValue)) (smithy.items.map (·.2.toValue))
        [(Family.equipment hammers).toValue] = .ok smithy ∧
      Gate.isExecutable smithy "forgeSword" smith = .ok true ∧
      smithy.superseded (smithy.ownedItems (Content.gained smith (hammer "ironHammer" (1 / 4)) (.bool true))) =
        ["stoneHammer"] ∧
      ∃ executable, Gate.isExecutable smithy "forgeSword"
        (Content.gained smith (hammer "ironHammer" (1 / 4)) (.bool true)) = .ok executable ∧ executable = true := by
  have hload : Content.ofRecords (smithy.actions.map (·.2.toValue)) (smithy.items.map (·.2.toValue))
      [(Family.equipment hammers).toValue] = .ok smithy := by decide +kernel
  have hexec : Gate.isExecutable smithy "forgeSword" smith = .ok true := by decide +kernel
  have hreturns : Gate.isExecutable smithy "forgeSword"
      (Content.gained smith (hammer "ironHammer" (1 / 4)) (.bool true)) = .ok true := by decide +kernel
  have ha : smithy.action? "forgeSword" =
      some (pricedAt "forgeSword" [("resources.iron", .int 9), ("resources.coal", .float Binary64.one)]) := by
    decide +kernel
  refine ⟨hload, hexec, by decide +kernel, true, hreturns, ?_⟩
  refine Gate.isExecutable_of_gained (Or.inl ⟨_, _, _, hload⟩) ha (by decide +kernel) ?_ (by decide +kernel)
    (by decide +kernel) rfl hexec hreturns
  intro tier cost htier hcost
  cases pure_eq_ok_iff.mp htier
  cases hcost
  decide +kernel

end SurvivalRules
