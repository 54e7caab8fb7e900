import SurvivalRules.Proofs.Gate
import SurvivalRules.Proofs.Resolve.Orderly
import SurvivalRules.Proofs.Store.Cooldown

/-!
# The gate answers

In an orderly state whose resources are of moderate size, every question to the gate has an answer: whether
an action is shown, whether it can be done, what is missing, what it costs and how long it rests.
-/
namespace SurvivalRules

/-- The resources are whole numbers that binary64 holds without loss. -/
def Tree.Bounded (t : Tree) : Prop :=
  ∀ e ∈ (t.lookup Section.resources.name).entries, e.2.Within significandBound

theorem Value.isSmall_of_within {v : Value} {n : ℕ} (h : v.Within n) (hn : n ≤ significandBound) :
    v.IsSmall := by
  obtain ⟨k, rfl, hk⟩ := h
  exact isSmall_int (hk.trans hn)

theorem StatePath.isPlain_cases {q : StatePath} (h : q.isPlain = true) : ∃ area name,
    area ∈ Section.counters ++ Section.marks ∧ q.head = area.name ∧ q.rest = [name] := by
  simp only [isPlain, Bool.and_eq_true, List.contains_iff_mem, decide_eq_true_eq] at h
  obtain ⟨harea, hlength⟩ := h
  obtain ⟨name, hname⟩ := List.length_eq_one_iff.mp hlength
  have hne : q.area ≠ .other := fun he => absurd (he ▸ harea) (by decide)
  exact ⟨q.area, name, harea, Section.name_of_ofName rfl hne, hname⟩

section

variable {c : Content} {state : Tree} (hstate : state.Orderly c) (hbound : state.Bounded)
include hstate hbound

theorem isSmall_get {q : StatePath} (hq : q.isPlain = true) : (state.get q).IsSmall := by
  obtain ⟨area, name, harea, hhead, hrest⟩ := StatePath.isPlain_cases hq
  rcases List.mem_append.mp harea with hcounter | hmark
  · simp only [Section.counters, List.mem_cons, List.not_mem_nil, or_false] at hcounter
    rcases hcounter with rfl | rfl | rfl
    · have hheld : state.HoldsOnly Section.resources.name fun _ v => v.Within significandBound :=
        hstate.resources.imp fun e he _ => hbound e he
      rcases hheld.get hhead hrest with hnull | hwithin
      · exact hnull ▸ Value.isSmall_null
      · exact Value.isSmall_of_within hwithin le_rfl
    · rcases hstate.buildings.get hhead hrest with hnull | ⟨-, hwithin⟩
      · exact hnull ▸ Value.isSmall_null
      · exact Value.isSmall_of_within hwithin (by decide)
    · rcases hstate.stats.get hhead hrest with hnull | hwithin
      · exact hnull ▸ Value.isSmall_null
      · exact Value.isSmall_of_within hwithin (by decide)
  · rcases (hstate.mark hmark).get hhead hrest with hnull | ⟨b, hb⟩
    · exact hnull ▸ Value.isSmall_null
    · exact hb ▸ Value.isSmall_bool b

theorem exists_term_holds {t : Term} (ht : t.isPlain = true) : ∃ b, t.holds state = .ok b := by
  obtain ⟨hpath, hright⟩ := Bool.and_eq_true_iff.mp ht
  have hnumber : ∀ p op s, t ≠ .compare p op (.text s) := by
    rintro p op s rfl
    cases hright
  exact Term.exists_holdsOf hnumber (isSmall_get hstate hbound hpath)

theorem exists_clauseHolds {clause : List Term} (hplain : ∀ t ∈ clause, t.isPlain = true) :
    ∃ b, clauseHolds state clause = .ok b := by
  induction clause with
  | nil => exact ⟨false, rfl⟩
  | cons t rest ih =>
    obtain ⟨hfirst, hrest⟩ := List.forall_mem_cons.mp hplain
    obtain ⟨b, hb⟩ := exists_term_holds hstate hbound hfirst
    obtain ⟨more, hmore⟩ := ih hrest
    simp only [clauseHolds, hb, bind, Except.bind]
    split
    · exact ⟨true, rfl⟩
    · exact ⟨more, hmore⟩

theorem exists_clausesHold {clauses : List (List Term)}
    (hplain : ∀ clause ∈ clauses, ∀ t ∈ clause, t.isPlain = true) :
    ∃ b, clausesHold state clauses = .ok b := by
  induction clauses with
  | nil => exact ⟨true, rfl⟩
  | cons clause rest ih =>
    obtain ⟨hfirst, hrest⟩ := List.forall_mem_cons.mp hplain
    obtain ⟨b, hb⟩ := exists_clauseHolds hstate hbound hfirst
    obtain ⟨more, hmore⟩ := ih hrest
    simp only [clausesHold, hb, bind, Except.bind]
    split
    · exact ⟨more, hmore⟩
    · exact ⟨false, rfl⟩

/-- The conditions of orderly content can be answered. -/
theorem exists_condition_holds (hc : c.Orderly) {text : String} (htext : text ∈ c.conditionTexts)
    {condition : Condition} (hread : Condition.read text = .ok condition) :
    ∃ b, condition.holds state = .ok b :=
  exists_clausesHold hstate hbound (hc.conditions text htext condition hread)

section

variable {e : String × Value} (he : requirementFits e = true)
include he

theorem exists_holds : ∃ b, Requirement.holds e.1 e.2 state = .ok b := by
  obtain ⟨hpath, -⟩ := Bool.and_eq_true_iff.mp he
  unfold Requirement.holds
  cases hq : StatePath.parse e.1 with
  | error cause => simp [hq, Except.toOption] at hpath
  | ok q =>
    rw [hq] at hpath
    obtain ⟨b, hb⟩ := Requirement.exists_holdsOf e.2 (isSmall_get hstate hbound hpath)
    exact ⟨b, by simp only [hb]⟩

theorem exists_failureText : ∃ text, Requirement.failureText e.1 e.2 state = .ok text := by
  obtain ⟨hpath, hwritable⟩ := Bool.and_eq_true_iff.mp he
  have hcurrent : (Requirement.currentValue e.1 state).IsSmall := by
    unfold Requirement.currentValue
    cases hq : StatePath.parse e.1 with
    | error cause => exact Value.isSmall_null
    | ok q =>
      rw [hq] at hpath
      exact isSmall_get hstate hbound hpath
  obtain ⟨text, htext⟩ := Requirement.exists_describeCurrent hcurrent
  have hexpected : e.2.described = .ok e.2.describe := by simp [Value.described, hwritable]
  exact ⟨_, bind_eq_ok_iff.mpr ⟨_, hexpected, bind_eq_ok_iff.mpr ⟨text, htext, rfl⟩⟩⟩

end

section

variable {block : Tree} (hblock : ∀ e ∈ block, requirementFits e = true)
include hblock

theorem exists_allHold : ∃ b, Requirement.allHold state block = .ok b := by
  induction block with
  | nil => exact ⟨true, rfl⟩
  | cons e rest ih =>
    obtain ⟨path, expected⟩ := e
    obtain ⟨hfirst, hrest⟩ := List.forall_mem_cons.mp hblock
    obtain ⟨b, hb⟩ := exists_holds hstate hbound hfirst
    obtain ⟨more, hmore⟩ := ih hrest
    simp only [Requirement.allHold, hb, bind, Except.bind]
    split
    · exact ⟨more, hmore⟩
    · exact ⟨false, rfl⟩

theorem exists_failures : ∃ lines, Requirement.failures state block = .ok lines := by
  induction block with
  | nil => exact ⟨[], rfl⟩
  | cons e rest ih =>
    obtain ⟨path, expected⟩ := e
    obtain ⟨hfirst, hrest⟩ := List.forall_mem_cons.mp hblock
    obtain ⟨b, hb⟩ := exists_holds hstate hbound hfirst
    obtain ⟨line, hline⟩ := exists_failureText hstate hbound hfirst
    obtain ⟨more, hmore⟩ := ih hrest
    have hmet : Requirement.met path expected state = .ok b := by simp only [Requirement.met, hb]
    simp only [Requirement.failures, hmet, bind, Except.bind]
    split
    · exact ⟨more, hmore⟩
    · exact ⟨line :: more, by rw [hline, hmore]; rfl⟩

end

end

theorem showWhen_mem_showBlocks {a : Action} {state : Tree} {tier : Tier} {block : Tree}
    (h : a.tier state = .ok tier) (hb : tier.showWhen = some block) : block ∈ Content.showBlocks a := by
  unfold Action.tier at h
  unfold Content.showBlocks
  cases hplan : a.plan with
  | flat p =>
    rw [hplan] at h
    cases pure_eq_ok_iff.mp h
    have hblock : p.showWhen = some block := hb
    simp [hblock]
  | tiered p =>
    rw [hplan] at h
    obtain ⟨level, -, hlast⟩ := bind_eq_ok_iff.mp h
    cases pure_eq_ok_iff.mp hlast
    exact List.mem_map_of_mem (OrderedMap.mem_of_get? hb)

theorem cost_mem_costBlocks {a : Action} {state : Tree} {tier : Tier} {cost : Tree}
    (h : a.tier state = .ok tier) (hcost : tier.cost = some cost) : cost ∈ Content.costBlocks a := by
  unfold Action.tier at h
  unfold Content.costBlocks
  cases hplan : a.plan with
  | flat p =>
    rw [hplan] at h
    cases pure_eq_ok_iff.mp h
    cases hcost
    exact List.mem_singleton_self _
  | tiered p =>
    rw [hplan] at h
    obtain ⟨level, -, hlast⟩ := bind_eq_ok_iff.mp h
    cases pure_eq_ok_iff.mp hlast
    exact List.mem_map_of_mem (OrderedMap.mem_of_get? hcost)

namespace Gate

variable {c : Content} {state : Tree}

theorem exists_cooldownRemaining (hstate : state.Orderly c) (id : String) :
    ∃ left, cooldownRemaining id state = .ok left := by
  rw [cooldownRemaining_of_lookup hstate.cooldowns.lookup_eq]
  rcases hstate.cooldowns.entry id with hnull | ⟨-, x, hx⟩
  · rw [hnull]
    exact ⟨_, rfl⟩
  · rw [hx]
    exact ⟨_, rfl⟩

theorem exists_isCoolingDown (hstate : state.Orderly c) (id : String) :
    ∃ b, isCoolingDown id state = .ok b := by
  obtain ⟨left, hleft⟩ := exists_cooldownRemaining hstate id
  exact ⟨_, bind_eq_ok_iff.mpr ⟨left, hleft, rfl⟩⟩

theorem exists_gateReduction (hc : c.IsModest) (hstate : state.Orderly c) (a : Action) :
    ∃ reduction, gateReduction c a state = .ok reduction ∧
      ∀ r, reduction = some r → ∃ x, r = .float x ∧ GeneralBonuses.isShare x = true := by
  obtain ⟨t, ht, -⟩ := hstate.exists_totals hc
  obtain ⟨hcrafting, -⟩ := Totals.isShare_ofState hc.shares ht
  refine ⟨_, bind_eq_ok_iff.mpr ⟨t, ht, rfl⟩, fun r hr => ?_⟩
  unfold Action.gateReduction at hr
  split at hr
  · exact ⟨_, (Option.some.inj hr).symm, hcrafting⟩
  · cases hr

theorem exists_of_costFits {e : String × Value} (h : costFits e = true) :
    ∃ (q : StatePath) (n : ℤ), StatePath.parse e.1 = .ok q ∧ q.isPlain = true ∧ q.accumulates = true ∧
      e.2 = .int n ∧ n.natAbs ≤ largestDeclared := by
  simp only [costFits, Bool.and_eq_true, decide_eq_true_eq] at h
  obtain ⟨hpath, n, hn, hle⟩ := h
  cases hq : StatePath.parse e.1 with
  | error cause => simp [hq, Except.toOption] at hpath
  | ok q =>
    rw [hq] at hpath
    obtain ⟨name, hname⟩ := Option.isSome_iff_exists.mp hpath
    obtain ⟨hhead, hrest⟩ := StatePath.resource?_eq_some_iff.mp hname
    have harea : q.area = .resources := Section.ofName_eq_resources_iff.mpr hhead
    refine ⟨q, n, rfl, ?_, StatePath.accumulates_iff.mpr hhead, hn, hle⟩
    simp [StatePath.isPlain, harea, hrest, Section.counters]

theorem exists_effectiveCooldown (hc : c.IsModest) (hstate : state.Orderly c) (id : String) :
    ∃ cooldown, effectiveCooldown c id state = .ok cooldown := by
  unfold effectiveCooldown
  cases c.action? id with
  | none => exact ⟨_, rfl⟩
  | some a =>
    obtain ⟨tier, htier⟩ := hstate.exists_tier a
    obtain ⟨t, ht, hwithin⟩ := hstate.exists_totals hc
    obtain ⟨bonus, hbonus, -⟩ := hwithin.exists_forAction (by decide) a.id a.category
    exact ⟨_, bind_eq_ok_iff.mpr ⟨tier, htier, bind_eq_ok_iff.mpr ⟨t, ht,
      bind_eq_ok_iff.mpr ⟨bonus, hbonus, rfl⟩⟩⟩⟩

section

variable {reduction : Option Amount}
  (hreduction : ∀ r, reduction = some r → ∃ x, r = .float x ∧ GeneralBonuses.isShare x = true)
include hreduction

theorem exists_costPart (path : String) {n : ℤ} (hn : n.natAbs ≤ largestDeclared) :
    ∃ part, costPart? reduction path (.int n) = .ok part := by
  obtain ⟨m, hm, hbound⟩ := exists_adjustedCost hreduction hn
  have hwritten := written_of_declared hbound
  unfold costPart?
  split
  next price rest hprice _ =>
    cases hprice
    exact ⟨_, bind_eq_ok_iff.mpr ⟨_, hm, bind_eq_ok_iff.mpr ⟨_, hwritten, rfl⟩⟩⟩
  next => exact ⟨none, rfl⟩

theorem exists_costParts {cost : Tree} (hcost : ∀ e ∈ cost, costFits e = true) :
    ∃ parts, costParts reduction cost = .ok parts := by
  induction cost with
  | nil => exact ⟨[], rfl⟩
  | cons e rest ih =>
    obtain ⟨path, required⟩ := e
    obtain ⟨hfirst, hrest⟩ := List.forall_mem_cons.mp hcost
    obtain ⟨-, n, -, -, -, hn, hle⟩ := exists_of_costFits hfirst
    have hint : required = .int n := hn
    subst hint
    obtain ⟨part, hpart⟩ := exists_costPart hreduction path hle
    obtain ⟨more, hmore⟩ := ih hrest
    exact ⟨_, bind_eq_ok_iff.mpr ⟨part, hpart, bind_eq_ok_iff.mpr ⟨more, hmore, rfl⟩⟩⟩

end

theorem exists_costText (hc : c.Orderly) (hstate : state.Orderly c) (id : String) :
    ∃ text, costText c id state = .ok text := by
  unfold costText
  cases ha : c.action? id with
  | none => exact ⟨_, rfl⟩
  | some a =>
    obtain ⟨tier, htier⟩ := hstate.exists_tier a
    obtain ⟨reduction, hreduction, hshare⟩ := exists_gateReduction hc.modest hstate a
    have hcosts : ∀ e ∈ tier.cost.getD [], costFits e = true := by
      cases hcost : tier.cost with
      | none => simp
      | some cost => exact hc.costs a (action_mem_values ha) cost (cost_mem_costBlocks htier hcost)
    obtain ⟨parts, hparts⟩ := exists_costParts hshare hcosts
    simp only [htier, bind, Except.bind]
    split
    · exact ⟨_, rfl⟩
    next cost hne =>
      simp only [hreduction, hparts]
      exact ⟨_, rfl⟩

section

variable (hc : c.Orderly) (hstate : state.Orderly c) (hbound : state.Bounded)
include hc hstate hbound

theorem exists_isVisible (id : String) : ∃ b, isVisible c id state = .ok b := by
  unfold isVisible
  cases ha : c.action? id with
  | none => exact ⟨false, rfl⟩
  | some a =>
    obtain ⟨tier, htier⟩ := hstate.exists_tier a
    simp only [htier, bind, Except.bind]
    cases hshow : tier.showWhen with
    | none => exact ⟨false, rfl⟩
    | some block =>
      obtain ⟨b, hb⟩ := exists_allHold hstate hbound
        (hc.requirements a (action_mem_values ha) block (showWhen_mem_showBlocks htier hshow))
      exact ⟨b, by simp only [hb]; rfl⟩

theorem exists_costFailure {e : String × Value} (he : costFits e = true) (a : Action) :
    ∃ failure, costFailure (gateReduction c a state) state e.1 e.2 = .ok failure := by
  obtain ⟨q, n, hq, hplain, hacc, hn, hle⟩ := exists_of_costFits he
  obtain ⟨reduction, hreduction, hshare⟩ := exists_gateReduction hc.modest hstate a
  obtain ⟨need, hneed, hsize⟩ := exists_adjustedCost hshare hle
  have hheld := (isSmall_get hstate hbound hplain).orZero
  obtain ⟨held, hnumber⟩ := hheld.exists_toNumber
  obtain ⟨shown, hshown⟩ := hheld.exists_displayed
  have hwritten := written_of_declared hsize
  have hshort : shortage e.1 (.int need) (state.get q) = .ok (e.1 ++ ": need " ++ Numeric.numeral need ++
      ", have " ++ shown) :=
    bind_eq_ok_iff.mpr ⟨_, hwritten, bind_eq_ok_iff.mpr ⟨shown, hshown, rfl⟩⟩
  simp only [costFailure, hn, Value.amount?, hq, hacc, if_true, hreduction, hneed, hnumber, bind, Except.bind]
  split
  · exact ⟨none, rfl⟩
  · exact ⟨_, by rw [hshort]; rfl⟩

section

variable {cost : Tree} (hcost : ∀ e ∈ cost, costFits e = true)
include hcost

theorem exists_canPay (a : Action) : ∃ b, canPay (gateReduction c a state) state cost = .ok b := by
  induction cost with
  | nil => exact ⟨true, rfl⟩
  | cons e rest ih =>
    obtain ⟨path, required⟩ := e
    obtain ⟨hfirst, hrest⟩ := List.forall_mem_cons.mp hcost
    obtain ⟨failure, hfailure⟩ := exists_costFailure hc hstate hbound hfirst a
    obtain ⟨more, hmore⟩ := ih hrest
    simp only [canPay, hfailure, bind, Except.bind]
    cases failure with
    | some line => exact ⟨false, rfl⟩
    | none => exact ⟨more, hmore⟩

theorem exists_costFailures (a : Action) :
    ∃ lines, costFailures (gateReduction c a state) state cost = .ok lines := by
  induction cost with
  | nil => exact ⟨[], rfl⟩
  | cons e rest ih =>
    obtain ⟨path, required⟩ := e
    obtain ⟨hfirst, hrest⟩ := List.forall_mem_cons.mp hcost
    obtain ⟨failure, hfailure⟩ := exists_costFailure hc hstate hbound hfirst a
    obtain ⟨more, hmore⟩ := ih hrest
    exact ⟨_, bind_eq_ok_iff.mpr ⟨failure, hfailure, bind_eq_ok_iff.mpr ⟨more, hmore, rfl⟩⟩⟩

end

theorem exists_isExecutable (id : String) : ∃ b, isExecutable c id state = .ok b := by
  unfold isExecutable
  cases ha : c.action? id with
  | none => exact ⟨false, rfl⟩
  | some a =>
    obtain ⟨cooling, hcooling⟩ := exists_isCoolingDown hstate id
    obtain ⟨tier, htier⟩ := hstate.exists_tier a
    simp only [hcooling, bind, Except.bind]
    split
    · exact ⟨false, rfl⟩
    · simp only [htier]
      cases hcost : tier.cost with
      | none => exact ⟨false, rfl⟩
      | some cost =>
        exact exists_canPay hc hstate hbound
          (hc.costs a (action_mem_values ha) cost (cost_mem_costBlocks htier hcost)) a

theorem exists_unmetRequirements (id : String) :
    ∃ reasons, unmetRequirements c id state = .ok reasons := by
  unfold unmetRequirements
  cases ha : c.action? id with
  | none => exact ⟨_, rfl⟩
  | some a =>
    have hmem := action_mem_values ha
    obtain ⟨left, hleft⟩ := exists_cooldownRemaining hstate id
    obtain ⟨tier, htier⟩ := hstate.exists_tier a
    have hhidden : ∃ hidden, showFailures state tier = .ok hidden := by
      unfold showFailures
      cases hshow : tier.showWhen with
      | none => exact ⟨_, rfl⟩
      | some block =>
        exact exists_failures hstate hbound
          (hc.requirements a hmem block (showWhen_mem_showBlocks htier hshow))
    have hunpaid : ∃ unpaid, payFailures c a state tier = .ok unpaid := by
      unfold payFailures
      cases hcost : tier.cost with
      | none => exact ⟨_, rfl⟩
      | some cost =>
        exact exists_costFailures hc hstate hbound (hc.costs a hmem cost (cost_mem_costBlocks htier hcost)) a
    obtain ⟨hidden, hhidden⟩ := hhidden
    obtain ⟨unpaid, hunpaid⟩ := hunpaid
    exact ⟨_, bind_eq_ok_iff.mpr ⟨left, hleft, bind_eq_ok_iff.mpr ⟨tier, htier,
      bind_eq_ok_iff.mpr ⟨hidden, hhidden, bind_eq_ok_iff.mpr ⟨unpaid, hunpaid, rfl⟩⟩⟩⟩⟩

theorem exists_visibleActions : ∃ ids, visibleActions c state = .ok ids := by
  unfold visibleActions
  generalize OrderedMap.keys c.actions = ids
  induction ids with
  | nil => exact ⟨[], rfl⟩
  | cons id rest ih =>
    obtain ⟨shown, hshown⟩ := exists_isVisible hc hstate hbound id
    obtain ⟨more, hmore⟩ := ih
    exact ⟨_, bind_eq_ok_iff.mpr ⟨shown, hshown, bind_eq_ok_iff.mpr ⟨more, hmore, rfl⟩⟩⟩

end

end Gate

end SurvivalRules
