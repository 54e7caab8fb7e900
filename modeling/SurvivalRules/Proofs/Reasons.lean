import SurvivalRules.Proofs.Store.Dispatch

/-!
# Reasons and gates

The gates stop at the first entry that fails, and the reasons go through all of them. Where both can be
told, there is no reason exactly when the action is shown and can be done.
-/
namespace SurvivalRules

variable {c : Content} {id : String} {state : Tree} {a : Action} {tier : Tier}

namespace Requirement

theorem met_eq_true_iff {path : String} {expected : Value} :
    met path expected state = .ok true ↔ holds path expected state = .ok true := by
  unfold met
  split
  next b hb => simp [hb]
  next cause hcause => simp [hcause]
  next cause hcause => simp [hcause]

/-- A block has no failures exactly when all of its entries hold. -/
theorem failures_eq_nil_iff {block : Tree} {lines : List String} (h : failures state block = .ok lines) :
    lines = [] ↔ allHold state block = .ok true := by
  induction block generalizing lines with
  | nil =>
    cases h
    exact ⟨fun _ => rfl, fun _ => rfl⟩
  | cons e rest ih =>
    obtain ⟨ok, hmet, hrest⟩ := bind_eq_ok_iff.mp h
    cases ok with
    | true =>
      have hholds := met_eq_true_iff.mp hmet
      have hall : allHold state (e :: rest) = allHold state rest := by
        simp only [allHold, hholds, bind, Except.bind, if_true]
      rw [hall]
      exact ih hrest
    | false =>
      obtain ⟨line, -, hmore⟩ := bind_eq_ok_iff.mp hrest
      obtain ⟨more, -, hlast⟩ := bind_eq_ok_iff.mp hmore
      have hlines : line :: more = lines := pure_eq_ok_iff.mp hlast
      refine ⟨fun hnil => ?_, fun hall => ?_⟩
      · rw [hnil] at hlines
        cases hlines
      · obtain ⟨holding, hholding, hnext⟩ := bind_eq_ok_iff.mp hall
        cases holding with
        | true => cases hmet.symm.trans (met_eq_true_iff.mpr hholding)
        | false => cases pure_eq_ok_iff.mp hnext

end Requirement

namespace Gate

theorem costFailures_eq_nil_iff {reduction : Except Fault (Option Amount)} {cost : Tree}
    {lines : List String} (h : costFailures reduction state cost = .ok lines) :
    lines = [] ↔ canPay reduction state cost = .ok true := by
  induction cost generalizing lines with
  | nil =>
    cases h
    exact ⟨fun _ => rfl, fun _ => rfl⟩
  | cons e rest ih =>
    obtain ⟨failure, hfirst, hrest⟩ := bind_eq_ok_iff.mp h
    obtain ⟨more, hmore, hlast⟩ := bind_eq_ok_iff.mp hrest
    have hlines : failure.toList ++ more = lines := pure_eq_ok_iff.mp hlast
    rw [← hlines]
    cases failure with
    | some reason =>
      have hstop : canPay reduction state (e :: rest) = .ok false := by
        simp only [canPay, hfirst, bind, Except.bind, pure, Except.pure]
      simp [hstop]
    | none =>
      have hgo : canPay reduction state (e :: rest) = canPay reduction state rest := by
        simp only [canPay, hfirst, bind, Except.bind]
      rw [hgo]
      exact ih hmore

theorem isVisible_eq_true_iff (ha : c.action? id = some a) (htier : a.tier state = .ok tier) :
    isVisible c id state = .ok true ↔
      ∃ block, tier.showWhen = some block ∧ Requirement.allHold state block = .ok true := by
  simp only [isVisible, ha, htier, bind, Except.bind]
  cases tier.showWhen with
  | none => simp [pure, Except.pure]
  | some block =>
    simp only [Option.some.injEq, exists_eq_left']
    split
    next shown hshown => simp [hshown, pure, Except.pure]
    next cause hcause => simp [hcause, pure, Except.pure]
    next cause hcause => simp [hcause]

theorem showFailures_eq_nil_iff {hidden : List String} (h : showFailures state tier = .ok hidden) :
    hidden = [] ↔ ∃ block, tier.showWhen = some block ∧ Requirement.allHold state block = .ok true := by
  unfold showFailures at h
  split at h
  next block hblock =>
    rw [hblock]
    simpa using Requirement.failures_eq_nil_iff h
  next hnone =>
    cases h
    simp [hnone]

theorem payFailures_eq_nil_iff {unpaid : List String} (h : payFailures c a state tier = .ok unpaid) :
    unpaid = [] ↔
      ∃ cost, tier.cost = some cost ∧ canPay (gateReduction c a state) state cost = .ok true := by
  unfold payFailures at h
  split at h
  next cost hcost =>
    rw [hcost]
    simpa using costFailures_eq_nil_iff h
  next hnone =>
    cases h
    simp [hnone]

theorem coolingText_eq_nil_iff {left : Binary64} :
    coolingText left = [] ↔ Amount.zero.lt (.float left) = false := by
  unfold coolingText
  cases Amount.zero.lt (.float left) <;> simp

theorem isExecutable_eq_true_iff (ha : c.action? id = some a) (htier : a.tier state = .ok tier) :
    isExecutable c id state = .ok true ↔ isCoolingDown id state = .ok false ∧
      ∃ cost, tier.cost = some cost ∧ canPay (gateReduction c a state) state cost = .ok true := by
  constructor
  · intro h
    obtain ⟨hready, b, tier', cost, hb, htier', hcost, hpays⟩ := isExecutable_spec h
    cases ha.symm.trans hb
    cases htier.symm.trans htier'
    exact ⟨hready, cost, hcost, hpays⟩
  · rintro ⟨hready, cost, hcost, hpays⟩
    simp only [isExecutable, ha, hready, htier, bind, Except.bind, Bool.false_eq_true, if_false, hcost]
    exact hpays

/-- What the reasons of a known action are made of. -/
theorem unmetRequirements_spec (ha : c.action? id = some a) {reasons : List String}
    (h : unmetRequirements c id state = .ok reasons) :
    ∃ left tier hidden unpaid, cooldownRemaining id state = .ok left ∧ a.tier state = .ok tier ∧
      showFailures state tier = .ok hidden ∧ payFailures c a state tier = .ok unpaid ∧
      reasons = coolingText left ++ hidden ++ unpaid := by
  simp only [unmetRequirements, ha] at h
  obtain ⟨left, hleft, h⟩ := bind_eq_ok_iff.mp h
  obtain ⟨tier, htier, h⟩ := bind_eq_ok_iff.mp h
  obtain ⟨hidden, hhidden, h⟩ := bind_eq_ok_iff.mp h
  obtain ⟨unpaid, hunpaid, h⟩ := bind_eq_ok_iff.mp h
  exact ⟨left, tier, hidden, unpaid, hleft, htier, hhidden, hunpaid, (pure_eq_ok_iff.mp h).symm⟩

/-- Reasons are missing exactly when both gates let the action through. -/
theorem unmetRequirements_eq_nil_iff {reasons : List String}
    (h : unmetRequirements c id state = .ok reasons) :
    reasons = [] ↔ isVisible c id state = .ok true ∧ isExecutable c id state = .ok true := by
  cases ha : c.action? id with
  | none =>
    simp only [unmetRequirements, ha, Except.ok.injEq] at h
    have hhidden : isVisible c id state = .ok false := by simp only [isVisible, ha]
    simp [← h, hhidden]
  | some a =>
    obtain ⟨left, tier, hidden, unpaid, hleft, htier, hhidden, hunpaid, rfl⟩ :=
      unmetRequirements_spec ha h
    have hready : isCoolingDown id state = .ok false ↔ coolingText left = [] := by
      simp only [isCoolingDown, hleft, bind, Except.bind, pure, Except.pure, Except.ok.injEq,
        coolingText_eq_nil_iff]
    rw [isVisible_eq_true_iff ha htier, isExecutable_eq_true_iff ha htier, hready,
      ← showFailures_eq_nil_iff hhidden, ← payFailures_eq_nil_iff hunpaid]
    simp only [List.append_eq_nil_iff]
    tauto

end Gate

namespace Store

theorem admission_error_spec {s : Store} {reasons : List String} (h : s.admission id = .ok (.error reasons)) :
    s.isExecutable id = .ok false ∧ Gate.unmetRequirements s.content id s.state = .ok reasons := by
  obtain ⟨executable, hexec, hrest⟩ := bind_eq_ok_iff.mp h
  cases executable with
  | true =>
    obtain ⟨cooldown, -, hlast⟩ := bind_eq_ok_iff.mp hrest
    cases pure_eq_ok_iff.mp hlast
  | false =>
    obtain ⟨told, htold, hlast⟩ := bind_eq_ok_iff.mp hrest
    cases pure_eq_ok_iff.mp hlast
    exact ⟨hexec, htold⟩

theorem dispatch_rejected_spec {s s' : Store} {reasons : List String}
    (h : s.dispatch id = (.ok (.rejected reasons), s')) :
    s.isExecutable id = .ok false ∧ Gate.unmetRequirements s.content id s.state = .ok reasons := by
  unfold dispatch at h
  split at h
  · cases h
  next told hadmission =>
    cases h
    exact admission_error_spec hadmission
  next cooldown hadmission =>
    dsimp only at h
    obtain ⟨hresult, -⟩ := Prod.mk.inj h
    cases hperform : (s.perform id cooldown).1 with
    | error cause =>
      rw [hperform] at hresult
      cases hresult
    | ok performed =>
      rw [hperform] at hresult
      cases hresult

end Store

/-- Where the gates and the reasons can all be told, there is no reason exactly when the action is shown and
can be done; and a dispatch that is rejected has at least one. -/
theorem reasons_agree_with_gates (c : Content) (id : String) (state : Tree) :
    (∀ visible executable reasons, Gate.isVisible c id state = .ok visible →
      Gate.isExecutable c id state = .ok executable → Gate.unmetRequirements c id state = .ok reasons →
        (reasons = [] ↔ visible = true ∧ executable = true) ∧ (executable = false → reasons ≠ [])) ∧
      ∀ (s s' : Store) (reasons : List String), s.content = c → s.state = state →
        s.dispatch id = (.ok (.rejected reasons), s') → reasons ≠ [] := by
  constructor
  · intro visible executable reasons hvisible hexecutable hreasons
    have hnil := Gate.unmetRequirements_eq_nil_iff hreasons
    rw [hvisible, hexecutable, Except.ok.injEq, Except.ok.injEq] at hnil
    refine ⟨hnil, fun hfalse he => ?_⟩
    rw [(hnil.mp he).2] at hfalse
    cases hfalse
  · intro s s' reasons hc hstate hrejected he
    obtain ⟨hexecutable, hreasons⟩ := Store.dispatch_rejected_spec hrejected
    have hboth := (Gate.unmetRequirements_eq_nil_iff hreasons).mp he
    cases hexecutable.symm.trans hboth.2

/-- Hidden, without a cost for its first level, and still hot. -/
def kilnContent : Content where
  actions := [("kiln",
    { id := "kiln", label := "Kiln", description := "", category := none, statsEffects := []
      craftingCostReduction := Binary64.zero, buildingCostReduction := Binary64.zero
      plan := .tiered ⟨"kiln", [(1, [("flags.camp", .bool true)])], [], [], .fixed Binary64.zero⟩ })]
  items := []
  families := []
  chains := []

def kilnState : Tree := [("cooldowns", .mapping [("kiln", .int 5)])]

def kilnReasons : List String :=
  ["cooling down (5s left)", "flags.camp must be True (is unset)", "no cost defined for level 1"]

theorem kiln_has_reasons :
    Gate.isVisible kilnContent "kiln" kilnState = .ok false ∧
      Gate.isExecutable kilnContent "kiln" kilnState = .ok false ∧
      Gate.unmetRequirements kilnContent "kiln" kilnState = .ok kilnReasons ∧ kilnReasons ≠ [] := by
  have hvisible : Gate.isVisible kilnContent "kiln" kilnState = .ok false := by decide +kernel
  have hexecutable : Gate.isExecutable kilnContent "kiln" kilnState = .ok false := by decide +kernel
  have hreasons : Gate.unmetRequirements kilnContent "kiln" kilnState = .ok kilnReasons := by
    decide +kernel
  obtain ⟨hgates, -⟩ := reasons_agree_with_gates kilnContent "kiln" kilnState
  exact ⟨hvisible, hexecutable, hreasons, (hgates _ _ _ hvisible hexecutable hreasons).2 rfl⟩

end SurvivalRules
