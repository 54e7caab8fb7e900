import SurvivalRules.Proofs.Reasons
import SurvivalRules.Proofs.Gate.Affordability

/-!
# The cost that is shown

The cost beside an action is picked out of the block by how the paths are written, and the gate picks its
resources by the parsed paths. Where the numbers stand under well-formed paths below a section, both find the
same entries and ask for the same amounts.
-/
namespace SurvivalRules

namespace Gate

variable {c : Content} {id raw : String} {state : Tree} {a : Action} {tier : Tier}

/-- Below a section, a path is written behind the section of the resources exactly when it leads there. -/
theorem resourcePart?_eq {p : StatePath} (hp : StatePath.parse raw = .ok p) (hrest : p.rest ≠ []) :
    resourcePart? raw = if p.accumulates then some (".".intercalate p.rest).toList else none := by
  unfold resourcePart?
  rw [StatePath.cutAtChar_of_parse hp hrest]
  simp only [String.ofList_toList, StatePath.accumulates_iff]

/-- What a cost asks for at a place of the resources. -/
structure Need where
  place : StatePath
  amount : Amount

namespace Need

/-- A need as it is shown beside an action. -/
def shown (n : Need) : Except Fault String := do
  return "-" ++ (← n.amount.written) ++ " " ++ resourceTitle (".".intercalate n.place.rest).toList

/-- What is held is read as a number, a place without a value as zero, and it is enough. -/
def IsMet (n : Need) (state : Tree) : Prop :=
  ∃ held, (Requirement.orZero (state.get n.place)).toNumber = .ok held ∧ n.amount.le (.float held) = true

/-- The comparison of a need with what is held, with the reason when it is not met. -/
def failure (n : Need) (state : Tree) : Except Fault (Option String) := do
  let held ← (Requirement.orZero (state.get n.place)).toNumber
  if n.amount.le (.float held) then return none
  else return some (← shortage n.place.raw n.amount (state.get n.place))

theorem failure_eq_none_iff {n : Need} : n.failure state = .ok none ↔ n.IsMet state := by
  unfold failure IsMet
  rw [bind_eq_ok_iff]
  refine exists_congr fun held => and_congr_right fun _ => ?_
  by_cases hle : n.amount.le (.float held) = true
  · rw [if_pos hle]
    exact iff_of_true rfl hle
  · rw [if_neg hle]
    refine iff_of_false (fun h => ?_) hle
    obtain ⟨line, -, hline⟩ := bind_eq_ok_iff.mp h
    cases pure_eq_ok_iff.mp hline

/-- The need that an entry of a cost states, with this reduction. -/
structure OfEntry (share : Option Amount) (e : String × Value) (n : Need) : Prop where
  place : StatePath.parse e.1 = .ok n.place
  accumulates : n.place.accumulates = true
  amount : ∃ price, e.2.amount? = some price ∧ adjustedCost price share = .ok n.amount

/-- The gate settles an entry by comparing this need with what is held. -/
structure IsChecked (c : Content) (a : Action) (state : Tree) (e : String × Value) (n : Need) : Prop where
  place : StatePath.parse e.1 = .ok n.place
  amount : ∃ price share, e.2.amount? = some price ∧ gateReduction c a state = .ok share ∧
    adjustedCost price share = .ok n.amount
  failure : costFailure (gateReduction c a state) state e.1 e.2 = n.failure state

theorem OfEntry.costFailure_eq {share : Option Amount} {e : String × Value} {n : Need}
    (h : OfEntry share e n) : costFailure (.ok share) state e.1 e.2 = n.failure state := by
  obtain ⟨hplace, hacc, price, hprice, hamount⟩ := h
  have hraw := (StatePath.parse_eq_ok_iff.mp hplace).1
  rw [failure, hraw]
  simp only [costFailure, hprice, hplace, hacc, if_true, hamount, bind, Except.bind]

theorem OfEntry.isChecked {share : Option Amount} {e : String × Value} {n : Need} (h : OfEntry share e n)
    (hshare : gateReduction c a state = .ok share) : IsChecked c a state e n where
  place := h.place
  amount := by
    obtain ⟨price, hprice, hamount⟩ := h.amount
    exact ⟨price, share, hprice, hshare, hamount⟩
  failure := by rw [hshare, h.costFailure_eq]

end Need

/-- An amount at a place of the resources. -/
def isResourceEntry (e : String × Value) : Bool :=
  e.2.isNumber && (StatePath.parse e.1).toOption.any StatePath.accumulates

/-- A number under a well-formed path that goes on below its section. -/
def IsFormedEntry (e : String × Value) : Prop :=
  e.2.isNumber = true → ∃ p, StatePath.parse e.1 = .ok p ∧ p.rest ≠ []

/-- The two ways to pick the resources out of a cost agree on a well-formed entry. -/
theorem costPart?_spec {share : Option Amount} {e : String × Value} {part : Option String}
    (hformed : IsFormedEntry e) (h : costPart? share e.1 e.2 = .ok part) :
    (isResourceEntry e = false ∧ part = none) ∨
      (isResourceEntry e = true ∧ ∃ n line, Need.OfEntry share e n ∧ n.shown = .ok line ∧ part = some line) := by
  cases hprice : e.2.amount? with
  | none =>
    simp only [costPart?, hprice, Except.ok.injEq] at h
    exact Or.inl ⟨by simp [isResourceEntry, Value.isNumber, hprice], h.symm⟩
  | some price =>
    have hnumber : e.2.isNumber = true := by simp [Value.isNumber, hprice]
    obtain ⟨p, hp, hrest⟩ := hformed hnumber
    have hentry : isResourceEntry e = p.accumulates := by simp [isResourceEntry, hnumber, hp, Except.toOption]
    cases hacc : p.accumulates with
    | false =>
      simp only [costPart?, hprice, resourcePart?_eq hp hrest, hacc, Bool.false_eq_true, if_false,
        Except.ok.injEq] at h
      exact Or.inl ⟨hentry.trans hacc, h.symm⟩
    | true =>
      simp only [costPart?, hprice, resourcePart?_eq hp hrest, hacc, if_true] at h
      obtain ⟨amount, hamount, h⟩ := bind_eq_ok_iff.mp h
      obtain ⟨written, hwritten, h⟩ := bind_eq_ok_iff.mp h
      refine Or.inr ⟨hentry.trans hacc, ⟨p, amount⟩, _, ⟨hp, hacc, price, hprice, hamount⟩, ?_,
        (pure_eq_ok_iff.mp h).symm⟩
      exact bind_eq_ok_iff.mpr ⟨written, hwritten, rfl⟩

/-- The parts that are shown stand for the needs of the resource entries, in their order. -/
theorem exists_needs_of_costParts {share : Option Amount} {cost : Tree} {parts : List String}
    (hformed : ∀ e ∈ cost, IsFormedEntry e) (h : costParts share cost = .ok parts) :
    ∃ needs, List.Forall₂ (Need.OfEntry share) (cost.filter isResourceEntry) needs ∧
      needs.mapM Need.shown = .ok parts := by
  induction cost generalizing parts with
  | nil =>
    cases h
    exact ⟨[], List.Forall₂.nil, rfl⟩
  | cons e rest ih =>
    obtain ⟨hfirst, hformed⟩ := List.forall_mem_cons.mp hformed
    obtain ⟨part, hpart, h⟩ := bind_eq_ok_iff.mp h
    obtain ⟨more, hmore, h⟩ := bind_eq_ok_iff.mp h
    obtain ⟨needs, hneeds, hshown⟩ := ih hformed hmore
    cases pure_eq_ok_iff.mp h
    rcases costPart?_spec hfirst hpart with ⟨hother, rfl⟩ | ⟨hentry, n, line, hn, hline, rfl⟩
    · exact ⟨needs, by simpa [hother] using hneeds, hshown⟩
    · refine ⟨n :: needs, ?_, ?_⟩
      · rw [List.filter_cons_of_pos hentry]
        exact List.Forall₂.cons hn hneeds
      · simp only [List.mapM_cons, hline, hshown, bind, Except.bind, pure, Except.pure, Option.toList_some,
          List.singleton_append]

/-- A cost without a number outside of the resources can be paid exactly when all its needs are met. -/
theorem canPay_eq_true_iff_isMet {share : Option Amount} {cost : Tree} {needs : List Need}
    (honly : ∀ e ∈ cost, e.2.isNumber = true → isResourceEntry e = true)
    (hneeds : List.Forall₂ (Need.OfEntry share) (cost.filter isResourceEntry) needs) :
    canPay (.ok share) state cost = .ok true ↔ ∀ n ∈ needs, n.IsMet state := by
  rw [canPay_eq_true_iff]
  induction cost generalizing needs with
  | nil =>
    cases hneeds
    simp
  | cons e rest ih =>
    obtain ⟨hfirst, honly⟩ := List.forall_mem_cons.mp honly
    cases hentry : isResourceEntry e with
    | true =>
      rw [List.filter_cons_of_pos hentry] at hneeds
      obtain ⟨n, needs', hn, hneeds', rfl⟩ := List.forall₂_cons_left_iff.mp hneeds
      rw [List.forall_mem_cons, List.forall_mem_cons, hn.costFailure_eq, Need.failure_eq_none_iff, ih honly hneeds']
    | false =>
      have hmark : e.2.amount? = none := by
        have hnumber : e.2.isNumber ≠ true := fun h => by simp [hfirst h] at hentry
        simpa [Value.isNumber] using hnumber
      have hfree : costFailure (.ok share) state e.1 e.2 = .ok none := by simp only [costFailure, hmark]
      rw [List.filter_cons_of_neg (by simp [hentry])] at hneeds
      simp only [List.forall_mem_cons, hfree, true_and]
      exact ih honly hneeds

/-- What is shown of a cost: nothing of an empty one, and the joined parts of any other. -/
theorem costText_spec {cost : Tree} {text : String} (ha : c.action? id = some a) (htier : a.tier state = .ok tier)
    (hcost : tier.cost = some cost) (h : costText c id state = .ok text) :
    (cost = [] ∧ text = "") ∨ ∃ share parts, gateReduction c a state = .ok share ∧
      costParts share cost = .ok parts ∧ text = ", ".intercalate parts := by
  simp only [costText, ha] at h
  obtain ⟨tier', htier', h⟩ := bind_eq_ok_iff.mp h
  cases htier.symm.trans htier'
  rw [hcost] at h
  cases cost with
  | nil => exact Or.inl ⟨rfl, (pure_eq_ok_iff.mp h).symm⟩
  | cons e rest =>
    obtain ⟨share, hshare, h⟩ := bind_eq_ok_iff.mp h
    obtain ⟨parts, hparts, h⟩ := bind_eq_ok_iff.mp h
    exact Or.inr ⟨share, parts, hshare, hparts, (pure_eq_ok_iff.mp h).symm⟩

/-- The amounts that are shown are those that the gate compares for the resource entries, in their order; and
an action that is not cooling down and costs nothing else can be done exactly when each of them is held. -/
theorem shown_cost_is_checked {cost : Tree} {text : String} (ha : c.action? id = some a)
    (htier : a.tier state = .ok tier) (hcost : tier.cost = some cost) (hformed : ∀ e ∈ cost, IsFormedEntry e)
    (htext : costText c id state = .ok text) :
    ∃ needs parts, List.Forall₂ (Need.IsChecked c a state) (cost.filter isResourceEntry) needs ∧
      needs.mapM Need.shown = .ok parts ∧ text = ", ".intercalate parts ∧
      (isCoolingDown id state = .ok false → (∀ e ∈ cost, e.2.isNumber = true → isResourceEntry e = true) →
        (isExecutable c id state = .ok true ↔ ∀ n ∈ needs, n.IsMet state)) := by
  rcases costText_spec ha htier hcost htext with ⟨rfl, rfl⟩ | ⟨share, parts, hshare, hparts, rfl⟩
  · refine ⟨[], [], List.Forall₂.nil, rfl, rfl, fun hready _ => ?_⟩
    rw [isExecutable_eq_true_iff ha htier]
    exact iff_of_true ⟨hready, [], hcost, rfl⟩ (by simp)
  · obtain ⟨needs, hneeds, hshown⟩ := exists_needs_of_costParts hformed hparts
    refine ⟨needs, parts, hneeds.imp fun _ _ h => h.isChecked hshare, hshown, rfl, fun hready honly => ?_⟩
    rw [isExecutable_eq_true_iff ha htier, ← canPay_eq_true_iff_isMet honly hneeds]
    simp [hready, hcost, hshare]

/-- The section as a whole is a resource of the gate, and it is not shown. -/
example : resourcePart? Section.resources.name = none ∧
    isResourceEntry (Section.resources.name, .int 1) = true := by decide +kernel

/-- Two resources less a quarter, with a mark between them that costs nothing. -/
def arrowCost : Tree :=
  [("resources.iron_ore", .int 9), ("flags.bench", .bool true), ("resources.wood", .int 3)]

def arrowsmith : Content where
  actions := [("craftArrows", pricedAt "craftArrows" arrowCost)]
  items := [("workbench", workbench)]
  families := []
  chains := []

/-- The ore that is needed, and more wood, as a text. -/
def arrowState : Tree :=
  [("tools", .mapping [("workbench", .bool true)]),
    ("resources", .mapping [("iron_ore", .int 6), ("wood", .text "2.5")])]

theorem arrows_are_shown_as_checked :
    isExecutable arrowsmith "craftArrows" arrowState = .ok true ∧ ∃ (needs : List Need) (parts : List String),
      List.Forall₂ (Need.IsChecked arrowsmith (pricedAt "craftArrows" arrowCost) arrowState)
          [("resources.iron_ore", .int 9), ("resources.wood", .int 3)] needs ∧
        needs.mapM Need.shown = .ok parts ∧ "-6 Iron Ore, -2 Wood" = ", ".intercalate parts ∧
        ∀ n ∈ needs, n.IsMet arrowState := by
  have hexec : isExecutable arrowsmith "craftArrows" arrowState = .ok true := by decide +kernel
  have hformed : ∀ e ∈ arrowCost, IsFormedEntry e := by
    intro e he hnumber
    simp only [arrowCost, List.mem_cons, List.not_mem_nil, or_false] at he
    rcases he with rfl | rfl | rfl
    · exact ⟨⟨"resources.iron_ore", "resources", ["iron_ore"]⟩, by decide +kernel, by decide⟩
    · cases hnumber
    · exact ⟨⟨"resources.wood", "resources", ["wood"]⟩, by decide +kernel, by decide⟩
  have htext : costText arrowsmith "craftArrows" arrowState = .ok "-6 Iron Ore, -2 Wood" := by decide +kernel
  obtain ⟨needs, parts, hneeds, hparts, hjoined, hgate⟩ :=
    shown_cost_is_checked (a := pricedAt "craftArrows" arrowCost) (by decide +kernel) rfl rfl hformed htext
  have hresources : arrowCost.filter isResourceEntry =
      [("resources.iron_ore", .int 9), ("resources.wood", .int 3)] := by decide +kernel
  rw [hresources] at hneeds
  exact ⟨hexec, needs, parts, hneeds, hparts, hjoined, (hgate (by decide +kernel) (by decide +kernel)).mp hexec⟩

end Gate

end SurvivalRules
