import SurvivalRules.Content.Problem
import SurvivalRules.Proofs.Reasons
import SurvivalRules.Proofs.Resolve.Malformed

/-!
# The check of an action and its resolution

The check reads every part of every entry beforehand. The resolution meets an unreadable part only where it
needs it: the condition before the draw, the outcome after it, and only in the tier that applies. Both call
the same entries malformed.
-/
namespace SurvivalRules

open Drawing

theorem exists_of_mapM_eq_ok {ε α β : Type} {f : α → Except ε β} {l : List α} {bs : List β}
    (h : l.mapM f = .ok bs) : ∀ a ∈ l, ∃ b ∈ bs, f a = .ok b := by
  induction l generalizing bs with
  | nil => simp
  | cons a rest ih =>
    rw [List.mapM_cons] at h
    obtain ⟨b, hb, h⟩ := bind_eq_ok_iff.mp h
    obtain ⟨more, hmore, hlast⟩ := bind_eq_ok_iff.mp h
    cases pure_eq_ok_iff.mp hlast
    refine List.forall_mem_cons.mpr ⟨⟨b, List.mem_cons_self, hb⟩, fun a' ha' => ?_⟩
    obtain ⟨b', hb', hfa⟩ := ih hmore a' ha'
    exact ⟨b', List.mem_cons_of_mem _ hb', hfa⟩

section

variable {raw : String} {v : Value} {k : Chance} {state : Tree}

theorem unreadableEffect_eq_ok {cause : EffectError} {faults : List EntryFault}
    (h : unreadableEffect cause = .ok faults) : faults = [.effect cause] := by
  cases cause with
  | fault cause => cases h
  | _ =>
    cases h
    rfl

theorem Chance.faults_ne_nil_iff {faults : List EntryFault} (h : k.faults = .ok faults) :
    faults ≠ [] ↔ (∃ cause, k.outcome = .error cause) ∨
      ∃ text cause, k.condition.filter (!·.isEmpty) = some text ∧ Condition.read text = .error cause := by
  unfold Chance.faults at h
  split at h
  next cause houtcome =>
    rw [unreadableEffect_eq_ok h]
    simp [houtcome]
  next outcome houtcome hnone =>
    cases h
    simp [houtcome, hnone]
  next outcome text houtcome htext =>
    cases h
    unfold conditionFaults
    cases hread : Condition.read text <;> simp [houtcome, htext, hread]

theorem pathFaults_ne_nil_iff : pathFaults raw ≠ [] ↔ ∃ cause, StatePath.parse raw = .error cause := by
  unfold pathFaults
  cases StatePath.parse raw <;> simp

namespace Action

theorem effectFaults_ne_nil_iff {faults : List EntryFault} (h : effectFaults v = .ok faults) :
    faults ≠ [] ↔ (∃ cause, Effect.ofValue v = .error cause) ∨
      ∃ k : Chance, Effect.ofValue v = .ok (.chance k) ∧ ((∃ cause, k.outcome = .error cause) ∨
        ∃ text cause, k.condition.filter (!·.isEmpty) = some text ∧
          Condition.read text = .error cause) := by
  unfold effectFaults at h
  split at h
  next cause hread =>
    rw [unreadableEffect_eq_ok h]
    simp [hread]
  next k hread =>
    rw [Chance.faults_ne_nil_iff h]
    simp [hread]
  next outcome hread =>
    cases h
    simp [hread]

/-- The check has something to report about an entry of the effects exactly when it is malformed. -/
theorem entryProblems_ne_nil_iff {b : Block} {reports : List Problem} (hb : b.areEffects = true)
    (h : b.entryProblems raw v = .ok reports) : reports ≠ [] ↔ IsMalformed raw v := by
  simp only [Block.entryProblems, hb, if_true] at h
  obtain ⟨faults, hfaults, hlast⟩ := bind_eq_ok_iff.mp h
  cases pure_eq_ok_iff.mp hlast
  have hnil : (pathFaults raw ++ faults).map (Problem.entry b.label raw) ≠ [] ↔
      pathFaults raw ≠ [] ∨ faults ≠ [] := by
    simp only [ne_eq, List.map_eq_nil_iff, List.append_eq_nil_iff]
    tauto
  rw [hnil, pathFaults_ne_nil_iff, effectFaults_ne_nil_iff hfaults]
  constructor
  · rintro (⟨cause, hpath⟩ | ⟨cause, hread⟩ | ⟨k, hread, ⟨cause, houtcome⟩ | ⟨text, cause, htext, hcondition⟩⟩)
    · exact .path hpath
    · exact .effect hread
    · exact .outcome hread houtcome
    · exact .condition hread htext hcondition
  · intro hmalformed
    cases hmalformed with
    | path hpath => exact Or.inl ⟨_, hpath⟩
    | effect hread => exact Or.inr (Or.inl ⟨_, hread⟩)
    | outcome hread houtcome => exact Or.inr (Or.inr ⟨_, hread, Or.inl ⟨_, houtcome⟩⟩)
    | condition hread htext hcondition =>
      exact Or.inr (Or.inr ⟨_, hread, Or.inr ⟨_, _, htext, hcondition⟩⟩)

/-- The block of the effects that apply at a level. -/
def effectsBlock (level : Option Int) (effects : Tree) : Block where
  label := (level.map fun n => "effects" ++ "[" ++ Numeric.numeral n ++ "]").getD "effects"
  areEffects := true
  entries := effects

variable {a : Action} {tier : Tier} {effects : Tree} {ps : List Problem}

theorem effectsBlock_mem_blocks (htier : a.tier state = .ok tier) (heffects : tier.effects = some effects) :
    effectsBlock tier.level effects ∈ a.blocks := by
  unfold Action.tier at htier
  unfold Action.blocks
  cases hplan : a.plan with
  | flat p =>
    rw [hplan] at htier
    cases pure_eq_ok_iff.mp htier
    cases heffects
    simp [effectsBlock]
  | tiered p =>
    rw [hplan] at htier
    obtain ⟨level, -, hlast⟩ := bind_eq_ok_iff.mp htier
    cases pure_eq_ok_iff.mp hlast
    refine List.mem_append_right _ (List.mem_map.mpr ⟨_, OrderedMap.mem_of_get? heffects, ?_⟩)
    simp [effectsBlock]

/-- The check of an action goes through every entry and every level. -/
theorem problems_spec (h : a.problems = .ok ps) :
    (∀ b ∈ a.blocks, ∀ e ∈ b.entries, ∃ reports, b.entryProblems e.1 e.2 = .ok reports ∧ reports ⊆ ps) ∧
      a.levelProblems ⊆ ps := by
  obtain ⟨found, hfound, hlast⟩ := bind_eq_ok_iff.mp h
  cases pure_eq_ok_iff.mp hlast
  refine ⟨fun b hb e he => ?_, List.subset_append_right _ _⟩
  obtain ⟨inBlock, hmem, hblock⟩ := exists_of_mapM_eq_ok hfound b hb
  obtain ⟨perEntry, hentries, hjoin⟩ := bind_eq_ok_iff.mp hblock
  cases pure_eq_ok_iff.mp hjoin
  obtain ⟨reports, hreports, hentry⟩ := exists_of_mapM_eq_ok hentries e he
  refine ⟨reports, hentry, fun p hp => List.mem_append_left _ ?_⟩
  exact List.mem_flatten.mpr ⟨_, hmem, List.mem_flatten.mpr ⟨reports, hreports, hp⟩⟩

/-- A level that is shown has a cost, unless the check reports it. -/
theorem exists_cost_of_levelProblems (htiered : a.tiered?.isSome = true) (htier : a.tier state = .ok tier)
    (hlevels : a.levelProblems = []) {block : Tree} (hshown : tier.showWhen = some block) :
    ∃ cost, tier.cost = some cost := by
  unfold Action.tier at htier
  unfold levelProblems at hlevels
  cases hplan : a.plan with
  | flat p => simp [tiered?, hplan] at htiered
  | tiered p =>
    rw [hplan] at htier
    obtain ⟨level, -, hlast⟩ := bind_eq_ok_iff.mp htier
    cases pure_eq_ok_iff.mp hlast
    have huncosted : uncostedLevels p = [] := by
      simp only [tiered?, hplan, Option.map_some, Option.getD_some] at hlevels
      split at hlevels
      next hnil => exact hnil
      next => cases hlevels
    have hkeys : ∀ n ∈ p.showWhen.keys, OrderedMap.contains n p.cost = true := by
      have hperm := List.mergeSort_perm (p.showWhen.keys.filter fun n => !OrderedMap.contains n p.cost)
        (fun m n => decide (m ≤ n))
      have hnil := List.perm_nil.mp ((hperm.symm.trans (List.Perm.of_eq huncosted)))
      simpa using hnil
    have hcost := hkeys _ (OrderedMap.mem_keys_of_get? hshown)
    exact Option.isSome_iff_exists.mp hcost

end Action

end

/-- The check of an action and its resolution agree. Where the check has nothing to report, no entry of
the effects is left out, and a tiered action that is shown has a cost. An entry that it reports writes
nothing and tells nothing between the entries around it. -/
theorem check_agrees_with_resolution {c : Content} {id : String} {a : Action} {state : Tree}
    {amplify : Bool} {d d' : Draws} {r : Resolution} {ps : List Problem} (ha : c.action? id = some a)
    (hcheck : a.problems = .ok ps) (h : Returns (resolve c id state amplify) d r d') :
    ∃ tier, a.tier state = .ok tier ∧
      (ps = [] →
        (∀ effects, tier.effects = some effects → ∀ path reason, skipLine path reason ∉ r.trace) ∧
        (a.tiered?.isSome = true → Gate.isVisible c id state = .ok true →
          ∃ cost, tier.cost = some cost)) ∧
      ∀ effects, tier.effects = some effects →
        ∀ front path v back, effects = front ++ (path, v) :: back →
          ∃ reports, (Action.effectsBlock tier.level effects).entryProblems path v = .ok reports ∧
            reports ⊆ ps ∧
            (reports ≠ [] → ∃ around p₀ d₀ p₁ d₁ p₂ p',
              Resolution.circumstances c a state = .ok around ∧
              Returns (applyEntries around front Progress.start) d p₀ d₀ ∧
              Returns (applyEntry around path v p₀) d₀ p₁ d₁ ∧
              Returns (applyEntries around back p₁) d₁ p₂ d' ∧
              scaleGains state around.bonus.resourceMultiplier amplify p₂ = .ok p' ∧
              r = Resolution.ofProgress p' ∧ p₀.Agrees p₁) := by
  obtain ⟨tier, htier, -⟩ := Resolution.exists_tier_of_returns ha h
  obtain ⟨hentries, hlevels⟩ := Action.problems_spec hcheck
  have hreports : ∀ effects, tier.effects = some effects → ∀ e ∈ effects, ∃ reports,
      (Action.effectsBlock tier.level effects).entryProblems e.1 e.2 = .ok reports ∧ reports ⊆ ps :=
    fun effects heffects => hentries _ (Action.effectsBlock_mem_blocks htier heffects)
  have hreturns : ∀ effects, tier.effects = some effects →
      Returns (Resolution.ofEffects c a state amplify effects) d r d' :=
    fun effects heffects => (Resolution.returns_resolve_iff ha htier heffects).mp h
  refine ⟨tier, htier, fun hnil => ⟨fun effects heffects => ?_, fun htiered hvisible => ?_⟩, ?_⟩
  · refine Resolution.skipLine_not_mem (fun e he hmalformed => ?_) (hreturns effects heffects)
    obtain ⟨reports, hentry, hsub⟩ := hreports effects heffects e he
    rw [hnil, List.subset_nil] at hsub
    exact (Action.entryProblems_ne_nil_iff rfl hentry).mpr hmalformed hsub
  · obtain ⟨block, hshown, -⟩ := (Gate.isVisible_eq_true_iff ha htier).mp hvisible
    rw [hnil, List.subset_nil] at hlevels
    exact Action.exists_cost_of_levelProblems htiered htier hlevels hshown
  · rintro effects heffects front path v back rfl
    obtain ⟨reports, hentry, hsub⟩ := hreports _ heffects (path, v) (by simp)
    refine ⟨reports, hentry, hsub, fun hreported => ?_⟩
    obtain ⟨around, p₂, p', haround, hall, hscale, hr⟩ :=
      Resolution.returns_ofEffects_iff.mp (hreturns _ heffects)
    obtain ⟨p₀, d₀, hfront, hrest⟩ := returns_applyEntries_append.mp hall
    obtain ⟨p₁, d₁, hstep, hback⟩ := returns_bind_iff.mp hrest
    have hmalformed := (Action.entryProblems_ne_nil_iff rfl hentry).mp hreported
    exact ⟨around, p₀, d₀, p₁, d₁, p₂, p', haround, hfront, hstep, hback, hscale, hr,
      agrees_of_isMalformed hmalformed (returns_applyEntry_iff.mp hstep)⟩

/-- The draws that are zero over and over, after some were taken. -/
def zerosAfter : Nat → Draws
  | 0 => zeroDraws
  | taken + 1 => (zerosAfter taken).next.2

/-- A certain chance on an empty range. -/
def emptyGold : Value := .mapping [("probability", .int 1), ("value", .text "random(5,1)")]

/-- One level, shown and free, with the given effects. -/
def digging (id : String) (effects : Tree) : Action where
  id := id
  label := id
  description := ""
  category := none
  statsEffects := []
  craftingCostReduction := Binary64.zero
  buildingCostReduction := Binary64.zero
  plan := .tiered ⟨id, [(1, [])], [(1, [])], [(1, effects)], .fixed Binary64.zero⟩

def shaftEffects : Tree := [("resources.stone", .text "random(1,4)")]

def quarryEffects : Tree := ("resources.gold", emptyGold) :: shaftEffects

/-- A shaft with nothing to report, and a quarry with a range that is empty. -/
def diggings : Content :=
  ⟨[("shaft", digging "shaft" shaftEffects), ("quarry", digging "quarry" quarryEffects)], [], [], []⟩

def stones (n : Int) : Tree := [("resources", .mapping [("stone", .int n)])]

def shaftResolution : Resolution :=
  ⟨stones 1, [], [], ["[Effects] resources.stone: random(1,4) rolled 1"]⟩

def quarryResolution : Resolution :=
  ⟨stones 1, [], [], [skipLine "resources.gold" "random range 'random(5,1)' has min > max",
    "[Effects] resources.stone: random(1,4) rolled 1"]⟩

theorem diggings_check_agrees :
    (∀ path reason, skipLine path reason ∉ shaftResolution.trace) ∧
      (digging "quarry" quarryEffects).problems =
        .ok [.entry "effects[1]" "resources.gold" (.effect (.emptyRange "random(5,1)"))] ∧
      ∃ around p₀ d₀ p₁ d₁, Returns (applyEntry around "resources.gold" emptyGold p₀) d₀ p₁ d₁ ∧
        p₀.Agrees p₁ := by
  have hclean : (digging "shaft" shaftEffects).problems = .ok [] := by decide +kernel
  have hfaulty : (digging "quarry" quarryEffects).problems =
      .ok [.entry "effects[1]" "resources.gold" (.effect (.emptyRange "random(5,1)"))] := by
    decide +kernel
  have hshaft : Returns (resolve diggings "shaft" [] false) zeroDraws shaftResolution (zerosAfter 1) := by
    decide +kernel
  have hquarry : Returns (resolve diggings "quarry" [] false) zeroDraws quarryResolution
      (zerosAfter 2) := by
    decide +kernel
  have hshaftLevel : (digging "shaft" shaftEffects).tier [] =
      .ok ⟨some 1, some [], some [], some shaftEffects, Binary64.zero⟩ := by decide +kernel
  have hquarryLevel : (digging "quarry" quarryEffects).tier [] =
      .ok ⟨some 1, some [], some [], some quarryEffects, Binary64.zero⟩ := by decide +kernel
  obtain ⟨tier, hshaftTier, hunskipped, -⟩ := check_agrees_with_resolution rfl hclean hshaft
  obtain ⟨tier', hquarryTier, -, hreported⟩ := check_agrees_with_resolution rfl hfaulty hquarry
  cases hshaftLevel.symm.trans hshaftTier
  cases hquarryLevel.symm.trans hquarryTier
  obtain ⟨reports, hreports, -, hstep⟩ := hreported _ rfl [] _ _ _ rfl
  have hsome : reports ≠ [] := by
    rintro rfl
    revert hreports
    decide +kernel
  obtain ⟨around, p₀, d₀, p₁, d₁, -, -, -, -, happly, -, -, -, hagrees⟩ := hstep hsome
  exact ⟨(hunskipped rfl).1 _ rfl, hfaulty, around, p₀, d₀, p₁, d₁, happly, hagrees⟩

end SurvivalRules
