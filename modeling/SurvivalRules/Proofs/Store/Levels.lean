import SurvivalRules.Proofs.Store.Frame

/-!
# Levels of buildings

A tiered action looks the level of its building up anew in every step, and writes the next level back as a
whole number. While nothing else writes there the building rises by one level at a time, up to the last
level that has a cost.
-/
namespace SurvivalRules

open Drawing

namespace TieredPlan

/-- The place where the level of the building is counted. -/
def counter (p : TieredPlan) : StatePath :=
  ⟨"buildings." ++ p.buildingKey, Section.buildings.name, [p.buildingKey]⟩

/-- The highest level that has a cost. -/
def lastLevel (p : TieredPlan) : ℤ := (OrderedMap.keys p.cost).foldr max 0

/-- The effect that marks a level as reached. -/
def mark (p : TieredPlan) (level : ℤ) : String × Value := (p.counter.raw, .int level)

end TieredPlan

/-- A value that counts `n` levels; what is missing counts none. -/
def Value.Counts (v : Value) (n : ℤ) : Prop := v = .int n ∨ v = .null ∧ n = 0

/-- The action `id` raises a building: its effects at each level with a cost mark that level, and no other
effect of it at these levels, and none of the other actions, writes on the way to the counter or below. -/
structure Content.Raises (c : Content) (id : String) (p : TieredPlan) : Prop where
  isName : StatePath.IsName p.buildingKey
  action : ∃ a, c.action? id = some a ∧ a.plan = .tiered p
  marks : ∀ level ∈ OrderedMap.keys p.cost, ∃ effects, OrderedMap.get? level p.effects = some effects ∧
    p.mark level ∈ effects ∧ ∀ e ∈ effects, e ≠ p.mark level → p.counter.IsApart [e.1]
  others : ∀ id' a, c.action? id' = some a → id' ≠ id → ∀ block ∈ Content.effectBlocks a,
    p.counter.IsApart (OrderedMap.keys block)

/-- Rounding toward zero keeps whole numbers. -/
theorem Numeric.truncated_intCast (n : ℤ) : truncated (n : ℚ) = n := by
  unfold truncated
  split
  next => rw [← Int.cast_neg, Rat.floor_intCast, neg_neg]
  next => exact Rat.floor_intCast n

namespace TieredPlan

variable {p : TieredPlan} {state : Tree} {n level : ℤ}

theorem le_lastLevel (h : level ∈ OrderedMap.keys p.cost) : level ≤ p.lastLevel := by
  unfold lastLevel
  generalize OrderedMap.keys p.cost = levels at h ⊢
  induction levels with
  | nil => cases h
  | cons first rest ih =>
    rcases List.mem_cons.mp h with rfl | hrest
    · exact le_max_left _ _
    · exact (ih hrest).trans (le_max_right _ _)

theorem parse_counter (h : StatePath.IsName p.buildingKey) :
    StatePath.parse p.counter.raw = .ok p.counter :=
  StatePath.parse_append_of_isName (show StatePath.IsName "buildings" by decide) h

@[simp] theorem head_counter (p : TieredPlan) : p.counter.head = Section.buildings.name := rfl

theorem head_counter_ne (p : TieredPlan) : p.counter.head ≠ Section.resources.name := by
  rw [head_counter]
  decide

theorem isApart_counter {paths : List String}
    (h : ∀ raw ∈ paths, ∀ q, StatePath.parse raw = .ok q → q.head ≠ Section.buildings.name) :
    p.counter.IsApart paths :=
  fun raw hraw q hq => StatePath.not_comparable_of_head_ne (h raw hraw q hq)

/-- Counters up to `2 ^ 53` are read without loss. -/
theorem currentLevel_eq (hcounts : (state.get p.counter).Counts n) (hn : n.natAbs ≤ significandBound)
    (h : p.currentLevel state = .ok level) : level = n := by
  obtain ⟨counts, hcounted, h⟩ := bind_eq_ok_iff.mp h
  obtain ⟨x, hx, hlast⟩ := bind_eq_ok_iff.mp h
  have hvalue : counts.lookup p.buildingKey = state.get p.counter := by
    rw [Tree.get_cons (show p.counter.rest = [p.buildingKey] from rfl), Value.descend_nil,
      head_counter, Tree.entries_of_section?_eq_ok hcounted]
  have hzero : Requirement.orZero (state.get p.counter) = .int n := by
    rcases hcounts with he | ⟨he, rfl⟩ <;> rw [he] <;> rfl
  rw [hvalue, hzero, Value.toNumber, Amount.toBinary64_int hn] at hx
  cases hx
  rw [Binary64.ofInt_eq_finite hn] at hlast
  cases hlast
  exact Numeric.truncated_intCast n

theorem tier_spec {a : Action} {tier : Tier} (hplan : a.plan = .tiered p) (h : a.tier state = .ok tier) :
    ∃ n, p.currentLevel state = .ok n ∧ tier.level = some (n + 1) ∧
      tier.cost = OrderedMap.get? (n + 1) p.cost ∧ tier.effects = OrderedMap.get? (n + 1) p.effects := by
  unfold Action.tier at h
  rw [hplan] at h
  obtain ⟨n, hn, hlast⟩ := bind_eq_ok_iff.mp h
  cases pure_eq_ok_iff.mp hlast
  exact ⟨n, hn, rfl, rfl, rfl⟩

end TieredPlan

section

variable {c : Circumstances} {q : StatePath} {p p' : Progress} {d d' : Draws} {level : ℤ}

/-- A whole number outside of the resources is written as it is. -/
theorem delta_applyEntry_int {raw : String} (hparse : StatePath.parse raw = .ok q)
    (hacc : q.accumulates = false) (h : Returns (applyEntry c raw (.int level) p) d p' d') :
    p'.delta = Delta.set p.delta c.state q (.int level) := by
  have hread : Effect.ofValue (.int level) = .ok (.sure (.constant (.amount (.int level)))) := rfl
  simp only [applyEntry, hparse, hread, applyOutcome, applyConstant, hacc, Bool.false_eq_true, if_false]
    at h
  obtain ⟨hp, -⟩ := returns_lift_iff.mp h
  cases hp
  rfl

/-- Entries of which one writes a number at `q`, and the others elsewhere, leave the number there. -/
theorem holds_applyEntries {effects : Tree} {raw : String} (hparse : StatePath.parse raw = .ok q)
    (hacc : q.accumulates = false) (hrest : q.rest ≠ [])
    (hothers : ∀ e ∈ effects, e ≠ (raw, .int level) → q.IsApart [e.1])
    (hmark : (raw, .int level) ∈ effects ∨ Delta.Holds p.delta c.state q (.int level))
    (h : Returns (applyEntries c effects p) d p' d') :
    Delta.Holds p'.delta c.state q (.int level) := by
  induction effects generalizing p d with
  | nil =>
    obtain ⟨rfl, -⟩ := returns_pure_iff.mp h
    exact hmark.resolve_left (List.not_mem_nil)
  | cons e rest ih =>
    obtain ⟨p₁, d₁, hfirst, hlater⟩ := returns_bind_iff.mp h
    refine ih (fun u hu => hothers u (List.mem_cons_of_mem e hu)) ?_ hlater
    by_cases he : e = (raw, .int level)
    · subst he
      right
      rw [delta_applyEntry_int hparse hacc hfirst]
      exact Delta.holds_set_self _ _ hrest _
    · refine hmark.imp (fun hmem => (List.mem_cons.mp hmem).resolve_left (Ne.symm he)) fun hholds => ?_
      rcases wroteAt_applyEntry hfirst with hsame | ⟨r, v, hr, -, hset⟩
      · rwa [hsame]
      · rw [hset]
        exact hholds.set v (hothers e List.mem_cons_self he e.1 (List.mem_singleton_self _) r hr)

end

namespace Store

variable {s s' : Store} {id : String} {p : TieredPlan} {n : ℤ}

/-- Whether a request does the action `id`. -/
def Does (s : Store) (id : String) (request : Request) : Prop :=
  request = .dispatch id ∧ ∃ result, (s.dispatch id).1 = .ok (.performed result)

/-- The level that a request buys of what the action `id` raises. -/
def levelBought (s : Store) (id : String) : Request → Option ℤ
  | .dispatch other =>
    if other = id then
      match (s.dispatch id).1 with
      | .ok (.performed _) =>
        ((s.content.action? id).bind fun a => (a.tier s.state).toOption).bind Tier.level
      | _ => none
    else none
  | _ => none

/-- The levels that the requests of a run buy, in their order. -/
def levelsBought (id : String) : Store → List Request → List ℤ
  | _, [] => []
  | s, request :: rest => (s.levelBought id request).toList ++ levelsBought id (s.serve request) rest

theorem levelBought_eq_none {request : Request} (h : ¬ s.Does id request) :
    s.levelBought id request = none := by
  cases request with
  | dispatch other =>
    simp only [levelBought]
    split
    next hother =>
      subst hother
      split
      next result hresult => exact absurd ⟨rfl, result, hresult⟩ h
      next => rfl
    next => rfl
  | _ => rfl

theorem levelBought_eq_some {a : Action} {tier : Tier} {result : Performed} {level : ℤ}
    (hresult : (s.dispatch id).1 = .ok (.performed result)) (ha : s.content.action? id = some a)
    (htier : a.tier s.state = .ok tier) (hlevel : tier.level = some level) :
    s.levelBought id (.dispatch id) = some level := by
  simp [levelBought, hresult, ha, htier, hlevel, Except.toOption]

/-- The bookkeeping of a dispatch stays away from the buildings. -/
theorem isApart_bookkeeping (p : TieredPlan) (id : String) (cooldown : Binary64) :
    p.counter.IsApart ((bookkeeping id cooldown).map Prod.fst) := by
  refine TieredPlan.isApart_counter fun raw hraw q hq => ?_
  obtain ⟨w, hw, rfl⟩ := List.mem_map.mp hraw
  rcases (bookkeeping_spec hw hq).2 with he | ⟨-, he | he, -⟩ <;> rw [he] <;> decide

/-- What a store keeps of a building that stands at level `n`. -/
structure StandsAt (s : Store) (id : String) (p : TieredPlan) (n : ℤ) : Prop where
  raises : s.content.Raises id p
  distinct : s.state.DistinctAt Section.buildings.name
  counts : (s.state.get p.counter).Counts n
  nonneg : 0 ≤ n
  le_last : n ≤ p.lastLevel

theorem StandsAt.natAbs_le (h : s.StandsAt id p n) (hlast : p.lastLevel ≤ significandBound) :
    n.natAbs ≤ significandBound := by
  have h₁ := h.nonneg
  have h₂ := h.le_last
  omega

/-- An action that raises a building and is done writes the level that it has paid for. -/
theorem raise_spec {result : Performed} (h : s.StandsAt id p n) (hlast : p.lastLevel ≤ significandBound)
    (hdone : s.dispatch id = (.ok (.performed result), s')) :
    n + 1 ∈ OrderedMap.keys p.cost ∧ s'.state.get p.counter = .int (n + 1) ∧
      s.levelBought id (.dispatch id) = some (n + 1) := by
  obtain ⟨hexec, r, d, delta, hres, hrecord, hstate, -⟩ := exists_delta_of_dispatch hdone
  obtain ⟨-, a, tier, cost, ha, htier, hcost, -⟩ := Gate.isExecutable_spec hexec
  obtain ⟨a', ha', hplan⟩ := h.raises.action
  cases ha.symm.trans ha'
  obtain ⟨m, hm, hlevel, htierCost, htierEffects⟩ := TieredPlan.tier_spec hplan htier
  cases TieredPlan.currentLevel_eq h.counts (h.natAbs_le hlast) hm
  have hmem : n + 1 ∈ OrderedMap.keys p.cost := OrderedMap.mem_keys_of_get? (htierCost.symm.trans hcost)
  refine ⟨hmem, ?_, levelBought_eq_some (congrArg Prod.fst hdone) ha htier hlevel⟩
  obtain ⟨effects, heffects, hmark, hothers⟩ := h.raises.marks (n + 1) hmem
  have hacc : p.counter.accumulates = false := rfl
  have hrest : p.counter.rest ≠ [] := List.cons_ne_nil _ _
  have hparse := TieredPlan.parse_counter h.raises.isName
  obtain ⟨around, q, q', haround, hq, hq', rfl⟩ := Resolution.returns_ofEffects_iff.mp
    ((Resolution.returns_resolve_iff ha htier (htierEffects.trans heffects)).mp hres)
  have hentries := holds_applyEntries hparse hacc hrest hothers (Or.inl hmark) hq
  rw [Resolution.state_of_circumstances haround] at hentries
  have hscaled := holds_scaleGains_of_head_ne hentries p.head_counter_ne hq'
  have hholds := holds_recordAll (isApart_bookkeeping p id result.cooldown) hrecord hscaled
  have hmerged := hholds.get_merge
    (tidyAt_bookkeeping h.distinct (tidyAt_resolve h.distinct hres) hrecord)
  rw [hstate, committed, (keeps_clampResources _ p.counter).elsewhere fun he => absurd he p.head_counter_ne,
    hmerged]

/-- Any other action leaves the building as it is. -/
theorem get_counter_of_other {result : Performed} {other : String} (h : s.StandsAt id p n)
    (hother : other ≠ id) (hdone : s.dispatch other = (.ok (.performed result), s')) :
    s'.state.get p.counter = s.state.get p.counter := by
  obtain ⟨a, tier, -, ha, htier, -⟩ := (Gate.isExecutable_spec (dispatch_performed_spec hdone).1).2
  have hapart : p.counter.IsApart (namedPaths other tier result.cooldown) := by
    intro raw hraw
    rcases List.mem_append.mp hraw with heffect | hrecord
    · cases heffects : tier.effects with
      | none =>
        rw [heffects] at heffect
        cases heffect
      | some effects =>
        rw [heffects] at heffect
        exact h.raises.others other a ha hother effects (effects_mem_effectBlocks htier heffects) raw heffect
    · rw [← map_fst_bookkeeping] at hrecord
      exact isApart_bookkeeping p other result.cooldown raw hrecord
  exact (keeps_dispatch h.distinct ha htier (fun he => absurd he p.head_counter_ne) hapart hdone).elsewhere
    fun he => absurd he p.head_counter_ne

theorem content_tick {seconds : Value} {ready : List String} (h : s.tick seconds = .ok (ready, s')) :
    s'.content = s.content := by
  unfold tick at h
  split at h
  next t ht =>
    unfold advance at h
    split at h
    · cases h
      rfl
    · obtain ⟨timers, -, h⟩ := bind_eq_ok_iff.mp h
      obtain ⟨⟨running, out⟩, -, h⟩ := bind_eq_ok_iff.mp h
      cases pure_eq_ok_iff.mp h
      rfl
  next => cases h

/-- A request raises the building by one level, or leaves it as it is. -/
theorem StandsAt.serve (h : s.StandsAt id p n) (hlast : p.lastLevel ≤ significandBound)
    {request : Request} (hkeep : ∀ v, request ≠ .replace v) :
    (s.Does id request ∧ n + 1 ∈ OrderedMap.keys p.cost ∧ s.levelBought id request = some (n + 1) ∧
        (s.serve request).state.get p.counter = .int (n + 1) ∧ (s.serve request).StandsAt id p (n + 1)) ∨
      (¬ s.Does id request ∧ s.levelBought id request = none ∧
        (s.serve request).state.get p.counter = s.state.get p.counter ∧
        (s.serve request).StandsAt id p n) := by
  -- a request that leaves the buildings and the content alone
  have hstays : ∀ s' : Store, s'.content = s.content →
      s'.state.lookup Section.buildings.name = s.state.lookup Section.buildings.name →
      s'.state.get p.counter = s.state.get p.counter ∧ s'.StandsAt id p n := by
    intro s' hcontent hlook
    have hget : s'.state.get p.counter = s.state.get p.counter := by
      rw [Tree.get_eq_descend, Tree.get_eq_descend, TieredPlan.head_counter, hlook]
    refine ⟨hget, hcontent ▸ h.raises, ?_, hget ▸ h.counts, h.nonneg, h.le_last⟩
    rw [Tree.DistinctAt, hlook]
    exact h.distinct
  cases request with
  | dispatch other =>
    by_cases hresult : ∃ result, (s.dispatch other).1 = .ok (.performed result)
    · obtain ⟨result, hresult⟩ := hresult
      have hdone : s.dispatch other = (.ok (.performed result), (s.dispatch other).2) :=
        Prod.ext hresult rfl
      obtain ⟨-, r, d, delta, -, -, -, hcontent⟩ := exists_delta_of_dispatch hdone
      have hdistinct := distinctAt_dispatch h.distinct hdone
      by_cases hother : other = id
      · subst hother
        obtain ⟨hmem, hget, hbought⟩ := raise_spec h hlast hdone
        refine Or.inl ⟨⟨rfl, result, hresult⟩, hmem, hbought, hget, ?_⟩
        have hnonneg := h.nonneg
        exact ⟨hcontent ▸ h.raises, hdistinct, Or.inl hget, by omega, TieredPlan.le_lastLevel hmem⟩
      · have hget := get_counter_of_other h hother hdone
        have hnot : ¬ s.Does id (.dispatch other) := fun hdoes => hother (Request.dispatch.inj hdoes.1)
        exact Or.inr ⟨hnot, levelBought_eq_none hnot, hget, hcontent ▸ h.raises, hdistinct,
          hget ▸ h.counts, h.nonneg, h.le_last⟩
    · obtain ⟨hstate, hcontent⟩ : (s.dispatch other).2.state = s.state ∧
          (s.dispatch other).2.content = s.content :=
        dispatch_not_performed_spec rfl fun result he => hresult ⟨result, he⟩
      have hnot : ¬ s.Does id (.dispatch other) := by
        rintro ⟨he, hdone⟩
        cases he
        exact hresult hdone
      exact Or.inr ⟨hnot, levelBought_eq_none hnot, hstays (s.dispatch other).2 hcontent (by rw [hstate])⟩
  | tick seconds =>
    have hnot : ¬ s.Does id (.tick seconds) := fun hdoes => nomatch hdoes.1
    refine Or.inr ⟨hnot, rfl, ?_⟩
    simp only [Store.serve]
    split
    next ready next htick =>
      exact hstays next (content_tick htick) (lookup_tick_of_ne (by decide) htick)
    next => exact hstays s rfl rfl
  | replace v => exact absurd rfl (hkeep v)

/-- A run buys the next levels one after another. -/
theorem StandsAt.serveAll (h : s.StandsAt id p n) (hlast : p.lastLevel ≤ significandBound)
    {requests : List Request} (hkeep : ∀ request ∈ requests, ∀ v, request ≠ .replace v) :
    ∃ k : ℕ, levelsBought id s requests = (List.range k).map (fun i : ℕ => n + 1 + (i : ℤ)) ∧
      (s.serveAll requests).StandsAt id p (n + k) := by
  induction requests generalizing s n with
  | nil => exact ⟨0, rfl, by simpa [serveAll] using h⟩
  | cons request rest ih =>
    obtain ⟨hfirst, hrest⟩ := List.forall_mem_cons.mp hkeep
    rcases h.serve hlast hfirst with ⟨-, -, hbought, -, hnext⟩ | ⟨-, hbought, -, hnext⟩
    · obtain ⟨k, hlevels, hstands⟩ := ih hnext hrest
      refine ⟨k + 1, ?_, ?_⟩
      · have hshift : (fun i : ℕ => n + 1 + 1 + (i : ℤ)) =
            (fun i : ℕ => n + 1 + (i : ℤ)) ∘ Nat.succ := by
          funext i
          simp only [Function.comp_apply, Nat.succ_eq_add_one, Nat.cast_add, Nat.cast_one]
          omega
        rw [levelsBought, hbought, hlevels, List.range_succ_eq_map, List.map_cons, List.map_map, hshift]
        simp
      · rw [show n + ((k + 1 : ℕ) : ℤ) = n + 1 + k by push_cast; omega]
        exact hstands
    · obtain ⟨k, hlevels, hstands⟩ := ih hnext hrest
      refine ⟨k, ?_, hstands⟩
      rw [levelsBought, hbought, hlevels]
      rfl

/-- Take any run of dispatches and ticks from a state in which the building has at most its last level. No
level is bought twice. At every point of the run the building has some level up to the last one; the next
request makes it one more if it does the action that raises the building, and otherwise leaves it. -/
theorem buildings_rise_one_at_a_time {requests : List Request} (hraises : s.content.Raises id p)
    (hlast : p.lastLevel ≤ significandBound) (hd : s.state.DistinctAt Section.buildings.name)
    (hstart : ∃ n, (s.state.get p.counter).Counts n ∧ 0 ≤ n ∧ n ≤ p.lastLevel)
    (hkeep : ∀ request ∈ requests, ∀ v, request ≠ .replace v) :
    (levelsBought id s requests).Nodup ∧
      ∀ before, before <+: requests → ∃ n : ℤ, 0 ≤ n ∧ n ≤ p.lastLevel ∧
        ((s.serveAll before).state.get p.counter).Counts n ∧
        ∀ request, before ++ [request] <+: requests →
          ((s.serveAll before).Does id request →
            (s.serveAll before).levelBought id request = some (n + 1) ∧
              n + 1 ∈ OrderedMap.keys p.cost ∧
              ((s.serveAll before).serve request).state.get p.counter = .int (n + 1)) ∧
          (¬ (s.serveAll before).Does id request →
            ((s.serveAll before).serve request).state.get p.counter =
              (s.serveAll before).state.get p.counter) := by
  obtain ⟨n, hcounts, hnonneg, hle⟩ := hstart
  have hstands : s.StandsAt id p n := ⟨hraises, hd, hcounts, hnonneg, hle⟩
  constructor
  · obtain ⟨k, hlevels, -⟩ := hstands.serveAll hlast hkeep
    rw [hlevels]
    exact List.nodup_range.map fun i j hij => by simpa using hij
  · intro before hbefore
    obtain ⟨k, -, hnow⟩ := hstands.serveAll hlast fun request hmem => hkeep request (hbefore.subset hmem)
    refine ⟨n + k, hnow.nonneg, hnow.le_last, hnow.counts, fun request hnext => ?_⟩
    have hrequest : ∀ v, request ≠ .replace v := hkeep request (hnext.subset (by simp))
    rcases hnow.serve hlast hrequest with ⟨hdoes, hcost, hbought, hget, -⟩ | ⟨hnot, -, hget, -⟩
    · exact ⟨fun _ => ⟨hbought, hcost, hget⟩, fun hnot => absurd hdoes hnot⟩
    · exact ⟨fun hdoes => absurd hdoes hnot, fun _ => hget⟩

/-- A hut with two levels, of which the second costs wood. -/
def hutPlan : TieredPlan where
  buildingKey := "hut"
  showWhen := [(1, []), (2, [])]
  cost := [(1, []), (2, [("resources.wood", .int 1)])]
  effects := [(1, [("buildings.hut", .int 1)]),
    (2, [("resources.wood", .int (-1)), ("buildings.hut", .int 2)])]
  cooldown := .fixed Binary64.zero

def raising (id : String) (p : TieredPlan) : Action where
  id := id
  label := "Build"
  description := ""
  category := none
  statsEffects := []
  craftingCostReduction := Binary64.zero
  buildingCostReduction := Binary64.zero
  plan := .tiered p

/-- Some wood and no building. -/
def hamlet : Store :=
  start ⟨[("buildHut", raising "buildHut" hutPlan), ("forage", forage)], [], [], []⟩
    [("resources", .mapping [("wood", .int 1)])] zeroDraws false

def hamletRequests : List Request :=
  [.dispatch "buildHut", .tick (.int 5), .dispatch "forage", .dispatch "buildHut", .dispatch "buildHut"]

theorem hamlet_raises : hamlet.content.Raises "buildHut" hutPlan where
  isName := by decide
  action := ⟨_, rfl, rfl⟩
  marks := by
    intro level hlevel
    have hcases : level = 1 ∨ level = 2 := by simpa [hutPlan] using hlevel
    rcases hcases with rfl | rfl
    · exact ⟨_, rfl, by decide, by decide +kernel⟩
    · exact ⟨_, rfl, by decide, by decide +kernel⟩
  others := by
    intro id a ha hne
    have hmem := OrderedMap.mem_of_get? ha
    simp only [hamlet, start, List.mem_cons, Prod.mk.injEq, List.not_mem_nil, or_false] at hmem
    rcases hmem with ⟨rfl, -⟩ | ⟨-, rfl⟩
    · exact absurd rfl hne
    · decide +kernel

/-- The hut is built and raised, and asked for a third time it stays as it is. -/
theorem hamlet_rises :
    levelsBought "buildHut" hamlet hamletRequests = [1, 2] ∧
      (levelsBought "buildHut" hamlet hamletRequests).Nodup ∧
      ∃ n : ℤ, n ≤ 2 ∧ ((hamlet.serveAll hamletRequests).state.get hutPlan.counter).Counts n := by
  have hkeep : ∀ request ∈ hamletRequests, ∀ v, request ≠ .replace v := by
    simp [hamletRequests]
  obtain ⟨hnodup, hpoints⟩ := buildings_rise_one_at_a_time hamlet_raises (by decide)
    List.nodup_nil ⟨0, Or.inr ⟨by decide, rfl⟩, by decide, by decide⟩ hkeep
  obtain ⟨n, -, hle, hcounts, -⟩ := hpoints hamletRequests List.prefix_rfl
  exact ⟨by decide +kernel, hnodup, n, hle, hcounts⟩

/-- A tower whose only level is the first whole number that binary64 does not hold. -/
def towerPlan : TieredPlan where
  buildingKey := "tower"
  showWhen := [(2 ^ 53 + 1, [])]
  cost := [(2 ^ 53 + 1, [])]
  effects := [(2 ^ 53 + 1, [("buildings.tower", .int (2 ^ 53 + 1))])]
  cooldown := .fixed Binary64.zero

/-- The tower stands at its last level. -/
def babel : Store :=
  start ⟨[("buildTower", raising "buildTower" towerPlan)], [], [], []⟩
    [("buildings", .mapping [("tower", .int (2 ^ 53 + 1))])] zeroDraws false

theorem babel_raises : babel.content.Raises "buildTower" towerPlan where
  isName := by decide
  action := ⟨_, rfl, rfl⟩
  marks := by
    intro level hlevel
    have hcase : level = 2 ^ 53 + 1 := by simpa [towerPlan] using hlevel
    subst hcase
    exact ⟨_, rfl, by decide, by decide +kernel⟩
  others := by
    intro id a ha hne
    have hmem := OrderedMap.mem_of_get? ha
    simp only [babel, start, List.mem_cons, Prod.mk.injEq, List.not_mem_nil, or_false] at hmem
    exact absurd hmem.1 hne

/-- Beyond `2 ^ 53` a level is read as the one below it, so the last level is bought again. -/
theorem babel_buys_its_level_again :
    babel.content.Raises "buildTower" towerPlan ∧ babel.state.Distinct ∧
      (babel.state.get towerPlan.counter).Counts towerPlan.lastLevel ∧
      babel.Does "buildTower" (.dispatch "buildTower") ∧
      (babel.serve (.dispatch "buildTower")).state.get towerPlan.counter =
        babel.state.get towerPlan.counter ∧
      levelsBought "buildTower" babel [.dispatch "buildTower", .dispatch "buildTower"] =
        [towerPlan.lastLevel, towerPlan.lastLevel] := by
  have hdone : (babel.dispatch "buildTower").1 = .ok (.performed ⟨[], [], Binary64.zero, []⟩) := by
    decide +kernel
  exact ⟨babel_raises, Tree.distinct_of_forall_mem (by decide), Or.inl (by decide), ⟨rfl, _, hdone⟩, by decide +kernel, by decide +kernel⟩

end Store

end SurvivalRules
