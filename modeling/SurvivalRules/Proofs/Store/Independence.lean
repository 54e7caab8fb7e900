import SurvivalRules.Proofs.Reasons
import SurvivalRules.Proofs.Resolve.Whole
import SurvivalRules.Proofs.State.Reorder
import SurvivalRules.Proofs.Store.Levels
import SurvivalRules.Proofs.Store.Reads

/-!
# Independent actions

Two plain actions that write nothing that the other one reads can be done in either order. Each of them finds
the same bonuses, the same price and the same amounts after the other, so it makes the same writes, and those
of one can be swapped with those of the other.
-/
namespace SurvivalRules

open Drawing

/-- No place that the entries of one block name is on the way to a place that the other names, or below. -/
def Tree.Apart (t u : Tree) : Prop :=
  ∀ e ∈ t, ∀ q, StatePath.parse e.1 = .ok q → q.IsApart (OrderedMap.keys u)

instance (t u : Tree) : Decidable (t.Apart u) :=
  inferInstanceAs (Decidable (∀ e ∈ t, ∀ q, StatePath.parse e.1 = .ok q → q.IsApart (OrderedMap.keys u)))

theorem Tree.Apart.symm {t u : Tree} (h : t.Apart u) : u.Apart t := by
  intro e he q hq raw hraw p hp
  obtain ⟨e', he', rfl⟩ := List.mem_map.mp hraw
  exact StatePath.not_comparable_symm (h e' he' p hp e.1 (List.mem_map_of_mem he) q hq)

/-- Two plain actions of which neither writes at places that the other writes or pays at. -/
structure Content.Independent (c : Content) (a b : String) (p q : FlatPlan) : Prop where
  ne : a ≠ b
  left : c.IsPlain a p
  right : c.IsPlain b q
  effects : p.effects.Apart q.effects
  leftCost : p.effects.Apart q.cost
  rightCost : q.effects.Apart p.cost

theorem Content.Independent.symm {c : Content} {a b : String} {p q : FlatPlan}
    (h : c.Independent a b p q) : c.Independent b a q p :=
  ⟨h.ne.symm, h.right, h.left, h.effects.symm, h.rightCost, h.leftCost⟩

namespace Store

section

variable {around : Circumstances} {amplify : Bool} {q : StatePath} {v w : Value} {name : String}

theorem isWhole_addedUp (hstate : around.state.WholeResources) (hname : q.resource? = some name)
    (hv : v.IsWhole) (h : addedUp around q v = .ok w) : w.IsWhole := by
  unfold addedUp at h
  split at h
  · cases h
    exact hv
  next a ha =>
    split at h
    · obtain ⟨paid, hpaid, h⟩ := bind_eq_ok_iff.mp h
      obtain ⟨total, htotal, h⟩ := bind_eq_ok_iff.mp h
      cases pure_eq_ok_iff.mp h
      have hpaid' := isWhole_payment (hv a ha) hpaid
      exact Value.isWhole_ofAmount ((hstate.get hname).getD_zero.add hpaid' htotal)
    · cases h
      exact hv

theorem isWhole_rescaled {state : Tree} {multiplier : Binary64} (hstate : state.WholeResources)
    (hv : v.IsWhole) (h : rescaled state multiplier amplify name v = .ok w) : w.IsWhole := by
  cases hamount : v.amount? with
  | none =>
    rw [rescaled_of_none hamount] at h
    cases h
    exact hv
  | some new =>
    obtain ⟨scaled, t', hscaled, rfl⟩ := (rescaled_eq_ok_iff hamount (Trace.empty "Effects")).mp h
    exact Value.isWhole_ofAmount (isWhole_scaleGain hstate (hv new hamount) hscaled)

/-- A whole number that is clamped is a natural number. -/
theorem natural_of_clampAmount (hv : v.IsWhole) {a : Amount} (ha : (clampAmount v).amount? = some a) :
    ∃ n : ℕ, a = .int n := by
  have hnot := not_lt_zero_clampAmount ha
  rcases clampAmount_spec v with ⟨-, he⟩ | ⟨-, he⟩
  · rw [he] at ha
    cases ha
    exact ⟨0, rfl⟩
  · rw [he] at ha
    obtain ⟨n, rfl⟩ := hv a ha
    rw [Amount.zero, ← Bool.not_eq_true, Amount.lt_int_iff] at hnot
    exact ⟨n.toNat, by rw [Int.toNat_of_nonneg (by omega)]⟩

end

section

variable {s s' : Store} {id : String} {p : FlatPlan} {ws : List (StatePath × Value)}

/-- The writes of a plain action that is done in the state of a store. -/
def Makes (s : Store) (id : String) (p : FlatPlan) (ws : List (StatePath × Value)) : Prop :=
  ∃ a around cooldown writes, s.content.action? id = some a ∧
    Gate.effectiveCooldown s.content id s.state = .ok cooldown ∧
    Resolution.circumstances s.content a s.state = .ok around ∧
    Settles around s.amplify p.effects writes ∧ ws = writes ++ recordWrites id cooldown

theorem Makes.unique {ws' : List (StatePath × Value)} (h : s.Makes id p ws) (h' : s.Makes id p ws') :
    ws = ws' := by
  obtain ⟨a, around, cooldown, writes, ha, hcooldown, haround, hsettles, rfl⟩ := h
  obtain ⟨a', around', cooldown', writes', ha', hcooldown', haround', hsettles', rfl⟩ := h'
  cases ha.symm.trans ha'
  cases hcooldown.symm.trans hcooldown'
  cases haround.symm.trans haround'
  rw [hsettles.unique hsettles']

theorem amplify_of_performed {result : Performed}
    (hdone : s.dispatch id = (.ok (.performed result), s')) : s'.amplify = s.amplify := by
  obtain ⟨-, cooldown, r, d, -, -, hcommit, -⟩ := dispatch_performed_spec hdone
  obtain ⟨delta, -, hlast⟩ := bind_eq_ok_iff.mp hcommit
  cases pure_eq_ok_iff.mp hlast
  rfl

/-- A plain action that is done has made its writes. -/
theorem exists_makes_of_performed {result : Performed} (hplain : s.content.IsPlain id p)
    (hd : s.state.Distinct) (hnat : s.state.NaturalResources)
    (hdone : s.dispatch id = (.ok (.performed result), s')) :
    ∃ ws, s.Makes id p ws ∧ s'.state = s.state.setAll ws := by
  obtain ⟨a, around, writes, ha, haround, hsettles, hstate⟩ :=
    exists_settles_of_performed hplain hd hnat hdone
  obtain ⟨-, cooldown, r, d, hcooldown, -, -, rfl⟩ := dispatch_performed_spec hdone
  exact ⟨_, ⟨a, around, cooldown, writes, ha, hcooldown, haround, hsettles, rfl⟩, hstate⟩

/-- A plain action that can be done and has writes to make is done, and makes these. -/
theorem exists_performed_of_makes (hplain : s.content.IsPlain id p) (hd : s.state.Distinct)
    (hnat : s.state.NaturalResources) (hexec : s.isExecutable id = .ok true) (h : s.Makes id p ws) :
    ∃ result s', s.dispatch id = (.ok (.performed result), s') ∧ s'.state = s.state.setAll ws := by
  have hmakes := h
  obtain ⟨a, around, cooldown, writes, ha, hcooldown, haround, hsettles, rfl⟩ := h
  obtain ⟨result, s', hdone, -⟩ :=
    exists_performed_of_settles hplain hd hnat hexec hcooldown ha haround hsettles
  obtain ⟨ws', hws', hstate⟩ := exists_makes_of_performed hplain hd hnat hdone
  refine ⟨result, s', hdone, ?_⟩
  rw [hstate, hws'.unique hmakes]

/-- Each write of a plain action is that of an effect or one of the records of the store. -/
theorem Makes.mem_cases (h : s.Makes id p ws) {w : StatePath × Value} (hw : w ∈ ws) :
    (∃ e ∈ p.effects, PlainEntry e.1 e.2 w.1) ∨ ∃ cooldown, w ∈ recordWrites id cooldown := by
  obtain ⟨a, around, cooldown, writes, -, -, -, hsettles, rfl⟩ := h
  rcases List.mem_append.mp hw with heffect | hrecord
  · obtain ⟨e, he, hplain, -⟩ := hsettles.exists_entry heffect
    exact Or.inl ⟨e, he, hplain⟩
  · exact Or.inr ⟨cooldown, hrecord⟩

theorem Makes.rest_ne_nil (h : s.Makes id p ws) : ∀ w ∈ ws, w.1.rest ≠ [] := by
  intro w hw
  rcases h.mem_cases hw with ⟨e, -, hplain⟩ | ⟨cooldown, hrecord⟩
  · exact hplain.rest_ne_nil
  · exact rest_recordWrites hrecord

/-- No bonus is computed from a section that a plain action writes. -/
theorem Makes.head_not_mem_sections (h : s.Makes id p ws) {w : StatePath × Value} (hw : w ∈ ws) :
    w.1.head ∉ Totals.sections := by
  have hnone : ∀ area ∈ [Section.resources, .flags, .story, .cooldowns, .cooldownDurations],
      area.name ∉ Totals.sections := by decide
  rcases h.mem_cases hw with ⟨e, -, hplain⟩ | ⟨cooldown, hrecord⟩
  · rcases hplain.head with he | he <;> rw [he] <;> exact hnone _ (by simp)
  · rcases recordWrites_spec hrecord with rfl | rfl | rfl
    · exact hnone .story (by simp)
    · exact hnone .cooldowns (by simp)
    · exact hnone .cooldownDurations (by simp)

/-- After its writes the resources are natural numbers still. -/
theorem Makes.naturalResources (h : s.Makes id p ws) (hnat : s.state.NaturalResources) :
    (s.state.setAll ws).NaturalResources := by
  have hwhole : s.state.WholeResources := by
    intro e he a ha
    obtain ⟨n, hn⟩ := hnat e he a ha
    exact ⟨n, hn⟩
  have hmakes := h
  obtain ⟨a, around, cooldown, writes, -, -, haround, hsettles, rfl⟩ := h
  rw [← Resolution.state_of_circumstances haround] at hwhole
  have hdirect : ∀ w ∈ writes ++ recordWrites id cooldown, w.1.head = Section.resources.name →
      ∃ name, w.1.rest = [name] := by
    intro w hw hhead
    rcases hmakes.mem_cases hw with ⟨e, -, hplain⟩ | ⟨cooldown', hrecord⟩
    · exact hplain.rest
    · exact absurd hhead (head_recordWrites hrecord).1
  intro e he x hx
  rcases mem_resources_setAll hdirect he with hbefore | ⟨w, hw, hname, hvalue⟩
  · exact hnat e hbefore x hx
  · rcases List.mem_append.mp hw with heffect | hrecord
    · obtain ⟨entry, -, hplain, hsettled⟩ := hsettles.exists_entry heffect
      have hconstant : entry.2.IsWhole := by
        rcases hplain.constant with ⟨n, hn⟩ | ⟨b, hb⟩
        · rw [hn]
          exact Value.isWhole_ofAmount ⟨n, rfl⟩
        · rw [hb]
          exact fun a ha => absurd ha (by simp [Value.amount?])
      obtain ⟨total, htotal, hlast⟩ := bind_eq_ok_iff.mp hsettled
      rw [hname] at hlast
      obtain ⟨scaled, hscaled, hclamped⟩ := bind_eq_ok_iff.mp hlast
      rw [← hvalue, ← pure_eq_ok_iff.mp hclamped] at hx
      refine natural_of_clampAmount (isWhole_rescaled hwhole ?_ hscaled) hx
      exact isWhole_addedUp hwhole hname hconstant htotal
    · rw [StatePath.resource?_eq_none (head_recordWrites hrecord).1] at hname
      cases hname

/-- Where the same is read, the same writes are made. -/
theorem Makes.of_readsSame {b : String} {q : FlatPlan} {s₁ : Store} (h : s.Makes b q ws)
    (hflat : ∃ a, s.content.action? b = some a ∧ a.plan = .flat q)
    (hcontent : s₁.content = s.content) (hamplify : s₁.amplify = s.amplify)
    (hreads : ReadsSame b q s.state s₁.state) : s₁.Makes b q ws := by
  obtain ⟨a, around, cooldown, writes, ha, hcooldown, haround, hsettles, rfl⟩ := h
  obtain ⟨a', ha', hplan⟩ := hflat
  cases ha.symm.trans ha'
  refine ⟨a, { around with state := s₁.state }, cooldown, writes, ?_, ?_, ?_, ?_, rfl⟩
  · rw [hcontent, ha]
  · rw [hcontent, hreads.effectiveCooldown ha hplan, hcooldown]
  · rw [hcontent, hreads.circumstances haround]
  · rw [hamplify]
    exact hreads.settles (Resolution.state_of_circumstances haround) hsettles

end

section

variable {s : Store} {a b : String} {p q : FlatPlan} {vs ws : List (StatePath × Value)}

/-- The writes of an action are not among what an independent one reads. -/
theorem Makes.readsSame (h : s.Makes a p vs) (hind : s.content.Independent a b p q) :
    ReadsSame b q s.state (s.state.setAll vs) := by
  have hread : ∀ raw r, StatePath.parse raw = .ok r →
      (r.head = Section.resources.name ∨ r.head = Section.flags.name) →
      (∀ e ∈ p.effects, ∀ r', StatePath.parse e.1 = .ok r' → ¬ r.Comparable r') →
      (s.state.setAll vs).get r = s.state.get r := by
    intro raw r hr hhead hapart
    apply Tree.get_setAll_of_apart
    intro w hw
    rcases h.mem_cases hw with ⟨e, he, hplain⟩ | ⟨cooldown, hrecord⟩
    · exact StatePath.not_comparable_symm (hapart e he w.1 hplain.parses)
    · have hne := head_recordWrites hrecord
      exact StatePath.not_comparable_of_head_ne (by rcases hhead with he | he <;> rw [he] <;> tauto)
  refine ⟨fun k hk => ?_, fun e he r hr => ?_, fun e he r hr => ?_, ?_, fun k es hk => ?_⟩
  · apply Tree.lookup_setAll_of_head_ne
    rintro w hw rfl
    exact h.head_not_mem_sections hw hk
  · obtain ⟨r', hplain⟩ := hind.right.effects.plain e he
    cases hr.symm.trans hplain.parses
    exact hread e.1 r hr hplain.head fun e' he' r' hr' =>
      hind.effects e' he' r' hr' e.1 (List.mem_map_of_mem he) r hr
  · exact hread e.1 r hr (hind.right.cost e.1 (List.mem_map_of_mem he) r hr) fun e' he' r' hr' =>
      hind.leftCost e' he' r' hr' e.1 (List.mem_map_of_mem he) r hr
  · apply Tree.get_setAll_of_apart
    intro w hw
    rcases h.mem_cases hw with ⟨e, -, hplain⟩ | ⟨cooldown, hrecord⟩
    · apply StatePath.not_comparable_of_head_ne
      rcases hplain.head with he | he <;> rw [he] <;> simp [timerPath, Section.name]
    · rcases recordWrites_spec hrecord with rfl | rfl | rfl
      · exact StatePath.not_comparable_of_head_ne (by simp [timerPath])
      · simp [StatePath.Comparable, StatePath.keys, timerPath, hind.ne, hind.ne.symm]
      · exact StatePath.not_comparable_of_head_ne (by simp [timerPath])
  · exact Tree.exists_section?_setAll h.rest_ne_nil hk

/-- The writes of independent actions can be swapped. -/
theorem Makes.swaps (h : s.Makes a p vs) (h' : s.Makes b q ws) (hind : s.content.Independent a b p q) :
    ∀ v ∈ vs, ∀ w ∈ ws, Tree.Swaps v w := by
  intro v hv w hw
  rcases h.mem_cases hv with ⟨e, he, hplain⟩ | ⟨cooldown, hrecord⟩ <;>
    rcases h'.mem_cases hw with ⟨e', he', hplain'⟩ | ⟨cooldown', hrecord'⟩
  · refine Or.inl fun hcomp => ?_
    exact hind.effects e he v.1 hplain.parses e'.1 (List.mem_map_of_mem he') w.1 hplain'.parses
      hcomp.symm
  · have hne := head_recordWrites hrecord'
    refine Or.inl (StatePath.not_comparable_of_head_ne ?_)
    rcases hplain.head with he | he <;> rw [he] <;> tauto
  · have hne := head_recordWrites hrecord
    refine Or.inl (StatePath.not_comparable_of_head_ne ?_)
    rcases hplain'.head with he | he <;> rw [he] <;> tauto
  · rcases recordWrites_spec hrecord with rfl | rfl | rfl <;>
      rcases recordWrites_spec hrecord' with rfl | rfl | rfl
    -- both remember in the story that they were seen, maybe under the same key
    · by_cases hseen : seenKey a = seenKey b
      · exact Or.inr (by simp [StatePath.keys, hseen])
      · exact Or.inl (by simp [StatePath.Comparable, StatePath.keys, hseen, Ne.symm hseen])
    all_goals
      refine Or.inl ?_
      simp [StatePath.Comparable, StatePath.keys, hind.ne, hind.ne.symm]

/-- An action that is done after an independent one makes the writes that it makes without it. -/
theorem exists_performed_after {sa : Store} {ra : Performed} (hind : s.content.Independent a b p q)
    (hd : s.state.Distinct) (hnat : s.state.NaturalResources)
    (ha : s.dispatch a = (.ok (.performed ra), sa)) (hmakes : s.Makes a p vs)
    (hstate : sa.state = s.state.setAll vs) (hexec : s.isExecutable b = .ok true)
    (hmakes' : s.Makes b q ws) :
    ∃ result sab, sa.dispatch b = (.ok (.performed result), sab) ∧
      sab.state = (s.state.setAll vs).setAll ws := by
  obtain ⟨-, r, d, delta, -, -, -, hcontent⟩ := exists_delta_of_dispatch ha
  have hamplify := amplify_of_performed ha
  have hreads := hmakes.readsSame hind
  rw [← hstate] at hreads ⊢
  have hflat := hind.right.action
  have hafter : sa.Makes b q ws := hmakes'.of_readsSame hflat hcontent hamplify hreads
  obtain ⟨action, haction, hplan⟩ := hflat
  have hexec' : sa.isExecutable b = .ok true := by
    rw [isExecutable, hcontent]
    exact hreads.isExecutable haction hplan hexec
  refine exists_performed_of_makes (hcontent ▸ hind.right) ?_ ?_ hexec' hafter
  · exact fun k => distinctAt_dispatch (hd k) ha
  · rw [hstate]
    exact hmakes.naturalResources hnat

end

/-- The action `b` is done after `a`, and what `a` wrote by its effects is there still. -/
def DoneInTurn (s : Store) (a b : String) (p : FlatPlan) (final : Store) : Prop :=
  ∃ ra rb between, s.dispatch a = (.ok (.performed ra), between) ∧
    between.dispatch b = (.ok (.performed rb), final) ∧
    ∀ e ∈ p.effects, ∀ q, StatePath.parse e.1 = .ok q → final.state.get q = between.state.get q

section

variable {s : Store} {a b : String} {p q : FlatPlan}

/-- Of two independent actions the second is done whenever each of them is done by itself. -/
theorem exists_doneInTurn {sa sb : Store} {ra rb : Performed} (hind : s.content.Independent a b p q)
    (hd : s.state.Distinct) (hnat : s.state.NaturalResources)
    (ha : s.dispatch a = (.ok (.performed ra), sa)) (hb : s.dispatch b = (.ok (.performed rb), sb)) :
    ∃ vs ws final, s.Makes a p vs ∧ s.Makes b q ws ∧ s.DoneInTurn a b p final ∧
      final.state = (s.state.setAll vs).setAll ws := by
  obtain ⟨vs, hvs, hstate⟩ := exists_makes_of_performed hind.left hd hnat ha
  obtain ⟨ws, hws, -⟩ := exists_makes_of_performed hind.right hd hnat hb
  obtain ⟨rb', final, hafter, hfinal⟩ :=
    exists_performed_after hind hd hnat ha hvs hstate (dispatch_performed_spec hb).1 hws
  refine ⟨vs, ws, final, hvs, hws, ⟨ra, rb', sa, ha, hafter, fun e he r hr => ?_⟩, hfinal⟩
  rw [hfinal, hstate]
  apply Tree.get_setAll_of_apart
  intro w hw
  obtain ⟨r', hplain⟩ := hind.left.effects.plain e he
  cases hr.symm.trans hplain.parses
  rcases hws.mem_cases hw with ⟨e', he', hplain'⟩ | ⟨cooldown, hrecord⟩
  · exact StatePath.not_comparable_symm
      (hind.effects.symm e' he' w.1 hplain'.parses e.1 (List.mem_map_of_mem he) r hr)
  · have hne := head_recordWrites hrecord
    refine StatePath.not_comparable_of_head_ne ?_
    rcases hplain.head with hhead | hhead <;> rw [hhead]
    exacts [hne.1, hne.2]

theorem exists_performed_of_returns (hexec : s.isExecutable a = .ok true)
    (hreturns : ∀ cause, (s.dispatch a).1 ≠ .error cause) :
    ∃ result, s.dispatch a = (.ok (.performed result), (s.dispatch a).2) := by
  cases hverdict : (s.dispatch a).1 with
  | error cause => exact absurd hverdict (hreturns cause)
  | ok verdict =>
    cases verdict with
    | performed result => exact ⟨result, Prod.ext hverdict rfl⟩
    | rejected reasons =>
      have hrejected : s.dispatch a = (.ok (.rejected reasons), (s.dispatch a).2) := Prod.ext hverdict rfl
      have hnot := (dispatch_rejected_spec hrejected).1
      rw [hexec] at hnot
      cases hnot

/-- Two independent actions that can both be done, and that each return when they are dispatched by
themselves, can be done in either order. Both are done each time, no effect of the first is lost to the
second, and the last states are the same but for the order of keys. -/
theorem independent_actions_commute (hind : s.content.Independent a b p q) (hd : s.state.Distinct)
    (hnat : s.state.NaturalResources) (hexec : s.isExecutable a = .ok true)
    (hexec' : s.isExecutable b = .ok true) (hreturns : ∀ cause, (s.dispatch a).1 ≠ .error cause)
    (hreturns' : ∀ cause, (s.dispatch b).1 ≠ .error cause) :
    ∃ final final', s.DoneInTurn a b p final ∧ s.DoneInTurn b a q final' ∧
      final.state.Reordered final'.state := by
  obtain ⟨ra, ha⟩ := exists_performed_of_returns hexec hreturns
  obtain ⟨rb, hb⟩ := exists_performed_of_returns hexec' hreturns'
  obtain ⟨vs, ws, final, hvs, hws, hturn, hstate⟩ := exists_doneInTurn hind hd hnat ha hb
  obtain ⟨ws', vs', final', hws', hvs', hturn', hstate'⟩ := exists_doneInTurn hind.symm hd hnat hb ha
  cases hvs.unique hvs'
  cases hws.unique hws'
  refine ⟨final, final', hturn, hturn', ?_⟩
  rw [hstate, hstate']
  exact Tree.setAll_comm s.state (hvs.swaps hws hind)

end

/-- Pays one seed for a field that is planted. -/
def plantPlan : FlatPlan :=
  ⟨some [], [("resources.seed", .int 1)], [("resources.seed", .int (-1)), ("flags.planted", .bool true)],
    Binary64.ofInt 5⟩

/-- Fills a jug at the well. -/
def drawWaterPlan : FlatPlan :=
  ⟨some [], [], [("resources.water", .int 3), ("flags.thirsty", .bool false)], Binary64.zero⟩

def flatNamed (id : String) (p : FlatPlan) : Action where
  id := id
  label := id
  description := ""
  category := none
  statsEffects := []
  craftingCostReduction := Binary64.zero
  buildingCostReduction := Binary64.zero
  plan := .flat p

/-- A farm with a basket that doubles the water, and the thirst of a day. -/
def farm : Store :=
  start ⟨[("plant", flatNamed "plant" plantPlan), ("drawWater", flatNamed "drawWater" drawWaterPlan)],
      [("basket", { basket with actionBonuses := [("drawWater", { Bonus.neutral with
        resourceMultiplier := Binary64.ofInt 2 })] })], [], []⟩
    [("resources", .mapping [("seed", .int 2), ("water", .int 1)]),
      ("flags", .mapping [("thirsty", .bool true)]), ("tools", .mapping [("basket", .bool true)])]
    zeroDraws true

theorem plantPlan_isPlain : plantPlan.effects.IsPlain where
  nodup := by decide
  plain := by
    simp only [plantPlan, List.forall_mem_cons, List.not_mem_nil, false_implies, implies_true, and_true]
    exact ⟨⟨⟨"resources.seed", "resources", ["seed"]⟩, by decide +kernel, Or.inl rfl, ⟨_, rfl⟩,
        Or.inl ⟨-1, rfl⟩⟩,
      ⟨⟨"flags.planted", "flags", ["planted"]⟩, by decide +kernel, Or.inr rfl, ⟨_, rfl⟩,
        Or.inr ⟨true, rfl⟩⟩⟩

theorem drawWaterPlan_isPlain : drawWaterPlan.effects.IsPlain where
  nodup := by decide
  plain := by
    simp only [drawWaterPlan, List.forall_mem_cons, List.not_mem_nil, false_implies, implies_true,
      and_true]
    exact ⟨⟨⟨"resources.water", "resources", ["water"]⟩, by decide +kernel, Or.inl rfl, ⟨_, rfl⟩,
        Or.inl ⟨3, rfl⟩⟩,
      ⟨⟨"flags.thirsty", "flags", ["thirsty"]⟩, by decide +kernel, Or.inr rfl, ⟨_, rfl⟩,
        Or.inr ⟨false, rfl⟩⟩⟩

theorem farm_independent : farm.content.Independent "plant" "drawWater" plantPlan drawWaterPlan where
  ne := by decide
  left := ⟨by decide, ⟨_, rfl, rfl⟩, plantPlan_isPlain, by decide +kernel⟩
  right := ⟨by decide, ⟨_, rfl, rfl⟩, drawWaterPlan_isPlain, by decide +kernel⟩
  effects := by decide +kernel
  leftCost := by decide +kernel
  rightCost := by decide +kernel

theorem farm_naturalResources : farm.state.NaturalResources := by
  intro e he a ha
  have hcases : e.2 = .int 2 ∨ e.2 = .int 1 := by
    simp only [farm, start, Section.name, Tree.lookup, OrderedMap.get?, if_true, Option.getD_some,
      Value.entries, List.mem_cons, List.not_mem_nil, or_false] at he
    rcases he with rfl | rfl <;> simp
  rcases hcases with h | h <;> rw [h] at ha <;> cases ha
  exacts [⟨2, rfl⟩, ⟨1, rfl⟩]

/-- Planting and drawing water can be done in either order. -/
theorem farm_commutes :
    farm.isExecutable "plant" = .ok true ∧ farm.isExecutable "drawWater" = .ok true ∧
      ∃ final final', farm.DoneInTurn "plant" "drawWater" plantPlan final ∧
        farm.DoneInTurn "drawWater" "plant" drawWaterPlan final' ∧
        final.state.Reordered final'.state := by
  have hplant : farm.isExecutable "plant" = .ok true := by decide +kernel
  have hdraw : farm.isExecutable "drawWater" = .ok true := by decide +kernel
  have hdone : (farm.dispatch "plant").1 = .ok (.performed ⟨[], [], Binary64.ofInt 5, []⟩) := by
    decide +kernel
  have hdone' : (farm.dispatch "drawWater").1 = .ok (.performed ⟨[], [], Binary64.zero,
      ["[Effects] resources.water: x2 multiplier adds 3",
        "[Effects] resources.water: amplified gain to 60"]⟩) := by
    decide +kernel
  refine ⟨hplant, hdraw, independent_actions_commute farm_independent
    (Tree.distinct_of_forall_mem (by decide)) farm_naturalResources hplant hdraw ?_ ?_⟩
  · simp [hdone]
  · simp [hdone']

/-- Marks a field, without price or cooldown. -/
def markPlan (name : String) : FlatPlan := ⟨some [], [], [("flags." ++ name, .bool true)], Binary64.zero⟩

/-- Two fields to mark beside a hut that was raised beyond the range of binary64. -/
def skyscraper : Store :=
  start ⟨[("buildHut", raising "buildHut" hutPlan), ("sow", flatNamed "sow" (markPlan "sown")),
      ("reap", flatNamed "reap" (markPlan "reaped"))], [], [], []⟩
    [("resources", .mapping [("wood", .int 3)]), ("buildings", .mapping [("hut", .int (10 ^ 400))])]
    zeroDraws false

theorem markPlan_isPlain {name : String} (hname : StatePath.IsName name) :
    (markPlan name).effects.IsPlain where
  nodup := List.nodup_singleton _
  plain := by
    simp only [markPlan, List.forall_mem_cons, List.not_mem_nil, false_implies, implies_true, and_true]
    have hparse := StatePath.parse_append_of_isName (show StatePath.IsName "flags" by decide) hname
    exact ⟨_, hparse, Or.inr rfl, ⟨_, rfl⟩, Or.inr ⟨true, rfl⟩⟩

/-- Marking the fields is independent and can be done, but bonuses are computed from the hut first, which
fails. -/
theorem skyscraper_marks_nothing :
    skyscraper.content.Independent "sow" "reap" (markPlan "sown") (markPlan "reaped") ∧
      skyscraper.state.Distinct ∧
      skyscraper.state.section? Section.resources.name = .ok [("wood", .int 3)] ∧
      skyscraper.isExecutable "sow" = .ok true ∧ skyscraper.isExecutable "reap" = .ok true ∧
      (∀ final, ¬ skyscraper.DoneInTurn "sow" "reap" (markPlan "sown") final) ∧
      ∀ final, ¬ skyscraper.DoneInTurn "reap" "sow" (markPlan "reaped") final := by
  have hsow : (skyscraper.dispatch "sow").1 = .error (.fault .outOfRange) := by decide +kernel
  have hreap : (skyscraper.dispatch "reap").1 = .error (.fault .outOfRange) := by decide +kernel
  refine ⟨⟨by decide, ?_, ?_, by decide +kernel, by decide +kernel, by decide +kernel⟩,
    Tree.distinct_of_forall_mem (by decide), rfl, by decide +kernel, by decide +kernel, ?_, ?_⟩
  · exact ⟨by decide, ⟨_, rfl, rfl⟩, markPlan_isPlain (by decide), by simp [markPlan]⟩
  · exact ⟨by decide, ⟨_, rfl, rfl⟩, markPlan_isPlain (by decide), by simp [markPlan]⟩
  · rintro final ⟨ra, rb, between, hdone, -⟩
    rw [hdone] at hsow
    cases hsow
  · rintro final ⟨ra, rb, between, hdone, -⟩
    rw [hdone] at hreap
    cases hreap

end Store

end SurvivalRules
