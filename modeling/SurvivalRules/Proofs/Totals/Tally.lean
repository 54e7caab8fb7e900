import SurvivalRules.Proofs.Ownership.Reordered
import SurvivalRules.Proofs.Totals.Gains

/-!
# Statistics as sums

When all that is counted is whole, the totals can be computed as soon as everything that counts can be described, and
each statistic is a sum over what is owned and what stands. A sum does not depend on the order of what is added up,
and so the totals do not depend on the order in which a state lists what it has.
-/
namespace SurvivalRules

theorem Amount.max_int (a b : ℤ) : Amount.max (.int a) (.int b) = .int (Max.max a b) := by
  rw [Amount.max, max_def]
  split_ifs with hlt hle hle
  · rfl
  · exact absurd (lt_int_iff.mp hlt).le hle
  · rw [le_antisymm hle (not_lt.mp (mt lt_int_iff.mpr hlt))]
  · rfl

/-- How much a list of amounts adds to each statistic. -/
def statGain (amounts : OrderedMap Stat Amount) : Stat → ℤ :=
  (amounts.map fun e => Pi.single e.1 e.2.toWhole).sum

/-- The statistics that general bonuses raise; madness is reduced at the end only. -/
def GeneralBonuses.stats (g : GeneralBonuses) : OrderedMap Stat Amount :=
  [(.luck, g.luck), (.strength, g.strength), (.knowledge, g.knowledge), (.madness, g.madness)]

/-- What an item adds to the statistics. -/
def Item.statGain (i : Item) : Stat → ℤ := SurvivalRules.statGain i.generalBonuses.stats

/-- How much an item reduces madness. -/
def Item.relief (i : Item) : ℤ := i.generalBonuses.madnessReduction.toWhole

/-- Whole numbers in all that an item gives, apart from multipliers, chances, cooldowns and prices. -/
structure Item.HasWholeBonuses (i : Item) : Prop where
  gains : ∀ e ∈ i.actionBonuses, e.2.HasWholeGains
  stats : ∀ e ∈ i.generalBonuses.stats, e.2.IsWhole
  relief : i.generalBonuses.madnessReduction.IsWhole

instance (i : Item) : Decidable i.HasWholeBonuses :=
  decidable_of_iff ((∀ e ∈ i.actionBonuses, e.2.HasWholeGains) ∧ (∀ e ∈ i.generalBonuses.stats, e.2.IsWhole) ∧
    i.generalBonuses.madnessReduction.IsWhole) ⟨fun ⟨h, h', h''⟩ => ⟨h, h', h''⟩, fun ⟨h, h', h''⟩ => ⟨h, h', h''⟩⟩

/-- Whole numbers in all that items give and buildings contribute. -/
structure Content.HasWholeBonuses (c : Content) : Prop where
  items : ∀ i ∈ OrderedMap.values c.items, i.HasWholeBonuses
  effects : ∀ a ∈ OrderedMap.values c.actions, ∀ e ∈ a.statsEffects, e.2.IsWhole

instance (c : Content) : Decidable c.HasWholeBonuses :=
  decidable_of_iff ((∀ i ∈ OrderedMap.values c.items, i.HasWholeBonuses) ∧
      ∀ a ∈ OrderedMap.values c.actions, ∀ e ∈ a.statsEffects, e.2.IsWhole)
    ⟨fun ⟨h, h'⟩ => ⟨h, h'⟩, fun ⟨h, h'⟩ => ⟨h, h'⟩⟩

/-- The numbers among the statistics of a state are whole. -/
def Tree.WholeStats (t : Tree) : Prop :=
  ∀ s : Stat, (Tree.lookup (t.lookup Section.stats.name).entries s.name).IsWhole

namespace Totals

variable {c : Content} {i : Item} {items : List Item} {shadowed : List String} {t : Totals} {n : Stat → ℤ} {r : ℤ}
  {es : List (String × Bonus)} {amounts : OrderedMap Stat Amount} {state s u : Tree} {key : String}

/-- Totals with these statistics and with the bonuses of these entries. -/
structure Tallies (c : Content) (n : Stat → ℤ) (es : List (String × Bonus)) (t : Totals) : Prop where
  stat_eq : ∀ s, t.stat s = .int (n s)
  bonuses : GathersApart c es t.bonuses

namespace Tallies

theorem addStats (h : t.Tallies c n es) (hwhole : ∀ e ∈ amounts, e.2.IsWhole) :
    ∃ t', t.addStats amounts = .ok t' ∧ t'.Tallies c (n + statGain amounts) es := by
  induction amounts generalizing t n with
  | nil => exact ⟨t, rfl, by simpa [statGain] using h⟩
  | cons e rest ih =>
    obtain ⟨first, a⟩ := e
    obtain ⟨⟨k, rfl⟩, hrest⟩ := List.forall_mem_cons.mp hwhole
    let t₁ : Totals := { t with stats := OrderedMap.insert first (.int (n first + k)) t.stats }
    have hadd : t.addStat first (.int k) = .ok t₁ := by
      rw [Totals.addStat, h.stat_eq]
      rfl
    have h₁ : t₁.Tallies c (n + Pi.single first k) es := by
      refine ⟨fun other => ?_, h.bonuses⟩
      rw [Totals.stat, OrderedMap.get?_insert]
      by_cases hother : first = other
      · subst hother
        simp
      · rw [if_neg hother, Pi.add_apply, Pi.single_eq_of_ne (Ne.symm hother), add_zero]
        exact h.stat_eq other
    obtain ⟨t', ht', h'⟩ := ih h₁ hrest
    refine ⟨t', bind_eq_ok_iff.mpr ⟨t₁, hadd, ht'⟩, ?_⟩
    simpa [statGain, Amount.toWhole, add_assoc] using h'

theorem contribute {detail : OrderedMap String Amount} (h : t.Tallies c n es) (reduction : Binary64 × Binary64)
    (source : String → BonusSource) (hwhole : ∀ e ∈ amounts, e.2.IsWhole)
    (hdetail : ∃ text, listAmounts detail = .ok text) :
    ∃ t', t.contribute amounts reduction source detail = .ok t' ∧ t'.Tallies c (n + statGain amounts) es := by
  obtain ⟨t₁, hstats, h₁⟩ := h.addStats hwhole
  obtain ⟨text, htext⟩ := hdetail
  simp only [Totals.contribute, hstats, bind, Except.bind]
  split
  · exact ⟨_, rfl, h₁.stat_eq, h₁.bonuses⟩
  · rw [htext]
    exact ⟨_, rfl, h₁.stat_eq, h₁.bonuses⟩

theorem addItemBonuses {bonuses : OrderedMap String Bonus} (h : t.Tallies c n es)
    (hsums : ∀ e ∈ bonuses, Bonus.IsSum [e.2] e.2) (hdescribed : ∀ e ∈ bonuses, ∃ text, e.2.describe = .ok text) :
    ∃ t', addItemBonuses c i t bonuses = .ok t' ∧ t'.Tallies c n (es ++ bonuses) := by
  induction bonuses generalizing t es with
  | nil => exact ⟨t, rfl, by simpa using h⟩
  | cons e rest ih =>
    obtain ⟨key, b⟩ := e
    obtain ⟨hsum, hsums⟩ := List.forall_mem_cons.mp hsums
    obtain ⟨⟨text, htext⟩, hdescribed⟩ := List.forall_mem_cons.mp hdescribed
    obtain ⟨granted, hgranted, hapart⟩ := h.bonuses.grant hsum
    obtain ⟨t₁, hfirst, hstats, hbonuses⟩ : ∃ t₁, addItemBonus c i t key b = .ok t₁ ∧ t₁.stats = t.stats ∧
        t₁.bonuses = granted := by
      rw [addItemBonus_eq]
      exact ⟨_, bind_eq_ok_iff.mpr ⟨granted, hgranted, bind_eq_ok_iff.mpr ⟨text, htext, rfl⟩⟩, rfl, rfl⟩
    have h₁ : t₁.Tallies c n (es ++ [(key, b)]) := by
      refine ⟨fun s => ?_, hbonuses ▸ hapart⟩
      rw [stat, hstats]
      exact h.stat_eq s
    obtain ⟨t', ht', h'⟩ := ih h₁ hsums hdescribed
    exact ⟨t', bind_eq_ok_iff.mpr ⟨t₁, hfirst, ht'⟩, by simpa using h'⟩

/-- Everything that items give is added up, apart from the bonuses of shadowed items. -/
theorem addItems (h : t.Tallies c n es) (hwhole : ∀ i ∈ items, i.HasWholeBonuses)
    (hsums : ∀ i ∈ items, ∀ e ∈ i.actionBonuses, Bonus.IsSum [e.2] e.2) (hgeneral : ∀ i ∈ items, i.GeneralDescribed)
    (hgrants : ∀ i ∈ items.filter (!shadowed.contains ·.id), i.GrantsDescribed) :
    ∃ t', addItems c shadowed t (.int r) items = .ok (t', .int (r + (items.map Item.relief).sum)) ∧
      t'.Tallies c (n + (items.map Item.statGain).sum)
        (es ++ (items.filter (!shadowed.contains ·.id)).flatMap (·.actionBonuses)) := by
  induction items generalizing t n es r with
  | nil => exact ⟨t, by simp [Totals.addItems], by simpa using h⟩
  | cons i rest ih =>
    obtain ⟨hfirst, hwhole⟩ := List.forall_mem_cons.mp hwhole
    obtain ⟨hsum, hsums⟩ := List.forall_mem_cons.mp hsums
    obtain ⟨hdescribed, hgeneral⟩ := List.forall_mem_cons.mp hgeneral
    obtain ⟨t₁, hgrants₁, h₁⟩ : ∃ t₁, addGrants c shadowed i t = .ok t₁ ∧
        t₁.Tallies c n (es ++ if shadowed.contains i.id then [] else i.actionBonuses) := by
      unfold addGrants
      split
      next => exact ⟨t, rfl, by simpa using h⟩
      next hnot =>
        have hmem : i ∈ (i :: rest).filter (!shadowed.contains ·.id) :=
          List.mem_filter.mpr ⟨List.mem_cons_self, by simpa using hnot⟩
        exact h.addItemBonuses hsum (hgrants i hmem)
    obtain ⟨t₂, hgeneral₂, h₂⟩ := h₁.contribute i.reductions (⟨.item, i.id, i.name, ·⟩) hfirst.stats hdescribed
    obtain ⟨k, hk⟩ := hfirst.relief
    have hrelief : i.relief = k := by rw [Item.relief, hk, Amount.toWhole]
    have hothers : ∀ j ∈ rest.filter (!shadowed.contains ·.id), j.GrantsDescribed := fun j hj =>
      hgrants j ((List.sublist_cons_self i rest).filter _ |>.subset hj)
    obtain ⟨t', ht', h'⟩ := ih (r := r + k) h₂ hwhole hsums hgeneral hothers
    refine ⟨t', ?_, ?_⟩
    · rw [addItems_cons_eq]
      refine bind_eq_ok_iff.mpr ⟨t₁, hgrants₁, bind_eq_ok_iff.mpr ⟨t₂, hgeneral₂, ?_⟩⟩
      rw [hk]
      refine bind_eq_ok_iff.mpr ⟨.int (r + k), rfl, ?_⟩
      rw [ht', List.map_cons, List.sum_cons, hrelief, add_assoc]
    · have hsplit : ((i :: rest).filter (!shadowed.contains ·.id)).flatMap (·.actionBonuses) =
          (if shadowed.contains i.id then [] else i.actionBonuses) ++
            (rest.filter (!shadowed.contains ·.id)).flatMap (·.actionBonuses) := by
        by_cases hshadowed : i.id ∈ shadowed <;> simp [hshadowed]
      rw [hsplit, ← List.append_assoc, List.map_cons, List.sum_cons, ← add_assoc]
      exact h'

theorem addBuildings {buildings : List (String × Action)} (h : t.Tallies c n es)
    (hwhole : ∀ b ∈ buildings, ∀ e ∈ b.2.statsEffects, e.2.IsWhole) (hdescribed : ∀ b ∈ buildings, b.2.Described) :
    ∃ t', t.addBuildings buildings = .ok t' ∧
      t'.Tallies c (n + (buildings.map fun b => statGain b.2.statsEffects).sum) es := by
  induction buildings generalizing t n with
  | nil => exact ⟨t, rfl, by simpa using h⟩
  | cons b rest ih =>
    obtain ⟨hfirst, hwhole⟩ := List.forall_mem_cons.mp hwhole
    obtain ⟨hdetail, hdescribed⟩ := List.forall_mem_cons.mp hdescribed
    obtain ⟨t₁, ht₁, h₁⟩ := h.contribute b.2.reductions (⟨.building, b.1, b.2.label, ·⟩) hfirst hdetail
    obtain ⟨t', ht', h'⟩ := ih h₁ hwhole hdescribed
    exact ⟨t', bind_eq_ok_iff.mpr ⟨t₁, ht₁, ht'⟩, by simpa [add_assoc] using h'⟩

theorem finish (h : t.Tallies c n es) (r : ℤ) : ∃ t', t.finish (.int r) = .ok t' ∧
    t'.Tallies c (Function.update n .madness (max 0 (n .madness - r))) es := by
  have hmadness : (t.stat .madness).sub (.int r) = .ok (.int (n .madness - r)) := by
    rw [h.stat_eq]
    rfl
  refine ⟨_, bind_eq_ok_iff.mpr ⟨_, hmadness, rfl⟩, fun s => ?_, h.bonuses⟩
  rw [stat, OrderedMap.get?_insert]
  by_cases hs : Stat.madness = s
  · subst hs
    rw [if_pos rfl, Option.getD_some, Amount.zero, Amount.max_int, Function.update_self]
  · rw [if_neg hs, Function.update_of_ne (Ne.symm hs)]
    exact h.stat_eq s

end Tallies

/-- The statistics that a state holds itself. -/
def heldStats (state : Tree) : Stat → ℤ := fun s => ((start state).stat s).toWhole

theorem stat_start (state : Tree) (s : Stat) : (start state).stat s =
    (Tree.lookup (state.lookup Section.stats.name).entries s.name).amount?.getD .zero := by
  have hlisted : (start state).stat s =
      ((OrderedMap.get? s.name (state.lookup Section.stats.name).entries).bind Value.amount?).getD .zero := by
    cases s <;> rfl
  rw [hlisted]
  generalize (state.lookup Section.stats.name).entries = held
  rw [Tree.lookup]
  cases OrderedMap.get? s.name held <;> rfl

theorem tallies_start (c : Content) (h : state.WholeStats) : (start state).Tallies c (heldStats state) [] where
  stat_eq s := by
    refine Amount.IsWhole.eq_int ?_
    rw [stat_start]
    exact (h s).getD_zero
  bonuses := gathersApart_nil

theorem heldStats_of_reordered (h : s.Reordered u) : heldStats s = heldStats u := by
  have hvalue : ∀ v w : Value, v.Reordered w → v.amount?.getD .zero = w.amount?.getD .zero := fun v w hvw => by
    rw [hvw.amount?_eq]
  funext x
  rw [heldStats, heldStats, stat_start, stat_start, (h.entries_lookup _).apply_lookup_eq hvalue]

/-- The statistics of the totals: what the state holds, what items and buildings add, and madness reduced in the
end. -/
def talliedStats (held : Stat → ℤ) (owned : List Item) (standing : List (String × Action)) : Stat → ℤ :=
  let n := held + (owned.map Item.statGain).sum + (standing.map fun b => statGain b.2.statsEffects).sum
  Function.update n .madness (max 0 (n .madness - (owned.map Item.relief).sum))

theorem talliedStats_of_perm {owned owned' : List Item} (h : owned.Perm owned') (held : Stat → ℤ)
    (standing : List (String × Action)) : talliedStats held owned standing = talliedStats held owned' standing := by
  rw [talliedStats, talliedStats, (h.map Item.statGain).sum_eq, (h.map Item.relief).sum_eq]

/-- Where everything is whole and can be described, the totals can be computed. -/
theorem exists_tallied {standing : List (String × Action)} (hc : c.IsFiled) (hwhole : c.HasWholeBonuses)
    (hstats : state.WholeStats) (hstanding : c.standingBuildings state = .ok standing)
    (hd : Describes c (c.ownedItems state) standing) : ∃ t, ofState c state = .ok t ∧
      t.Tallies c (talliedStats (heldStats state) (c.ownedItems state) standing) (grantedEntries c state) := by
  have hitem : ∀ i ∈ c.ownedItems state, i ∈ OrderedMap.values c.items := fun i hi =>
    Content.item_mem_values_of_mem_ownedItems hi
  have hsums : ∀ i ∈ c.ownedItems state, ∀ e ∈ i.actionBonuses, Bonus.IsSum [e.2] e.2 := fun i hi e he =>
    Bonus.isSum_singleton ((hwhole.items i (hitem i hi)).gains e he) (hc.nodup_resourceBonus (hitem i hi) e he)
  have heffects : ∀ b ∈ standing, ∀ e ∈ b.2.statsEffects, e.2.IsWhole := by
    intro b hb
    obtain ⟨p, hp⟩ := Content.mem_of_standingAmong hstanding hb
    exact hwhole.effects b.2 (Content.mem_values_of_mem_buildingActions hp)
  obtain ⟨t₁, ht₁, h₁⟩ := (tallies_start c hstats).addItems (r := 0) (fun i hi => hwhole.items i (hitem i hi)) hsums
    hd.general hd.grants
  obtain ⟨t₂, ht₂, h₂⟩ := h₁.addBuildings heffects hd.buildings
  obtain ⟨t, ht, h⟩ := h₂.finish (0 + ((c.ownedItems state).map Item.relief).sum)
  refine ⟨t, bind_eq_ok_iff.mpr ⟨_, ht₁, bind_eq_ok_iff.mpr ⟨standing, hstanding,
    bind_eq_ok_iff.mpr ⟨t₂, ht₂, ht⟩⟩⟩, ?_⟩
  rw [zero_add, List.nil_append] at h
  exact h

theorem Describes.of_perm {owned owned' : List Item} {standing : List (String × Action)}
    (hd : Describes c owned standing) (h : owned.Perm owned') : Describes c owned' standing where
  general i hi := hd.general i (h.mem_iff.mpr hi)
  grants i hi := hd.grants i ((Content.granting_perm h c).mem_iff.mpr hi)
  buildings := hd.buildings

/-- Two states that differ in the order of keys only own the same items, supersede the same of them and have the same
buildings standing. When all statistics and all that raises them and the gains of resources are whole, they have the
same statistics, and every action gains the same of each resource. -/
theorem acquisition_order_does_not_matter (hc : c.IsLoaded) (hwhole : c.HasWholeBonuses) (hs : s.Distinct)
    (hu : u.Distinct) (h : s.Reordered u) (hstats : s.WholeStats) :
    (c.ownedItems s).Perm (c.ownedItems u) ∧
      c.superseded (c.ownedItems s) = c.superseded (c.ownedItems u) ∧
      c.standingBuildings s = c.standingBuildings u ∧
      ∀ t, ofState c s = .ok t → ∃ t', ofState c u = .ok t' ∧ (∀ x, t'.stat x = t.stat x) ∧
        ∀ id category, ∃ b b', t.forAction id category = .ok b ∧ t'.forAction id category = .ok b' ∧
          ∀ r, OrderedMap.get? r b'.resourceBonus = OrderedMap.get? r b.resourceBonus := by
  have hfiled := hc.isFiled
  have howned := Content.ownedItems_perm h hs hu c
  have hsame := Content.standingBuildings_of_reordered h c
  refine ⟨howned, Content.superseded_of_perm howned c, hsame, fun t ht => ?_⟩
  obtain ⟨standing, hstanding, -⟩ := reductions_ofState ht
  have hd := describes_of_ofState hstanding ht
  have hstats' : u.WholeStats := by
    intro x
    rw [Value.IsWhole, ← (h.entries_lookup _).apply_lookup_eq fun _ _ => Value.Reordered.amount?_eq]
    exact hstats x
  obtain ⟨t₀, ht₀, htally⟩ := exists_tallied hfiled hwhole hstats hstanding hd
  obtain rfl : t = t₀ := Except.ok.inj (ht.symm.trans ht₀)
  obtain ⟨t', ht', htally'⟩ := exists_tallied hfiled hwhole hstats' (hsame ▸ hstanding) (hd.of_perm howned)
  refine ⟨t', ht', fun x => ?_, fun id category => ?_⟩
  · rw [htally'.stat_eq, htally.stat_eq, heldStats_of_reordered h, talliedStats_of_perm howned]
  -- both bonuses are sums of the same entries
  · have hentries : (grantedEntries c s).Perm (grantedEntries c u) := (Content.granting_perm howned c).flatMap_right _
    obtain ⟨b, hb, hsum⟩ := (htally.bonuses.perm hentries).exists_forAction id category
    obtain ⟨b', hb', hsum'⟩ := htally'.bonuses.exists_forAction id category
    exact ⟨b, b', hb, hb', hsum'.get?_eq hsum⟩

/-- Gloves bring luck and madness, and boots take a part of both away. -/
def orchard : Content :=
  ⟨[("pick", work "pick" "outdoors")],
    [("gloves", { gear "gloves" [("pick", moreWood 1)] with
        generalBonuses := { GeneralBonuses.none with luck := .int 3, madness := .int 5 } }),
      ("boots", { gear "boots" [("outdoors", moreWood 2)] with
        generalBonuses := { GeneralBonuses.none with luck := .int (-1), madnessReduction := .int 2 } })], [], []⟩

/-- A state in which clothes are owned. -/
def wearing (clothes : Tree) : Tree :=
  [("clothing", .mapping clothes),
    ("stats", .mapping [("luck", .int 1), ("strength", .int 2), ("knowledge", .int 0), ("madness", .int 1)])]

theorem gloves_and_boots_in_either_order :
    Content.ofRecords (orchard.actions.map (·.2.toValue)) (orchard.items.map (·.2.toValue)) [] = .ok orchard ∧
      ∃ t t', ofState orchard (wearing [("gloves", .bool true), ("boots", .bool true)]) = .ok t ∧
        ofState orchard (wearing [("boots", .bool true), ("gloves", .bool true)]) = .ok t' ∧
        (∀ x, t'.stat x = t.stat x) ∧
        ∀ id category, ∃ b b', t.forAction id category = .ok b ∧ t'.forAction id category = .ok b' ∧
          ∀ r, OrderedMap.get? r b'.resourceBonus = OrderedMap.get? r b.resourceBonus := by
  have hload : Content.ofRecords (orchard.actions.map (·.2.toValue)) (orchard.items.map (·.2.toValue)) [] =
      .ok orchard := by decide +kernel
  obtain ⟨t, ht⟩ : ∃ t, ofState orchard (wearing [("gloves", .bool true), ("boots", .bool true)]) = .ok t :=
    exists_of_isSome_toOption (by decide +kernel)
  have hclothes : Tree.Reordered [("gloves", .bool true), ("boots", .bool true)]
      [("boots", .bool true), ("gloves", .bool true)] :=
    Tree.reordered_of_perm (.swap _ _ _) (by decide)
  have hreordered : Tree.Reordered (wearing [("gloves", .bool true), ("boots", .bool true)])
      (wearing [("boots", .bool true), ("gloves", .bool true)]) :=
    (Tree.Reordered.refl (wearing [])).insert (Value.reordered_mapping_iff.mpr hclothes) "clothing"
  have hstats : (wearing [("gloves", .bool true), ("boots", .bool true)]).WholeStats := by
    intro x
    cases x <;> exact Value.isWhole_ofAmount ⟨_, rfl⟩
  obtain ⟨-, -, -, hsame⟩ := acquisition_order_does_not_matter (Or.inl ⟨_, _, _, hload⟩) (by decide +kernel)
    (Tree.distinct_of_forall_mem (by decide)) (Tree.distinct_of_forall_mem (by decide)) hreordered hstats
  obtain ⟨t', ht', hstats', hgains⟩ := hsame t ht
  exact ⟨hload, t, t', ht, ht', hstats', hgains⟩

end Totals

end SurvivalRules
