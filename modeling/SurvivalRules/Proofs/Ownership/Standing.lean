import SurvivalRules.Proofs.Content.Loaded
import SurvivalRules.Proofs.Ownership

/-!
# What stands of a chain

A building is held against one chain, the last one that lists it. So at most one building of a chain stands, the
last one built, just where the chain that counts for a building lists after it all that the chain lists after it.
Where no building is in two chains this is so of all of them.
-/
namespace SurvivalRules.Content

variable {c : Content} {chain : BuildingChain} {state : Tree} {standing : List (String × Action)} {key : String}

/-- At most one building of a chain stands, and it is the last one of the chain that is built. -/
def OnlyLastStands (c : Content) (chain : BuildingChain) : Prop :=
  ∀ state standing, c.standingBuildings state = .ok standing →
    ((OrderedMap.keys standing).filter (· ∈ chain.tiers)).length ≤ 1 ∧
      ∀ key ∈ OrderedMap.keys standing, key ∈ chain.tiers → IsLast (IsBuiltIn state) chain.tiers key

/-- The chain that counts for a building of `chain` lists after it all that `chain` lists after it. -/
def IsUpheld (c : Content) (chain : BuildingChain) : Prop :=
  ∀ key ∈ chain.tiers, key ∈ OrderedMap.keys c.buildingActions → ∀ later, [key, later].Sublist chain.tiers →
    ∃ decisive, c.chainOf? key = some decisive ∧ [key, later].Sublist decisive.tiers

theorem exists_chainOf?_of_mem (hchain : chain ∈ OrderedMap.values c.chains) (hkey : key ∈ chain.tiers) :
    ∃ decisive, c.chainOf? key = some decisive := by
  refine Option.ne_none_iff_exists'.mp fun hnone => ?_
  exact chainOf?_eq_none_iff.mp hnone chain hchain hkey

theorem IsUpheld.onlyLastStands (hc : c.IsFiled) (hchain : chain ∈ OrderedMap.values c.chains)
    (h : c.IsUpheld chain) : c.OnlyLastStands chain := by
  intro state standing hstanding
  have hlast : ∀ key ∈ OrderedMap.keys standing, key ∈ chain.tiers →
      IsLast (IsBuiltIn state) chain.tiers key := by
    intro key hkey htier
    obtain ⟨hraised, hbuilt, hdecisive⟩ := (mem_keys_standing_iff hstanding).mp hkey
    rw [isLast_iff_of_nodup (hc.nodup_chainTiers hchain)]
    refine ⟨htier, hbuilt, fun later hlater => ?_⟩
    obtain ⟨decisive, hcounts, hsub⟩ := h key htier hraised later hlater
    have hnodup := hc.nodup_chainTiers (mem_of_chainOf? hcounts).1
    exact ((isLast_iff_of_nodup hnodup).mp (hdecisive decisive hcounts)).2.2 later hsub
  refine ⟨length_le_one_of_nodup ((nodup_keys_standing hstanding).filter _) ?_, hlast⟩
  intro key hkey other hother
  simp only [List.mem_filter, decide_eq_true_eq] at hkey hother
  exact (hlast key hkey.1 hkey.2).eq (hlast other hother.1 hother.2)

/-- With a building and a later one of its chain built once and nothing else, the first one has to give way, and
only the chain that counts for it can make it. -/
theorem OnlyLastStands.isUpheld (hc : c.IsFiled) (hchain : chain ∈ OrderedMap.values c.chains)
    (h : c.OnlyLastStands chain) : c.IsUpheld chain := by
  intro key htier hraised later hlater
  obtain ⟨decisive, hcounts⟩ := exists_chainOf?_of_mem hchain htier
  refine ⟨decisive, hcounts, ?_⟩
  obtain ⟨standing, hstanding⟩ := exists_standing_oneOfEach c [key, later]
  have hbuilt : ∀ k, IsBuiltIn (oneOfEach [key, later]) k ↔ k = key ∨ k = later := by
    simp [isBuiltIn_oneOfEach_iff]
  have hnot : key ∉ OrderedMap.keys standing := by
    intro hkey
    have hlast := (h _ _ hstanding).2 key hkey htier
    rw [isLast_iff_of_nodup (hc.nodup_chainTiers hchain)] at hlast
    exact hlast.2.2 later hlater ((hbuilt later).mpr (Or.inr rfl))
  obtain ⟨last, hlast⟩ := exists_isLast_iff.mpr
    ⟨key, (mem_of_chainOf? hcounts).2, (hbuilt key).mpr (Or.inl rfl)⟩
  -- were the first one the last built of its decisive chain, it would stand
  rcases (hbuilt last).mp hlast.prop with rfl | rfl
  · refine absurd ((mem_keys_standing_iff hstanding).mpr ⟨hraised, hlast.prop, fun other hother => ?_⟩) hnot
    cases hcounts.symm.trans hother
    exact hlast
  · have hne : key ≠ last := by simpa using hlater.nodup (hc.nodup_chainTiers hchain)
    exact hlast.sublist (mem_of_chainOf? hcounts).2 ((hbuilt key).mpr (Or.inl rfl)) hne

/-- Where no building is in two chains the chain of each counts for it. -/
theorem isUpheld_of_apart (hchain : chain ∈ OrderedMap.values c.chains)
    (h : ∀ other ∈ OrderedMap.values c.chains, ∀ key ∈ chain.tiers, key ∈ other.tiers → other = chain) :
    c.IsUpheld chain := by
  intro key htier _ later hlater
  obtain ⟨decisive, hcounts⟩ := exists_chainOf?_of_mem hchain htier
  obtain ⟨hmem, hlisted⟩ := mem_of_chainOf? hcounts
  exact ⟨decisive, hcounts, h decisive hmem key htier hlisted ▸ hlater⟩

/-- Of each chain of accepted content at most one building stands, the last one built, if and only if the chain is
upheld. A building in no chain stands if and only if it is built, and among the buildings of the chain that counts
for a built one there always is a last one built. -/
theorem standing_iff {actions items families : List Value} (hc : ofRecords actions items families = .ok c) :
    (∀ chain ∈ OrderedMap.values c.chains, c.OnlyLastStands chain ↔ c.IsUpheld chain) ∧
    ∀ state standing, c.standingBuildings state = .ok standing → ∀ key ∈ OrderedMap.keys c.buildingActions,
      ((∀ chain ∈ OrderedMap.values c.chains, key ∉ chain.tiers) →
        (key ∈ OrderedMap.keys standing ↔ IsBuiltIn state key)) ∧
      (IsBuiltIn state key → ∀ chain, c.chainOf? key = some chain →
        ∃ best, lastBuilt (state.lookup Section.buildings.name).entries chain.tiers = .ok (some best)) := by
  have hfiled := isFiled_ofRecords hc
  refine ⟨fun chain hchain => ⟨fun h => h.isUpheld hfiled hchain, fun h => h.onlyLastStands hfiled hchain⟩, ?_⟩
  intro state standing hstanding key hraised
  constructor
  · intro hnone
    rw [mem_keys_standing_iff hstanding, chainOf?_eq_none_iff.mpr hnone]
    simp [hraised]
  · intro hbuilt chain hchain
    obtain ⟨stands, hstands⟩ := exists_stands_of_standingAmong hstanding hraised
    exact exists_best_of_stands hstands hbuilt hchain

/-- The action that raises a building, as it is given and as it is read. -/
def raiserRecord (id : String) : Value :=
  .mapping [("id", .text id), ("label", .text id), ("building", .bool true)]

def raiser (id key : String) : Action :=
  ⟨id, id, "", none, [], Binary64.zero, Binary64.zero, .tiered ⟨key, [], [], [], .fixed Binary64.zero⟩⟩

def faith : BuildingChain := ⟨"faith", ["altar", "shrine"]⟩

/-- A chain that lists the altar, too. -/
def relicts : BuildingChain := ⟨"relicts", ["altar"]⟩

def temple (chains : List BuildingChain) : Content :=
  ⟨[("buildAltar", raiser "buildAltar" "altar"), ("buildShrine", raiser "buildShrine" "shrine")], [], [],
    chains.map fun chain => (chain.id, chain)⟩

def templeRecords (chains : List BuildingChain) : List Value :=
  chains.map fun chain => (Family.building chain).toValue

theorem shrine_stands_for_altar :
    ofRecords [raiserRecord "buildAltar", raiserRecord "buildShrine"] [] (templeRecords [faith]) =
        .ok (temple [faith]) ∧
      (temple [faith]).standingBuildings (oneOfEach ["altar", "shrine"]) =
        .ok [("shrine", raiser "buildShrine" "shrine")] ∧
      (temple [faith]).OnlyLastStands faith := by
  have hload : ofRecords [raiserRecord "buildAltar", raiserRecord "buildShrine"] [] (templeRecords [faith]) =
      .ok (temple [faith]) := by decide +kernel
  have hchain : faith ∈ OrderedMap.values (temple [faith]).chains := by decide
  have hupheld : (temple [faith]).IsUpheld faith := isUpheld_of_apart hchain (by decide)
  exact ⟨hload, by decide +kernel, ((standing_iff hload).1 faith hchain).mpr hupheld⟩

/-- The altar is held against the second chain that lists it, of which it is the last. -/
theorem altar_and_shrine_stand :
    ofRecords [raiserRecord "buildAltar", raiserRecord "buildShrine"] [] (templeRecords [faith, relicts]) =
        .ok (temple [faith, relicts]) ∧
      faith ∈ OrderedMap.values (temple [faith, relicts]).chains ∧
      (temple [faith, relicts]).standingBuildings (oneOfEach ["altar", "shrine"]) =
        .ok [("altar", raiser "buildAltar" "altar"), ("shrine", raiser "buildShrine" "shrine")] ∧
      ¬ (temple [faith, relicts]).OnlyLastStands faith := by
  have hstanding : (temple [faith, relicts]).standingBuildings (oneOfEach ["altar", "shrine"]) =
      .ok [("altar", raiser "buildAltar" "altar"), ("shrine", raiser "buildShrine" "shrine")] := by
    decide +kernel
  refine ⟨by decide +kernel, by decide, hstanding, fun h => ?_⟩
  have hfew := (h _ _ hstanding).1
  revert hfew
  decide

end SurvivalRules.Content
