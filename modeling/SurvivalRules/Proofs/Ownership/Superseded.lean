import SurvivalRules.Proofs.Content.Loaded
import SurvivalRules.Proofs.Ownership
import SurvivalRules.Proofs.State.Tree

/-!
# Superseded items

Of a family all owned tiers but the last one are superseded. When no item is in two families, an item that is
superseded can be taken away, and the items that are left to grant bonuses are the same.
-/
namespace SurvivalRules

theorem Slot.name_injective {s t : Slot} (h : s.name = t.name) : s = t := by
  have hnames := congrArg Slot.ofName? h
  rw [Slot.ofName?_name, Slot.ofName?_name] at hnames
  exact Option.some.inj hnames

namespace Content

variable {c : Content} {state : Tree} {owned : List Item} {ids : List String} {f : EquipmentFamily} {x y : String}

/-- No item is a tier of two equipment families. -/
def FamiliesApart (c : Content) : Prop :=
  ∀ f ∈ OrderedMap.values c.families, ∀ g ∈ OrderedMap.values c.families, ∀ id ∈ f.tiers, id ∈ g.tiers → f = g

instance (c : Content) : Decidable c.FamiliesApart :=
  inferInstanceAs (Decidable (∀ f ∈ OrderedMap.values c.families, ∀ g ∈ OrderedMap.values c.families,
    ∀ id ∈ f.tiers, id ∈ g.tiers → f = g))

/-- The owned items that grant bonuses to actions. -/
def granting (c : Content) (owned : List Item) : List Item :=
  owned.filter fun i => !(c.superseded owned).contains i.id

theorem mem_shadowedTiers_iff (hf : f.tiers.Nodup) :
    x ∈ shadowedTiers ids f ↔ (x ∈ f.tiers ∧ x ∈ ids) ∧ ¬ IsLast (· ∈ ids) f.tiers x := by
  have hnodup : (f.tiers.filter (· ∈ ids)).Nodup := hf.filter _
  have hmem : x ∈ f.tiers ∧ x ∈ ids ↔ x ∈ f.tiers.filter (· ∈ ids) := by simp
  have hshadowed : shadowedTiers ids f = (f.tiers.filter (· ∈ ids)).dropLast :=
    congrArg List.dropLast (List.filter_congr fun id _ => List.contains_eq_mem id ids)
  rw [isLast_iff_getLast?, hmem, hshadowed]
  rcases List.eq_nil_or_concat (f.tiers.filter (· ∈ ids)) with hnil | ⟨lower, best, hconcat⟩
  · simp [hnil]
  · rw [hconcat, List.concat_eq_append] at hnodup ⊢
    have hbest : best ∉ lower := fun hmem =>
      (List.nodup_append.mp hnodup).2.2 best hmem best List.mem_cons_self rfl
    simp only [List.dropLast_concat, List.getLast?_concat, List.mem_append, List.mem_singleton, Option.some.injEq]
    constructor
    · exact fun hx => ⟨Or.inl hx, fun he => hbest (he ▸ hx)⟩
    · rintro ⟨hx | rfl, hne⟩
      · exact hx
      · exact absurd rfl hne

theorem isLast_of_not_superseded (hc : c.IsFiled) (hf : f ∈ OrderedMap.values c.families) (htier : x ∈ f.tiers)
    (howned : x ∈ owned.map (·.id)) (hx : x ∉ c.superseded owned) :
    IsLast (· ∈ owned.map (·.id)) f.tiers x := by
  by_contra hnot
  refine hx (List.mem_flatMap.mpr ⟨f, hf, ?_⟩)
  exact (mem_shadowedTiers_iff (hc.nodup_familyTiers hf)).mpr ⟨⟨htier, howned⟩, hnot⟩

/-- What is last among what is owned is so when something else is taken away that is not last. -/
theorem isLast_filter_iff {tiers : List String} (hx : ¬ IsLast (· ∈ ids) tiers x) (hy : y ≠ x) :
    IsLast (· ∈ ids.filter (· ≠ x)) tiers y ↔ IsLast (· ∈ ids) tiers y := by
  have hkeeps : ∀ z, z ≠ x → IsLast (· ∈ ids) tiers z → IsLast (· ∈ ids.filter (· ≠ x)) tiers z := by
    rintro z hz ⟨front, back, rfl, hmem, hback⟩
    exact ⟨front, back, rfl, by simp [hmem, hz], fun b hb hfilter => hback b hb (List.mem_of_mem_filter hfilter)⟩
  refine ⟨fun h => ?_, hkeeps y hy⟩
  obtain ⟨best, hbest⟩ := exists_isLast_iff.mpr ⟨y, h.mem, List.mem_of_mem_filter h.prop⟩
  have hne : best ≠ x := fun he => hx (he ▸ hbest)
  exact h.eq (hkeeps best hne hbest) ▸ hbest

theorem mem_shadowedTiers_filter_iff (hf : f.tiers.Nodup) (hx : x ∈ f.tiers → x ∈ shadowedTiers ids f)
    (hy : y ≠ x) : y ∈ shadowedTiers (ids.filter (· ≠ x)) f ↔ y ∈ shadowedTiers ids f := by
  have hlast : ¬ IsLast (· ∈ ids) f.tiers x := fun h => ((mem_shadowedTiers_iff hf).mp (hx h.mem)).2 h
  rw [mem_shadowedTiers_iff hf, mem_shadowedTiers_iff hf, isLast_filter_iff hlast hy]
  simp [hy]

/-- An item that a better one of its family supersedes can be taken away. -/
theorem mem_superseded_filter_iff (hc : c.IsFiled) (hapart : c.FamiliesApart) (hx : x ∈ c.superseded owned)
    (hy : y ≠ x) : y ∈ c.superseded (owned.filter (·.id ≠ x)) ↔ y ∈ c.superseded owned := by
  have hids : (owned.filter (·.id ≠ x)).map (·.id) = (owned.map (·.id)).filter (· ≠ x) := by
    rw [List.filter_map]
    rfl
  obtain ⟨g, hg, hshadowed⟩ := List.mem_flatMap.mp hx
  obtain ⟨⟨htier, -⟩, -⟩ := (mem_shadowedTiers_iff (hc.nodup_familyTiers hg)).mp hshadowed
  -- the only family that lists the item is the one that supersedes it
  have hfamily : ∀ f ∈ OrderedMap.values c.families,
      (y ∈ shadowedTiers ((owned.map (·.id)).filter (· ≠ x)) f ↔ y ∈ shadowedTiers (owned.map (·.id)) f) := by
    intro f hf
    refine mem_shadowedTiers_filter_iff (hc.nodup_familyTiers hf) (fun hmem => ?_) hy
    rwa [hapart f hf g hg x hmem htier]
  simp only [superseded, List.mem_flatMap, hids]
  exact exists_congr fun f => and_congr_right (hfamily f)

theorem granting_filter (hc : c.IsFiled) (hapart : c.FamiliesApart) (hx : x ∈ c.superseded owned) :
    c.granting (owned.filter (·.id ≠ x)) = c.granting owned := by
  unfold granting
  rw [List.filter_filter]
  refine List.filter_congr fun i _ => ?_
  by_cases hi : i.id = x
  · simp [hi, hx]
  · have hsame := mem_superseded_filter_iff hc hapart hx hi
    simpa [hi] using hsame

/-- The state in which an item is marked as not owned. -/
def unowned (state : Tree) (i : Item) : Tree := state.write (.bool false) [i.slot.name, i.id]

/-- The item that an entry of a section of ownership gives its owner. -/
def itemIn (c : Content) (s : Slot) (e : String × Value) : Option Item :=
  if e.2.truthy then (c.item? e.1).filter (·.slot = s) else none

section

variable {s : Slot} {e : String × Value} {entries : Tree} {i : Item}

theorem itemIn_eq_some (hc : c.IsFiled) (h : c.itemIn s e = some i) :
    i.id = e.1 ∧ i.slot = s ∧ c.item? i.id = some i := by
  unfold itemIn at h
  split at h
  · obtain ⟨hitem, hslot⟩ := Option.filter_eq_some_iff.mp h
    have hid : i.id = e.1 := (hc.items (e.1, i) (OrderedMap.mem_of_get? hitem)).1.symm
    exact ⟨hid, by simpa using hslot, hid ▸ hitem⟩
  · cases h

theorem itemIn_false (key : String) : c.itemIn s (key, .bool false) = none := by
  simp [itemIn]

theorem filter_filterMap_itemIn (hc : c.IsFiled) (hx : x ∉ OrderedMap.keys entries) :
    (entries.filterMap (c.itemIn s)).filter (·.id ≠ x) = entries.filterMap (c.itemIn s) := by
  refine List.filter_eq_self.mpr fun i hi => ?_
  obtain ⟨e, he, hitem⟩ := List.mem_filterMap.mp hi
  have hkey : e.1 ∈ OrderedMap.keys entries := List.mem_map_of_mem he
  have hne : i.id ≠ x := fun heq => hx (heq ▸ (itemIn_eq_some hc hitem).1 ▸ hkey)
  simpa using hne

/-- In a section that names an item once, marking it as not owned takes it away from what is owned. -/
theorem filterMap_insert_false (hc : c.IsFiled) (hnodup : (OrderedMap.keys entries).Nodup) :
    (OrderedMap.insert x (.bool false) entries).filterMap (c.itemIn s) =
      (entries.filterMap (c.itemIn s)).filter (·.id ≠ x) := by
  induction entries with
  | nil => simp [OrderedMap.insert, itemIn_false]
  | cons e rest ih =>
    obtain ⟨key, v⟩ := e
    obtain ⟨hkey, hrest⟩ := List.nodup_cons.mp hnodup
    by_cases hx : key = x
    · subst hx
      rw [OrderedMap.insert, if_pos rfl, List.filterMap_cons_none (itemIn_false key)]
      cases hitem : c.itemIn s (key, v) with
      | none => rw [List.filterMap_cons_none hitem, filter_filterMap_itemIn hc hkey]
      | some i =>
        have hid : i.id = key := (itemIn_eq_some hc hitem).1
        rw [List.filterMap_cons_some hitem, List.filter_cons_of_neg (by simp [hid]),
          filter_filterMap_itemIn hc hkey]
    · rw [OrderedMap.insert, if_neg hx]
      cases hitem : c.itemIn s (key, v) with
      | none => rw [List.filterMap_cons_none hitem, List.filterMap_cons_none hitem, ih hrest]
      | some i =>
        have hid : i.id = key := (itemIn_eq_some hc hitem).1
        rw [List.filterMap_cons_some hitem, List.filterMap_cons_some hitem,
          List.filter_cons_of_pos (by simp [hid, hx]), ih hrest]

end

theorem ownedIn_eq (c : Content) (state : Tree) (s : Slot) :
    c.ownedIn state s = (state.lookup s.name).entries.filterMap (c.itemIn s) := rfl

theorem ownedItems_unowned (hc : c.IsFiled) {i : Item} (hi : i ∈ c.ownedItems state)
    (hd : state.DistinctAt i.slot.name) :
    c.ownedItems (unowned state i) = (c.ownedItems state).filter (·.id ≠ i.id) := by
  obtain ⟨slot, -, hslot⟩ := List.mem_flatMap.mp hi
  obtain ⟨e, -, hitem⟩ := List.mem_filterMap.mp hslot
  obtain ⟨-, -, hlisted⟩ := itemIn_eq_some hc hitem
  unfold ownedItems
  rw [List.filter_flatMap]
  refine List.flatMap_congr fun s _ => ?_
  rw [ownedIn_eq, ownedIn_eq]
  by_cases hs : i.slot = s
  -- the section that the item is marked in
  · subst hs
    have hlook : (unowned state i).lookup i.slot.name =
        .mapping (OrderedMap.insert i.id (.bool false) (state.lookup i.slot.name).entries) :=
      Tree.lookup_insert_self _ _ _
    rw [hlook]
    exact filterMap_insert_false hc hd
  · have hname : i.slot.name ≠ s.name := fun he => hs (Slot.name_injective he)
    rw [unowned, Tree.lookup_write_of_ne hname]
    -- an id names one item, which has one slot
    refine (List.filter_eq_self.mpr fun j hj => ?_).symm
    obtain ⟨f, -, hother⟩ := List.mem_filterMap.mp hj
    obtain ⟨-, hslot, hj⟩ := itemIn_eq_some hc hother
    have hne : j.id ≠ i.id := by
      intro he
      rw [he, hlisted] at hj
      cases hj
      exact hs hslot
    simpa using hne

end Content

end SurvivalRules
