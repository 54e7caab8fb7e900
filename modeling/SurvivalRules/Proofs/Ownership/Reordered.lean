import SurvivalRules.Proofs.Ownership.Superseded
import SurvivalRules.Proofs.State.Reorder

/-!
# Ownership up to the order of keys

In whatever order a state lists what it has, the same items are owned, the same of them are superseded and the same
buildings stand. Only the list of owned items is in another order.
-/
namespace SurvivalRules

namespace Value.Reordered

variable {v w : Value}

theorem truthy_eq (h : v.Reordered w) : v.truthy = w.truthy := by
  cases h <;> rfl

theorem toNumber_eq (h : v.Reordered w) : v.toNumber = w.toNumber := by
  cases h <;> rfl

theorem amount?_eq (h : v.Reordered w) : v.amount? = w.amount? := by
  cases h <;> rfl

end Value.Reordered

namespace Tree

variable {s t u : Tree}

theorem reordered_of_perm (h : t.Perm u) (ht : (OrderedMap.keys t).Nodup) : t.Reordered u where
  mem_keys_iff _ := (h.map Prod.fst).mem_iff
  values k v w hv hw := by
    have hmem : (k, w) ∈ t := h.mem_iff.mpr (OrderedMap.mem_of_get? hw)
    have hsame : OrderedMap.get? k t = some w := OrderedMap.get?_of_mem ht hmem
    obtain rfl : v = w := Option.some.inj (hv.symm.trans hsame)
    exact .refl v

namespace Reordered

variable {β : Type} {f : Value → β}

theorem get?_map_eq (h : t.Reordered u) (hf : ∀ v w : Value, v.Reordered w → f v = f w) (k : String) :
    (OrderedMap.get? k t).map f = (OrderedMap.get? k u).map f := by
  by_cases hk : k ∈ OrderedMap.keys t
  · obtain ⟨v, hv⟩ := OrderedMap.exists_get?_of_mem_keys hk
    obtain ⟨w, hw⟩ := OrderedMap.exists_get?_of_mem_keys ((h.mem_keys_iff k).mp hk)
    rw [hv, hw, Option.map_some, Option.map_some, hf v w (h.values k v w hv hw)]
  · have hk' : k ∉ OrderedMap.keys u := fun hmem => hk ((h.mem_keys_iff k).mpr hmem)
    rw [OrderedMap.get?_eq_none_iff.mpr hk, OrderedMap.get?_eq_none_iff.mpr hk']

theorem apply_getD_eq (h : t.Reordered u) (hf : ∀ v w : Value, v.Reordered w → f v = f w) (k : String)
    (default : Value) : f ((OrderedMap.get? k t).getD default) = f ((OrderedMap.get? k u).getD default) := by
  rw [← Option.getD_map f, ← Option.getD_map f, h.get?_map_eq hf]

theorem apply_lookup_eq (h : t.Reordered u) (hf : ∀ v w : Value, v.Reordered w → f v = f w) (k : String) :
    f (t.lookup k) = f (u.lookup k) :=
  h.apply_getD_eq hf k .null

/-- What is read of the entries, one by one, is the same up to order. -/
theorem perm_map {g : String × Value → β} (h : t.Reordered u) (ht : (OrderedMap.keys t).Nodup)
    (hu : (OrderedMap.keys u).Nodup) (hg : ∀ k (v w : Value), v.Reordered w → g (k, v) = g (k, w)) :
    (t.map g).Perm (u.map g) := by
  have hkeys : (OrderedMap.keys t).Perm (OrderedMap.keys u) := (List.perm_ext_iff_of_nodup ht hu).mpr h.mem_keys_iff
  have hread : ∀ {m : Tree}, (OrderedMap.keys m).Nodup →
      m.map (some ∘ g) = (OrderedMap.keys m).map fun k => (OrderedMap.get? k m).map fun v => g (k, v) := by
    intro m hm
    rw [OrderedMap.keys, List.map_map]
    refine List.map_congr_left fun e he => ?_
    rw [Function.comp_apply, Function.comp_apply, OrderedMap.get?_of_mem hm he, Option.map_some]
  have hsome : (t.map (some ∘ g)).Perm (u.map (some ∘ g)) := by
    rw [hread ht, hread hu]
    simpa only [h.get?_map_eq (hg _)] using hkeys.map _
  simpa [List.filterMap_map] using hsome.filterMap id

end Reordered

end Tree

namespace Content

variable {c : Content} {s u counts counts' : Tree} {owned owned' : List Item}

theorem ownedItems_perm (h : s.Reordered u) (hs : s.Distinct) (hu : u.Distinct) (c : Content) :
    (c.ownedItems s).Perm (c.ownedItems u) := by
  refine List.Perm.flatMap_left _ fun slot _ => ?_
  rw [ownedIn_eq, ownedIn_eq]
  have hitems : ∀ k (v w : Value), v.Reordered w → c.itemIn slot (k, v) = c.itemIn slot (k, w) := fun k v w hvw => by
    rw [itemIn, itemIn, hvw.truthy_eq]
  have hperm := ((h.entries_lookup slot.name).perm_map (hs slot.name) (hu slot.name) hitems).filterMap id
  simpa [List.filterMap_map] using hperm

theorem superseded_of_perm (h : owned.Perm owned') (c : Content) : c.superseded owned = c.superseded owned' := by
  refine List.flatMap_congr fun f _ => ?_
  have hids : ∀ id, (owned.map (·.id)).contains id = (owned'.map (·.id)).contains id := fun id =>
    Bool.eq_iff_iff.mpr (by simp [h.mem_iff])
  rw [shadowedTiers, shadowedTiers, List.filter_congr fun id _ => hids id]

theorem granting_perm (h : owned.Perm owned') (c : Content) : (c.granting owned).Perm (c.granting owned') := by
  rw [granting, granting, superseded_of_perm h c]
  exact h.filter _

theorem isBuilt_of_reordered (h : counts.Reordered counts') (key : String) :
    isBuilt counts key = isBuilt counts' key := by
  rw [isBuilt, isBuilt, h.apply_getD_eq fun _ _ => Value.Reordered.toNumber_eq]

theorem lastBuilt_of_reordered (h : counts.Reordered counts') (keys : List String) :
    lastBuilt counts keys = lastBuilt counts' keys := by
  induction keys with
  | nil => rfl
  | cons key rest ih => rw [lastBuilt, lastBuilt, isBuilt_of_reordered h, ih]

theorem stands_of_reordered (h : counts.Reordered counts') (c : Content) (key : String) :
    c.stands counts key = c.stands counts' key := by
  simp only [stands, isBuilt_of_reordered h, lastBuilt_of_reordered h]

theorem standingAmong_of_reordered (h : counts.Reordered counts') (c : Content)
    (raised : List (String × Action × TieredPlan)) :
    c.standingAmong counts raised = c.standingAmong counts' raised := by
  induction raised with
  | nil => rfl
  | cons e rest ih => rw [standingAmong, standingAmong, stands_of_reordered h, ih]

theorem standingBuildings_of_reordered (h : s.Reordered u) (c : Content) :
    c.standingBuildings s = c.standingBuildings u :=
  standingAmong_of_reordered (h.entries_lookup _) c _

end Content

end SurvivalRules
