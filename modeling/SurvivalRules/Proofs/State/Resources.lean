import SurvivalRules.Proofs.State.Delta

/-!
# Replacing the values of resources

Scaling and clamping replace the values of the resources by a rule and leave everything else alone. Such a
replacement can be moved past writes, whose values it then replaces in their turn.
-/
namespace SurvivalRules

/-- The values of the resources are replaced, by a rule that may depend on the name. -/
def Tree.mapResources (f : String → Value → Value) (t : Tree) : Tree :=
  match t.lookup Section.resources.name with
  | .mapping held =>
    OrderedMap.insert Section.resources.name (.mapping (held.map fun e => (e.1, f e.1 e.2))) t
  | _ => t

/-- A write whose value is replaced by the same rule if it is to a resource. -/
def mapWrite (f : String → Value → Value) (w : StatePath × Value) : StatePath × Value :=
  match w.1.resource? with
  | some name => (w.1, f name w.2)
  | none => w

@[simp] theorem mapWrite_fst (f : String → Value → Value) (w : StatePath × Value) :
    (mapWrite f w).1 = w.1 := by
  unfold mapWrite
  split <;> rfl

theorem mapWrite_mapWrite (f g : String → Value → Value) (w : StatePath × Value) :
    mapWrite f (mapWrite g w) = mapWrite (fun name v => f name (g name v)) w := by
  unfold mapWrite
  cases hname : w.1.resource? <;> simp [hname]

theorem OrderedMap.map_insert {f : String → Value → Value} (k : String) (v : Value) (m : Tree) :
    (OrderedMap.insert k v m).map (fun e => (e.1, f e.1 e.2)) =
      OrderedMap.insert k (f k v) (m.map fun e => (e.1, f e.1 e.2)) := by
  induction m with
  | nil => rfl
  | cons e rest ih =>
    obtain ⟨j, w⟩ := e
    by_cases h : j = k
    · subst h
      simp [insert]
    · simp [insert, h, ih]

theorem OrderedMap.get?_map (f : String → Value → Value) (k : String) (m : Tree) :
    OrderedMap.get? k (m.map fun e => (e.1, f e.1 e.2)) = (OrderedMap.get? k m).map (f k) := by
  induction m with
  | nil => rfl
  | cons e rest ih =>
    obtain ⟨j, w⟩ := e
    by_cases h : j = k
    · subst h
      simp [get?]
    · simp [get?, h, ih]

namespace Tree

variable {f : String → Value → Value} {t : Tree} {p : StatePath}

theorem mapResources_of_mapping {held : Tree} (h : t.lookup Section.resources.name = .mapping held) :
    t.mapResources f = OrderedMap.insert Section.resources.name
      (.mapping (held.map fun e => (e.1, f e.1 e.2))) t := by
  simp [mapResources, h]

theorem mapResources_of_not_mapping (h : ∀ held, t.lookup Section.resources.name ≠ .mapping held) :
    t.mapResources f = t := by
  unfold mapResources
  split
  next held hheld => exact absurd hheld (h held)
  next => rfl

theorem resources_mem_keys {held : Tree} (h : t.lookup Section.resources.name = .mapping held) :
    Section.resources.name ∈ OrderedMap.keys t := by
  by_contra hnot
  rw [lookup_of_not_mem hnot] at h
  cases h

/-- A rule that keeps the values of the resources keeps the tree. -/
theorem mapResources_of_fixed
    (h : ∀ e ∈ (t.lookup Section.resources.name).entries, f e.1 e.2 = e.2) : t.mapResources f = t := by
  cases hlook : t.lookup Section.resources.name with
  | mapping held =>
    rw [hlook] at h
    have hsame : held.map (fun e => (e.1, f e.1 e.2)) = held := by
      refine (List.map_congr_left fun e he => ?_).trans held.map_id
      rw [h e he, id_eq]
    rw [mapResources_of_mapping hlook, hsame]
    obtain ⟨v, hv⟩ := OrderedMap.exists_get?_of_mem_keys (resources_mem_keys hlook)
    rw [lookup, hv, Option.getD_some] at hlook
    exact OrderedMap.insert_of_get? (hlook ▸ hv)
  | _ => exact mapResources_of_not_mapping (by simp [hlook])

theorem mapResources_set_resource {name : String} (hhead : p.head = Section.resources.name)
    (hrest : p.rest = [name]) (v : Value) :
    (t.set p v).mapResources f = (t.mapResources f).set p (f name v) := by
  have hset : ∀ (u : Tree) (w : Value), u.set p w = OrderedMap.insert Section.resources.name
      (.mapping (OrderedMap.insert name w (u.lookup Section.resources.name).entries)) u := by
    intro u w
    rw [Tree.set, StatePath.keys, hrest, hhead]
    rfl
  rw [hset, hset, mapResources_of_mapping (lookup_insert_self _ _ _), OrderedMap.insert_insert_self,
    OrderedMap.map_insert]
  cases hlook : t.lookup Section.resources.name with
  | mapping held =>
    rw [mapResources_of_mapping hlook, lookup_insert_self, OrderedMap.insert_insert_self]
    rfl
  | _ =>
    rw [mapResources_of_not_mapping (by simp [hlook]), hlook]
    rfl

theorem mapResources_set_of_head_ne (hhead : p.head ≠ Section.resources.name) (v : Value) :
    (t.set p v).mapResources f = (t.mapResources f).set p v := by
  -- what is written under the head depends on what is there only
  have hset : ∃ x : Value, ∀ u : Tree, u.lookup p.head = t.lookup p.head →
      u.set p v = OrderedMap.insert p.head x u := by
    by_cases hrest : p.rest = []
    · exact ⟨v, fun u _ => by rw [Tree.set, StatePath.keys, hrest]; rfl⟩
    · exact ⟨_, fun u hu => by rw [Tree.set, StatePath.keys, write_cons u v _ hrest, hu]⟩
  obtain ⟨x, hx⟩ := hset
  rw [hx t rfl]
  cases hlook : t.lookup Section.resources.name with
  | mapping held =>
    rw [mapResources_of_mapping hlook, hx _ (lookup_insert_of_ne (Ne.symm hhead) t _),
      mapResources_of_mapping ((lookup_insert_of_ne hhead t x).trans hlook),
      OrderedMap.insert_comm_of_mem (Ne.symm hhead) (resources_mem_keys hlook)]
  | _ =>
    have hnot : ∀ held, t.lookup Section.resources.name ≠ .mapping held := by simp [hlook]
    rw [mapResources_of_not_mapping hnot, mapResources_of_not_mapping, hx t rfl]
    intro held
    rw [lookup_insert_of_ne hhead]
    exact hnot held

/-- Writes directly below the resources, and writes elsewhere, can be made before or after. -/
theorem mapResources_setAll {writes : List (StatePath × Value)}
    (h : ∀ w ∈ writes, w.1.head = Section.resources.name → ∃ name, w.1.rest = [name]) :
    (t.setAll writes).mapResources f = (t.mapResources f).setAll (writes.map (mapWrite f)) := by
  induction writes generalizing t with
  | nil => rfl
  | cons w rest ih =>
    obtain ⟨hfirst, hrest⟩ := List.forall_mem_cons.mp h
    have hset : (t.set w.1 w.2).mapResources f = (t.mapResources f).set (mapWrite f w).1 (mapWrite f w).2 := by
      by_cases hhead : w.1.head = Section.resources.name
      · obtain ⟨name, hname⟩ := hfirst hhead
        rw [mapResources_set_resource hhead hname]
        simp [mapWrite, StatePath.resource?_eq_some_iff.mpr ⟨hhead, hname⟩]
      · rw [mapResources_set_of_head_ne hhead]
        simp [mapWrite, StatePath.resource?_eq_none hhead]
    have hstep : (t.setAll (w :: rest)) = (t.set w.1 w.2).setAll rest := rfl
    rw [hstep, ih hrest, hset]
    rfl

end Tree

end SurvivalRules
