import SurvivalRules.Proofs.OrderedMap
import SurvivalRules.Proofs.State.Path
import SurvivalRules.State.Tree

/-!
# Laws of state trees

A place reads what was last written to it, and a write changes nothing at places that are neither on its
way nor below it.
-/
namespace SurvivalRules

namespace Value

@[simp] theorem descend_null (ks : List String) : Value.null.descend ks = .null := by
  cases ks <;> rfl

theorem descend_mapping_cons (es : List (String × Value)) (k : String) (ks : List String) :
    (Value.mapping es).descend (k :: ks) = (Tree.lookup es k).descend ks := by
  simp only [descend, Tree.lookup]
  cases OrderedMap.get? k es <;> simp

theorem descend_mapping_entries (v : Value) {ks : List String} (h : ks ≠ []) :
    (Value.mapping v.entries).descend ks = v.descend ks := by
  obtain ⟨k, rest, rfl⟩ := List.exists_cons_of_ne_nil h
  cases v with
  | mapping es => rfl
  | _ => rw [descend_mapping_cons]; simp [entries, Tree.lookup, descend]

end Value

namespace Tree

/-- Every section that is a mapping names each of its entries once. -/
def Distinct (t : Tree) : Prop := ∀ k, (OrderedMap.keys (t.lookup k).entries).Nodup

/-- As `Distinct`, for a single section. -/
def DistinctAt (t : Tree) (k : String) : Prop := (OrderedMap.keys (t.lookup k).entries).Nodup

theorem lookup_insert (t : Tree) (k j : String) (v : Value) :
    Tree.lookup (OrderedMap.insert k v t) j = if k = j then v else t.lookup j := by
  split
  next h => rw [h, lookup_insert_self]
  next h => rw [lookup_insert_of_ne h]

theorem distinct_of_forall_mem {t : Tree} (h : ∀ e ∈ t, (OrderedMap.keys e.2.entries).Nodup) :
    t.Distinct := by
  intro k
  unfold lookup
  cases hk : OrderedMap.get? k t with
  | none => exact List.nodup_nil
  | some v => exact h (k, v) (OrderedMap.mem_of_get? hk)

theorem lookup_of_not_mem {t : Tree} {k : String} (h : k ∉ OrderedMap.keys t) :
    t.lookup k = .null := by
  simp [lookup, OrderedMap.get?_eq_none_iff.mpr h]

theorem write_cons (t : Tree) (v : Value) (k : String) {ks : List String} (h : ks ≠ []) :
    t.write v (k :: ks) = OrderedMap.insert k (.mapping (write (t.lookup k).entries v ks)) t := by
  obtain ⟨j, rest, rfl⟩ := List.exists_cons_of_ne_nil h
  rfl

theorem lookup_write_of_ne {j k : String} (h : k ≠ j) (t : Tree) (v : Value) (ks : List String) :
    Tree.lookup (t.write v (k :: ks)) j = t.lookup j := by
  cases ks with
  | nil => exact lookup_insert_of_ne h t v
  | cons k' rest =>
    rw [write_cons t v k (List.cons_ne_nil k' rest), lookup_insert_of_ne h]

theorem entries_of_section?_eq_ok {t es : Tree} {k : String} (h : t.section? k = .ok es) :
    (t.lookup k).entries = es := by
  unfold section? at h
  split at h
  next entries hentries =>
    cases h
    rw [hentries]
    rfl
  next v hv =>
    split at h
    · cases h
      cases hlook : t.lookup k with
      | mapping es => exact absurd hlook (hv es)
      | _ => rfl
    · cases h

theorem section?_of_lookup {t es : Tree} {k : String} (h : t.lookup k = .mapping es) :
    t.section? k = .ok es := by
  simp [section?, h]

theorem keys_prefix_write (t : Tree) (v : Value) (ks : List String) :
    OrderedMap.keys t <+: OrderedMap.keys (t.write v ks) := by
  rcases ks with _ | ⟨k, _ | ⟨j, rest⟩⟩
  · exact List.prefix_rfl
  · exact OrderedMap.keys_prefix_insert _ _ _
  · exact OrderedMap.keys_prefix_insert _ _ _

theorem nodup_keys_write {t : Tree} (h : (OrderedMap.keys t).Nodup) (v : Value)
    (ks : List String) : (OrderedMap.keys (t.write v ks)).Nodup := by
  rcases ks with _ | ⟨k, _ | ⟨j, rest⟩⟩
  · exact h
  · exact OrderedMap.nodup_keys_insert h _ _
  · exact OrderedMap.nodup_keys_insert h _ _

theorem descend_write_self (t : Tree) (v : Value) {ks : List String} (h : ks ≠ []) :
    (Value.mapping (t.write v ks)).descend ks = v := by
  induction ks generalizing t with
  | nil => exact absurd rfl h
  | cons k rest ih =>
    by_cases hrest : rest = []
    · subst hrest
      simp [write, Value.descend]
    · rw [write_cons t v k hrest, Value.descend_mapping_cons, lookup_insert_self, ih _ hrest]

/-- A write is not seen at a place that is neither on its way nor below it. -/
theorem descend_write_of_apart (t : Tree) (v : Value) {ks js : List String}
    (hks : ¬ ks <+: js) (hjs : ¬ js <+: ks) :
    (Value.mapping (t.write v ks)).descend js = (Value.mapping t).descend js := by
  induction ks generalizing t js with
  | nil => exact absurd List.nil_prefix hks
  | cons k rest ih =>
    obtain ⟨j, more, rfl⟩ := List.exists_cons_of_ne_nil (l := js) fun h => hjs (h ▸ List.nil_prefix)
    simp only [List.cons_prefix_cons, not_and] at hks hjs
    rw [Value.descend_mapping_cons, Value.descend_mapping_cons]
    by_cases hrest : rest = []
    · subst hrest
      have hkj : k ≠ j := fun he => hks he List.nil_prefix
      simp only [write, lookup_insert_of_ne hkj]
    · rw [write_cons t v k hrest, lookup_insert]
      split
      next he =>
        subst he
        have hmore : more ≠ [] := fun hm => hjs rfl (hm ▸ List.nil_prefix)
        rw [ih _ (hks rfl) (hjs rfl), Value.descend_mapping_entries _ hmore]
      · rfl

theorem get_eq_descend (t : Tree) (p : StatePath) : t.get p = (t.lookup p.head).descend p.rest :=
  Value.descend_mapping_cons t p.head p.rest

/-- A section is found by its name in a tree that reads anything below it. -/
theorem get_cons {t : Tree} {q : StatePath} {name : String} {ks : List String}
    (hrest : q.rest = name :: ks) :
    t.get q = (lookup (t.lookup q.head).entries name).descend ks := by
  rw [Tree.get_eq_descend, hrest, ← Value.descend_mapping_entries _ (List.cons_ne_nil name ks),
    Value.descend_mapping_cons]

theorem get_set_self (t : Tree) (p : StatePath) (v : Value) : (t.set p v).get p = v :=
  descend_write_self t v (List.cons_ne_nil _ _)

theorem get_set_of_apart (t : Tree) (v : Value) {p q : StatePath} (h : ¬ p.Comparable q) :
    (t.set p v).get q = t.get q :=
  descend_write_of_apart t v (fun hp => h (Or.inl hp)) (fun hq => h (Or.inr hq))

end Tree

end SurvivalRules
