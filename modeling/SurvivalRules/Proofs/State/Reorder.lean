import SurvivalRules.Proofs.State.Delta

/-!
# Trees up to the order of keys

A mapping is the same mapping in another order of its keys. Writes at places that are apart, and the same
write made twice, can be done in either order; the trees then differ in the order of their keys only.
-/
namespace SurvivalRules

namespace Value

/-- The same values up to the order of the keys in mappings, at every depth. -/
inductive Reordered : Value → Value → Prop
  | refl (v : Value) : Reordered v v
  | mapping {es fs : Tree} (hkeys : ∀ k, k ∈ OrderedMap.keys es ↔ k ∈ OrderedMap.keys fs)
    (hvalues : ∀ k v w, OrderedMap.get? k es = some v → OrderedMap.get? k fs = some w → Reordered v w) :
    Reordered (.mapping es) (.mapping fs)

end Value

/-- The same entries up to the order of keys, at every depth. -/
structure Tree.Reordered (t u : Tree) : Prop where
  mem_keys_iff : ∀ k, k ∈ OrderedMap.keys t ↔ k ∈ OrderedMap.keys u
  values : ∀ k v w, OrderedMap.get? k t = some v → OrderedMap.get? k u = some w → v.Reordered w

theorem Value.reordered_mapping_iff {t u : Tree} :
    (Value.mapping t).Reordered (.mapping u) ↔ t.Reordered u := by
  constructor
  · rintro (_ | ⟨hkeys, hvalues⟩)
    · refine ⟨fun _ => Iff.rfl, fun k v w hv hw => ?_⟩
      cases hv.symm.trans hw
      exact .refl v
    · exact ⟨hkeys, hvalues⟩
  · exact fun h => .mapping h.mem_keys_iff h.values

namespace Value.Reordered

theorem exists_mapping {es : Tree} {w : Value} (h : (Value.mapping es).Reordered w) :
    ∃ fs, w = .mapping fs ∧ es.Reordered fs := by
  cases h with
  | refl => exact ⟨es, rfl, reordered_mapping_iff.mp (.refl _)⟩
  | mapping hkeys hvalues => exact ⟨_, rfl, hkeys, hvalues⟩

theorem entries {v w : Value} (h : v.Reordered w) : Tree.Reordered v.entries w.entries := by
  cases h with
  | refl => exact reordered_mapping_iff.mp (.refl _)
  | mapping hkeys hvalues => exact ⟨hkeys, hvalues⟩

theorem symm {v w : Value} (h : v.Reordered w) : w.Reordered v := by
  induction h with
  | refl v => exact .refl v
  | mapping hkeys _ ih => exact .mapping (fun k => (hkeys k).symm) fun k v w hv hw => ih k w v hw hv

theorem trans {u v w : Value} (h : u.Reordered v) (h' : v.Reordered w) : u.Reordered w := by
  induction h generalizing w with
  | refl v => exact h'
  | mapping hkeys hvalues ih =>
    cases h' with
    | refl => exact .mapping hkeys hvalues
    | mapping hkeys' hvalues' =>
      refine .mapping (fun k => (hkeys k).trans (hkeys' k)) fun k x z hx hz => ?_
      obtain ⟨y, hy⟩ := OrderedMap.exists_get?_of_mem_keys
        ((hkeys k).mp (OrderedMap.mem_keys_of_get? hx))
      exact ih k x y hx hy (hvalues' k y z hy hz)

end Value.Reordered

namespace Tree

variable {t u w : Tree}

namespace Reordered

theorem refl (t : Tree) : t.Reordered t := Value.reordered_mapping_iff.mp (.refl _)

theorem symm (h : t.Reordered u) : u.Reordered t :=
  Value.reordered_mapping_iff.mp (Value.reordered_mapping_iff.mpr h).symm

theorem trans (h : t.Reordered u) (h' : u.Reordered w) : t.Reordered w :=
  Value.reordered_mapping_iff.mp
    ((Value.reordered_mapping_iff.mpr h).trans (Value.reordered_mapping_iff.mpr h'))

theorem insert (h : t.Reordered u) {v v' : Value} (hv : v.Reordered v') (k : String) :
    Tree.Reordered (OrderedMap.insert k v t) (OrderedMap.insert k v' u) := by
  refine ⟨fun j => ?_, fun j x y hx hy => ?_⟩
  · rw [OrderedMap.mem_keys_insert, OrderedMap.mem_keys_insert, h.mem_keys_iff j]
  · rw [OrderedMap.get?_insert] at hx hy
    split at hx
    next hk =>
      rw [if_pos hk] at hy
      cases hx
      cases hy
      exact hv
    next hk =>
      rw [if_neg hk] at hy
      exact h.values j x y hx hy

theorem lookup (h : t.Reordered u) (k : String) : (t.lookup k).Reordered (u.lookup k) := by
  by_cases hk : k ∈ OrderedMap.keys t
  · obtain ⟨v, hv⟩ := OrderedMap.exists_get?_of_mem_keys hk
    obtain ⟨v', hv'⟩ := OrderedMap.exists_get?_of_mem_keys ((h.mem_keys_iff k).mp hk)
    rw [Tree.lookup, Tree.lookup, hv, hv', Option.getD_some, Option.getD_some]
    exact h.values k v v' hv hv'
  · rw [lookup_of_not_mem hk, lookup_of_not_mem fun hu => hk ((h.mem_keys_iff k).mpr hu)]
    exact .refl _

/-- What is found under a key, read as entries, is the same up to order. -/
theorem entries_lookup (h : t.Reordered u) (k : String) :
    Tree.Reordered (t.lookup k).entries (u.lookup k).entries :=
  (h.lookup k).entries

theorem write (h : t.Reordered u) (v : Value) (ks : List String) :
    (t.write v ks).Reordered (u.write v ks) := by
  induction ks generalizing t u with
  | nil => exact h
  | cons k rest ih =>
    by_cases hrest : rest = []
    · subst hrest
      exact h.insert (.refl v) k
    · rw [write_cons t v k hrest, write_cons u v k hrest]
      exact h.insert (Value.reordered_mapping_iff.mpr (ih (h.entries_lookup k))) k

theorem setAll (h : t.Reordered u) (writes : List (StatePath × Value)) :
    (t.setAll writes).Reordered (u.setAll writes) := by
  induction writes generalizing t u with
  | nil => exact h
  | cons first rest ih => exact ih (h.write first.2 first.1.keys)

end Reordered

theorem insert_comm {j k : String} (hne : j ≠ k) (t : Tree) (v v' : Value) :
    Tree.Reordered (OrderedMap.insert j v (OrderedMap.insert k v' t))
      (OrderedMap.insert k v' (OrderedMap.insert j v t)) := by
  refine ⟨fun i => ?_, fun i x y hx hy => ?_⟩
  · simp only [OrderedMap.mem_keys_insert]
    exact or_left_comm
  · have hsame : OrderedMap.get? i (OrderedMap.insert j v (OrderedMap.insert k v' t)) =
        OrderedMap.get? i (OrderedMap.insert k v' (OrderedMap.insert j v t)) := by
      simp only [OrderedMap.get?_insert]
      by_cases hj : j = i
      · subst hj
        simp [Ne.symm hne]
      · simp [hj]
    rw [hsame, hy] at hx
    cases hx
    exact .refl _

/-- Writes along keys of which neither leads to the other can be swapped. -/
theorem write_comm (t : Tree) (v v' : Value) {ks js : List String} (hks : ¬ ks <+: js)
    (hjs : ¬ js <+: ks) : ((t.write v ks).write v' js).Reordered ((t.write v' js).write v ks) := by
  induction ks generalizing t js with
  | nil => exact absurd List.nil_prefix hks
  | cons k ks ih =>
    obtain ⟨j, js, rfl⟩ := List.exists_cons_of_ne_nil (l := js) fun h => hjs (h ▸ List.nil_prefix)
    simp only [List.cons_prefix_cons, not_and] at hks hjs
    by_cases hkj : k = j
    · subst hkj
      have hks' : ks ≠ [] := fun he => hks rfl (he ▸ List.nil_prefix)
      have hjs' : js ≠ [] := fun he => hjs rfl (he ▸ List.nil_prefix)
      rw [write_cons t v k hks', write_cons t v' k hjs', write_cons _ v' k hjs', write_cons _ v k hks',
        lookup_insert_self, lookup_insert_self, OrderedMap.insert_insert_self,
        OrderedMap.insert_insert_self]
      exact (Reordered.refl t).insert
        (Value.reordered_mapping_iff.mpr (ih _ (hks rfl) (hjs rfl))) k
    · -- a write below one key leaves what is found under the other
      have hwrite : ∀ (t : Tree) (v : Value) (i : String) (is : List String), ∃ x : Value,
          ∀ t' : Tree, t'.lookup i = t.lookup i → t'.write v (i :: is) = OrderedMap.insert i x t' := by
        intro t v i is
        by_cases his : is = []
        · subst his
          exact ⟨v, fun t' _ => rfl⟩
        · exact ⟨_, fun t' ht' => by rw [write_cons t' v i his, ht']⟩
      obtain ⟨x, hx⟩ := hwrite t v k ks
      obtain ⟨y, hy⟩ := hwrite t v' j js
      rw [hx t rfl, hy t rfl, hy _ (lookup_insert_of_ne hkj t x),
        hx _ (lookup_insert_of_ne (Ne.symm hkj) t y)]
      exact insert_comm (Ne.symm hkj) t y x

/-- Two writes that can be made in either order: at places that are apart, or the same write. -/
def Swaps (v w : StatePath × Value) : Prop := ¬ v.1.Comparable w.1 ∨ v.1.keys = w.1.keys ∧ v.2 = w.2

theorem set_comm (t : Tree) {v w : StatePath × Value} (h : Swaps v w) :
    ((t.set v.1 v.2).set w.1 w.2).Reordered ((t.set w.1 w.2).set v.1 v.2) := by
  rcases h with h | ⟨hkeys, hvalue⟩
  · exact write_comm t v.2 w.2 (fun hp => h (Or.inl hp)) fun hp => h (Or.inr hp)
  · rw [Tree.set, Tree.set, Tree.set, Tree.set, hkeys, hvalue]
    exact .refl _

theorem setAll_set_comm (t : Tree) {v : StatePath × Value} {ws : List (StatePath × Value)}
    (h : ∀ w ∈ ws, Swaps v w) :
    ((t.set v.1 v.2).setAll ws).Reordered ((t.setAll ws).set v.1 v.2) := by
  induction ws generalizing t with
  | nil => exact .refl _
  | cons w ws ih =>
    obtain ⟨hfirst, hrest⟩ := List.forall_mem_cons.mp h
    exact ((set_comm t hfirst).setAll ws).trans (ih (t.set w.1 w.2) hrest)

/-- Lists of writes can be made in either order if each two of them can. -/
theorem setAll_comm (t : Tree) {vs ws : List (StatePath × Value)}
    (h : ∀ v ∈ vs, ∀ w ∈ ws, Swaps v w) :
    ((t.setAll vs).setAll ws).Reordered ((t.setAll ws).setAll vs) := by
  induction vs generalizing t with
  | nil => exact .refl _
  | cons v vs ih =>
    obtain ⟨hfirst, hrest⟩ := List.forall_mem_cons.mp h
    exact (ih (t.set v.1 v.2) hrest).trans ((setAll_set_comm t hfirst).setAll vs)

end Tree

namespace Delta

variable {delta delta' : Tree}

theorem reordered_base (h : delta.Reordered delta') (state : Tree) (k : String) :
    (base delta state k).Reordered (base delta' state k) := by
  have hlook := h.lookup k
  unfold base
  generalize delta.lookup k = v at hlook
  generalize delta'.lookup k = w at hlook
  cases hlook with
  | refl => exact .refl _
  | mapping hkeys hvalues => exact ⟨hkeys, hvalues⟩

theorem reordered_set (h : delta.Reordered delta') (state : Tree) (p : StatePath) (v : Value) :
    (set delta state p v).Reordered (set delta' state p v) := by
  by_cases hrest : p.rest = []
  · rw [set_of_rest_eq_nil delta state hrest, set_of_rest_eq_nil delta' state hrest]
    exact h.insert (.refl v) p.head
  · rw [set_of_rest_ne_nil delta state hrest, set_of_rest_ne_nil delta' state hrest]
    exact h.insert (Value.reordered_mapping_iff.mpr ((reordered_base h state p.head).write v p.rest)) p.head

theorem reordered_setAll (h : delta.Reordered delta') (state : Tree) (writes : List (StatePath × Value)) :
    (setAll delta state writes).Reordered (setAll delta' state writes) := by
  induction writes generalizing delta delta' with
  | nil => exact h
  | cons w rest ih => exact ih (reordered_set h state w.1 w.2)

/-- Writes at places that are apart can be collected in either order. -/
theorem set_comm (delta state : Tree) {p q : StatePath} (h : ¬ p.Comparable q) (v w : Value) :
    (set (set delta state p v) state q w).Reordered (set (set delta state q w) state p v) := by
  by_cases hhead : p.head = q.head
  · -- in one section, the second write starts from what the first one has left of it
    have hp := rest_ne_nil_of_apart h hhead
    have hq := rest_ne_nil_of_apart (StatePath.not_comparable_symm h) hhead.symm
    have hpq : ¬ p.rest <+: q.rest := fun hpre => h (Or.inl (by simpa [StatePath.keys, hhead] using hpre))
    have hqp : ¬ q.rest <+: p.rest := fun hpre => h (Or.inr (by simpa [StatePath.keys, hhead] using hpre))
    rw [set_of_rest_ne_nil delta state hp, set_of_rest_ne_nil delta state hq, set_of_rest_ne_nil _ state hq,
      set_of_rest_ne_nil _ state hp, hhead, base_of_mapping (Tree.lookup_insert_self _ _ _),
      base_of_mapping (Tree.lookup_insert_self _ _ _), OrderedMap.insert_insert_self, OrderedMap.insert_insert_self]
    exact (Tree.Reordered.refl delta).insert (Value.reordered_mapping_iff.mpr (Tree.write_comm _ v w hpq hqp)) q.head
  · -- in two sections, each write finds its own section as it was
    have hset : ∀ (r : StatePath) (x : Value), ∃ y, ∀ t : Tree, t.lookup r.head = delta.lookup r.head →
        set t state r x = OrderedMap.insert r.head y t := by
      intro r x
      by_cases hrest : r.rest = []
      · exact ⟨x, fun t _ => set_of_rest_eq_nil t state hrest x⟩
      · exact ⟨_, fun t ht => by rw [set_of_rest_ne_nil t state hrest, base_congr ht]⟩
    obtain ⟨x, hx⟩ := hset p v
    obtain ⟨y, hy⟩ := hset q w
    rw [hx delta rfl, hy delta rfl, hy _ (Tree.lookup_insert_of_ne hhead delta x),
      hx _ (Tree.lookup_insert_of_ne (Ne.symm hhead) delta y)]
    exact Tree.insert_comm (Ne.symm hhead) delta y x

/-- Writes at places that are apart from each other are collected in any order. -/
theorem setAll_perm (delta state : Tree) {ws ws' : List (StatePath × Value)} (hperm : ws.Perm ws')
    (hapart : ws.Pairwise fun w w' => ¬ w.1.Comparable w'.1) :
    (setAll delta state ws).Reordered (setAll delta state ws') := by
  induction hperm generalizing delta with
  | nil => exact .refl delta
  | cons w _ ih => exact ih _ (List.pairwise_cons.mp hapart).2
  | swap w w' rest =>
    have hne := (List.pairwise_cons.mp hapart).1 w List.mem_cons_self
    exact reordered_setAll (set_comm delta state hne w'.2 w.2) state rest
  | trans hfirst _ ih ih' =>
    have hbetween := hfirst.pairwise hapart StatePath.not_comparable_symm
    exact (ih delta hapart).trans (ih' delta hbetween)

end Delta

end SurvivalRules
