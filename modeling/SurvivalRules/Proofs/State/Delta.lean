import SurvivalRules.Proofs.OrderedMap.Combine
import SurvivalRules.Proofs.State.Tree
import SurvivalRules.State.Delta

/-!
# Deltas refine direct writes

A delta keeps whole sections that start from those of the state, and laying it over the state is shallow in
each section. Still it gives exactly the tree that the same writes give one after another, and while it is
being collected every place reads as in that tree.
-/
namespace SurvivalRules

namespace Tree

def setAll (t : Tree) (writes : List (StatePath × Value)) : Tree :=
  writes.foldl (fun t w => t.set w.1 w.2) t

theorem setAll_append (t : Tree) (ws : List (StatePath × Value)) (w : StatePath × Value) :
    t.setAll (ws ++ [w]) = (t.setAll ws).set w.1 w.2 := by
  simp [setAll]

theorem setAll_setAll (t : Tree) (vs ws : List (StatePath × Value)) :
    (t.setAll vs).setAll ws = t.setAll (vs ++ ws) :=
  List.foldl_append.symm

theorem lookup_set_of_head_ne {t : Tree} {p : StatePath} {k : String} (h : p.head ≠ k) (v : Value) :
    (t.set p v).lookup k = t.lookup k :=
  lookup_write_of_ne h t v p.rest

theorem lookup_setAll_of_head_ne {t : Tree} {writes : List (StatePath × Value)} {k : String}
    (h : ∀ w ∈ writes, w.1.head ≠ k) : (t.setAll writes).lookup k = t.lookup k := by
  induction writes generalizing t with
  | nil => rfl
  | cons w rest ih =>
    obtain ⟨hfirst, hrest⟩ := List.forall_mem_cons.mp h
    exact (ih hrest).trans (lookup_set_of_head_ne hfirst w.2)

theorem get_setAll_of_apart {t : Tree} {writes : List (StatePath × Value)} {q : StatePath}
    (h : ∀ w ∈ writes, ¬ w.1.Comparable q) : (t.setAll writes).get q = t.get q := by
  induction writes generalizing t with
  | nil => rfl
  | cons w rest ih =>
    obtain ⟨hfirst, hrest⟩ := List.forall_mem_cons.mp h
    exact (ih hrest).trans (get_set_of_apart t w.2 hfirst)

/-- A section stays a section when something is written below it. -/
theorem exists_section?_set {t es : Tree} {p : StatePath} {k : String} (hp : p.rest ≠ []) (v : Value)
    (h : t.section? k = .ok es) : ∃ es', (t.set p v).section? k = .ok es' := by
  by_cases hhead : p.head = k
  · have hlook : (t.set p v).lookup k = .mapping (write (t.lookup p.head).entries v p.rest) := by
      rw [Tree.set, StatePath.keys, write_cons t v p.head hp, hhead, lookup_insert_self]
    exact ⟨_, section?_of_lookup hlook⟩
  · exact ⟨es, by rw [section?, lookup_set_of_head_ne hhead]; exact h⟩

theorem exists_section?_setAll {t es : Tree} {writes : List (StatePath × Value)} {k : String}
    (hw : ∀ w ∈ writes, w.1.rest ≠ []) (h : t.section? k = .ok es) :
    ∃ es', (t.setAll writes).section? k = .ok es' := by
  induction writes generalizing t es with
  | nil => exact ⟨es, h⟩
  | cons w rest ih =>
    obtain ⟨hfirst, hrest⟩ := List.forall_mem_cons.mp hw
    obtain ⟨es', hes'⟩ := exists_section?_set hfirst w.2 h
    exact ih hrest hes'

end Tree

namespace Delta

def setAll (delta state : Tree) (writes : List (StatePath × Value)) : Tree :=
  writes.foldl (fun d w => set d state w.1 w.2) delta

theorem setAll_append (delta state : Tree) (ws : List (StatePath × Value)) (w : StatePath × Value) :
    setAll delta state (ws ++ [w]) = set (setAll delta state ws) state w.1 w.2 := by
  simp [setAll]

theorem set_of_rest_ne_nil (delta state : Tree) {p : StatePath} (h : p.rest ≠ []) (v : Value) :
    set delta state p v =
      OrderedMap.insert p.head (.mapping ((base delta state p.head).write v p.rest)) delta := by
  obtain ⟨raw, head, rest⟩ := p
  cases rest with
  | nil => exact absurd rfl h
  | cons k ks => rfl

theorem set_of_rest_eq_nil (delta state : Tree) {p : StatePath} (h : p.rest = []) (v : Value) :
    set delta state p v = OrderedMap.insert p.head v delta := by
  obtain ⟨raw, head, rest⟩ := p
  subst h
  rfl

/-- A write touches its own section of the delta and no other. -/
theorem exists_set_eq_insert (delta state : Tree) (p : StatePath) (v : Value) :
    ∃ x, set delta state p v = OrderedMap.insert p.head x delta := by
  by_cases h : p.rest = []
  · exact ⟨v, set_of_rest_eq_nil delta state h v⟩
  · exact ⟨_, set_of_rest_ne_nil delta state h v⟩

theorem base_of_mapping {delta : Tree} {k : String} {es : Tree} (h : delta.lookup k = .mapping es)
    (state : Tree) : base delta state k = es := by
  simp [base, h]

theorem base_congr {delta delta' : Tree} {k : String} (h : delta'.lookup k = delta.lookup k)
    (state : Tree) : base delta' state k = base delta state k := by
  simp [base, h]

theorem lookup_set_name {p : StatePath} {name : String} (hp : p.rest = [name]) (delta state : Tree)
    (v : Value) : (set delta state p v).lookup p.head =
      .mapping (OrderedMap.insert name v (base delta state p.head)) := by
  obtain ⟨raw, head, rest⟩ := p
  subst hp
  exact Tree.lookup_insert_self _ _ _

theorem base_of_not_mem {delta : Tree} {k : String} (h : k ∉ OrderedMap.keys delta) (state : Tree) :
    base delta state k = (state.lookup k).entries := by
  simp [base, Tree.lookup_of_not_mem h]

/-- What a section of a delta makes of what the state has there. -/
def replaced (current : Option Value) (v : Value) : Value := mergeSection (current.getD .null) v

theorem merge_eq_combine (state delta : Tree) : merge state delta = OrderedMap.combine replaced state delta := rfl

/-- Merging after a section of the delta is replaced is the same as replacing that section of the merged
state, where the new section is merged with the one that the state had. -/
theorem merge_insert {delta : Tree} (hnodup : (OrderedMap.keys delta).Nodup) (state : Tree)
    (k : String) (v : Value) :
    merge state (OrderedMap.insert k v delta) =
      OrderedMap.insert k (mergeSection (state.lookup k) v) (merge state delta) :=
  OrderedMap.combine_insert (f := replaced) hnodup state k v

theorem lookup_merge {delta : Tree} (hnodup : (OrderedMap.keys delta).Nodup) (state : Tree)
    (k : String) :
    (merge state delta).lookup k =
      if k ∈ OrderedMap.keys delta then mergeSection (state.lookup k) (delta.lookup k)
      else state.lookup k := by
  rw [merge_eq_combine]
  unfold Tree.lookup
  split
  next hk =>
    obtain ⟨v, hv⟩ := OrderedMap.exists_get?_of_mem_keys hk
    rw [OrderedMap.get?_combine_of_get? hnodup hv, hv]
    rfl
  next hk => rw [OrderedMap.get?_combine_of_not_mem hk]

/-- What the writes of an action keep: a delta names each section once, and a section that it holds as a
mapping starts with the names that the section of the state has. -/
structure Tidy (delta state : Tree) : Prop where
  nodup : (OrderedMap.keys delta).Nodup
  section_spec : ∀ k es, delta.lookup k = .mapping es →
    (OrderedMap.keys es).Nodup ∧ OrderedMap.keys (state.lookup k).entries <+: OrderedMap.keys es

/-- As `Tidy`, for a single section. -/
structure TidyAt (delta state : Tree) (k : String) : Prop where
  nodup : (OrderedMap.keys delta).Nodup
  section_spec : ∀ es, delta.lookup k = .mapping es →
    (OrderedMap.keys es).Nodup ∧ OrderedMap.keys (state.lookup k).entries <+: OrderedMap.keys es

theorem tidy_iff {delta state : Tree} : Tidy delta state ↔ ∀ k, TidyAt delta state k :=
  ⟨fun h k => ⟨h.nodup, h.section_spec k⟩, fun h => ⟨(h "").nodup, fun k => (h k).section_spec⟩⟩

theorem tidyAt_nil (state : Tree) (k : String) : TidyAt [] state k := ⟨by simp, by simp [Tree.lookup]⟩

theorem tidy_nil (state : Tree) : Tidy [] state := tidy_iff.mpr (tidyAt_nil state)

theorem mergeSection_eq {x v : Value} (h : ∀ es, v = .mapping es →
    (OrderedMap.keys es).Nodup ∧ OrderedMap.keys x.entries <+: OrderedMap.keys es) :
    mergeSection x v = v := by
  cases v with
  | mapping fs =>
    cases x with
    | mapping es =>
      obtain ⟨hnodup, hpre⟩ := h fs rfl
      exact congrArg Value.mapping (OrderedMap.overlay_eq_of_prefix hpre hnodup)
    | _ => rfl
  | _ => cases x <;> rfl

namespace TidyAt

variable {delta state : Tree} {k : String}

theorem base_spec (h : TidyAt delta state k) (hd : state.DistinctAt k) :
    (OrderedMap.keys (base delta state k)).Nodup ∧
      OrderedMap.keys (state.lookup k).entries <+: OrderedMap.keys (base delta state k) := by
  unfold base
  split
  next es hes => exact h.section_spec es hes
  next => exact ⟨hd, List.prefix_rfl⟩

theorem written_spec (h : TidyAt delta state k) (hd : state.DistinctAt k) (v : Value)
    (ks : List String) : ∀ es, Value.mapping ((base delta state k).write v ks) = .mapping es →
      (OrderedMap.keys es).Nodup ∧ OrderedMap.keys (state.lookup k).entries <+: OrderedMap.keys es := by
  rintro es he
  cases he
  obtain ⟨hnodup, hpre⟩ := h.base_spec hd
  exact ⟨Tree.nodup_keys_write hnodup v ks, hpre.trans (Tree.keys_prefix_write _ _ _)⟩

theorem insert (h : TidyAt delta state k) {j : String} {v : Value} (hv : j = k → ∀ es, v = .mapping es →
    (OrderedMap.keys es).Nodup ∧ OrderedMap.keys (state.lookup k).entries <+: OrderedMap.keys es) :
    TidyAt (OrderedMap.insert j v delta) state k := by
  refine ⟨OrderedMap.nodup_keys_insert h.nodup _ _, fun es hes => ?_⟩
  rw [Tree.lookup_insert] at hes
  split at hes
  next hjk => exact hv hjk es hes
  next => exact h.section_spec es hes

/-- A path of one segment keeps a delta tidy as long as no mapping is written. -/
theorem set (h : TidyAt delta state k) (hd : state.DistinctAt k) {p : StatePath} {v : Value}
    (hp : p.rest ≠ [] ∨ v.mapping? = none) : TidyAt (Delta.set delta state p v) state k := by
  by_cases hrest : p.rest = []
  · rw [set_of_rest_eq_nil delta state hrest]
    apply h.insert
    rintro - es rfl
    exact absurd hp (by simp [hrest, Value.mapping?])
  · rw [set_of_rest_ne_nil delta state hrest]
    apply h.insert
    rintro rfl
    exact h.written_spec hd v p.rest

theorem lookup_merge (h : TidyAt delta state k) :
    (merge state delta).lookup k =
      if k ∈ OrderedMap.keys delta then delta.lookup k else state.lookup k := by
  rw [Delta.lookup_merge h.nodup, mergeSection_eq h.section_spec]

theorem distinctAt_merge (h : TidyAt delta state k) (hd : state.DistinctAt k) :
    (merge state delta).DistinctAt k := by
  unfold Tree.DistinctAt
  rw [h.lookup_merge]
  split
  · cases hv : delta.lookup k with
    | mapping es => exact (h.section_spec es hv).1
    | _ => exact List.nodup_nil
  · exact hd

/-- What a place reads while the delta is collected is what it reads in the merged state. -/
theorem get_merge {p : StatePath} (h : TidyAt delta state p.head) :
    (merge state delta).get p = current delta state p := by
  rw [Tree.get_eq_descend, h.lookup_merge]
  simp only [current, OrderedMap.contains_iff_mem_keys]
  split
  · exact (Tree.get_eq_descend delta p).symm
  · exact (Tree.get_eq_descend state p).symm

end TidyAt

namespace Tidy

variable {delta state : Tree}

theorem tidyAt (h : Tidy delta state) (k : String) : TidyAt delta state k := tidy_iff.mp h k

theorem set (h : Tidy delta state) (hd : state.Distinct) {p : StatePath} {v : Value}
    (hp : p.rest ≠ [] ∨ v.mapping? = none) : Tidy (Delta.set delta state p v) state :=
  tidy_iff.mpr fun k => (h.tidyAt k).set (hd k) hp

theorem lookup_merge (h : Tidy delta state) (k : String) :
    (merge state delta).lookup k =
      if k ∈ OrderedMap.keys delta then delta.lookup k else state.lookup k :=
  (h.tidyAt k).lookup_merge

end Tidy

/-- The sections that writes of at least two segments leave in a delta are mappings. -/
structure Covers (delta state : Tree) : Prop extends Tidy delta state where
  exists_entries : ∀ k ∈ OrderedMap.keys delta, ∃ es, delta.lookup k = .mapping es

theorem covers_nil (state : Tree) : Covers [] state := ⟨tidy_nil state, by simp⟩

namespace Covers

variable {delta state : Tree}

theorem set (h : Covers delta state) (hd : state.Distinct) {p : StatePath} (hp : p.rest ≠ [])
    (v : Value) : Covers (Delta.set delta state p v) state := by
  refine ⟨h.toTidy.set hd (Or.inl hp), fun k hk => ?_⟩
  rw [set_of_rest_ne_nil delta state hp] at hk ⊢
  rw [Tree.lookup_insert]
  split
  · exact ⟨_, rfl⟩
  next hne =>
    exact h.exists_entries k ((OrderedMap.mem_keys_insert.mp hk).resolve_left fun he => hne he.symm)

theorem base_eq_entries (h : Covers delta state) (k : String) :
    base delta state k = ((merge state delta).lookup k).entries := by
  rw [h.lookup_merge]
  split
  next hk =>
    obtain ⟨es, hes⟩ := h.exists_entries k hk
    rw [base_of_mapping hes, hes]
    rfl
  next hk => rw [base_of_not_mem hk]

theorem merge_set (h : Covers delta state) (hd : state.Distinct) {p : StatePath} (hp : p.rest ≠ [])
    (v : Value) : merge state (Delta.set delta state p v) = (merge state delta).set p v := by
  rw [set_of_rest_ne_nil delta state hp, merge_insert h.nodup,
    mergeSection_eq ((h.tidyAt p.head).written_spec (hd p.head) v p.rest), Tree.set, StatePath.keys,
    Tree.write_cons _ v _ hp, h.base_eq_entries]

/-- Further writes keep this, and they reach the merged state as they are. -/
theorem extend (h : Covers delta state) (hd : state.Distinct) {writes : List (StatePath × Value)}
    (hw : ∀ w ∈ writes, w.1.rest ≠ []) : Covers (Delta.setAll delta state writes) state ∧
      merge state (Delta.setAll delta state writes) = (merge state delta).setAll writes := by
  induction writes generalizing delta with
  | nil => exact ⟨h, rfl⟩
  | cons w rest ih =>
    obtain ⟨hfirst, hrest⟩ := List.forall_mem_cons.mp hw
    obtain ⟨hcovers, hmerge⟩ := ih (h.set hd hfirst w.2) hrest
    refine ⟨hcovers, hmerge.trans ?_⟩
    rw [h.merge_set hd hfirst]
    rfl

theorem setAll (hd : state.Distinct) {writes : List (StatePath × Value)}
    (hw : ∀ w ∈ writes, w.1.rest ≠ []) : Covers (Delta.setAll [] state writes) state :=
  ((covers_nil state).extend hd hw).1

theorem current_eq_get (h : Covers delta state) (p : StatePath) :
    current delta state p = (merge state delta).get p :=
  (h.tidyAt p.head).get_merge.symm

end Covers

/-- Collecting writes of at least two segments in a delta and merging it gives the tree that the writes
give directly, and after each of them every place reads as in that tree. -/
theorem merge_setAll_eq_setAll {state : Tree} (hd : state.Distinct)
    {writes : List (StatePath × Value)} (hw : ∀ w ∈ writes, w.1.rest ≠ []) :
    merge state (setAll [] state writes) = state.setAll writes ∧
      ∀ done, done <+: writes → ∀ p,
        current (setAll [] state done) state p = (state.setAll done).get p := by
  have hmerge : ∀ ws : List (StatePath × Value), (∀ w ∈ ws, w.1.rest ≠ []) →
      merge state (setAll [] state ws) = state.setAll ws := by
    intro ws hws
    induction ws using List.reverseRecOn with
    | nil => rfl
    | append_singleton ws w ih =>
      have hfront : ∀ u ∈ ws, u.1.rest ≠ [] := fun u hu => hws u (by simp [hu])
      rw [setAll_append, Tree.setAll_append,
        (Covers.setAll hd hfront).merge_set hd (hws w (by simp)), ih hfront]
  refine ⟨hmerge writes hw, fun done hdone p => ?_⟩
  have hdw : ∀ w ∈ done, w.1.rest ≠ [] := fun w hmem => hw w (hdone.subset hmem)
  rw [(Covers.setAll hd hdw).current_eq_get, hmerge done hdw]

def sampleState : Tree := [("resources", .mapping [("wood", .int 3)]), ("story", .int 1)]

def sampleWrites : List (StatePath × Value) :=
  [(⟨"story.seen.hut", "story", ["seen", "hut"]⟩, .bool true),
    (⟨"resources.wood", "resources", ["wood"]⟩, .int 5),
    (⟨"story.seen", "story", ["seen"]⟩, .int 2)]

theorem merge_setAll_sample :
    (merge sampleState (setAll [] sampleState sampleWrites) = sampleState.setAll sampleWrites ∧
      ∀ done, done <+: sampleWrites → ∀ p,
        current (setAll [] sampleState done) sampleState p = (sampleState.setAll done).get p) ∧
      sampleState.setAll sampleWrites =
        [("resources", .mapping [("wood", .int 5)]), ("story", .mapping [("seen", .int 2)])] :=
  ⟨merge_setAll_eq_setAll (Tree.distinct_of_forall_mem (by decide)) (by decide), by decide⟩

/-- The section that a delta has at `k`, if any, is a mapping. -/
def IsOpen (delta : Tree) (k : String) : Prop :=
  k ∈ OrderedMap.keys delta → ∃ es, delta.lookup k = .mapping es

theorem isOpen_set {delta : Tree} {q : StatePath} {k : String} (h : IsOpen delta k) (state : Tree)
    (v : Value) (hq : q.head = k → q.rest ≠ []) : IsOpen (set delta state q v) k := by
  intro hk
  by_cases hhead : q.head = k
  · rw [set_of_rest_ne_nil delta state (hq hhead), hhead, Tree.lookup_insert_self]
    exact ⟨_, rfl⟩
  · obtain ⟨x, hx⟩ := exists_set_eq_insert delta state q v
    rw [hx] at hk ⊢
    rw [Tree.lookup_insert_of_ne hhead]
    exact h ((OrderedMap.mem_keys_insert.mp hk).resolve_left fun he => hhead he.symm)

theorem rest_ne_nil_of_apart {p q : StatePath} (h : ¬ q.Comparable p) (hhead : q.head = p.head) :
    q.rest ≠ [] := by
  intro hrest
  apply h
  left
  simp [StatePath.keys, hrest, hhead]

@[simp] theorem current_set_self (delta state : Tree) (p : StatePath) (v : Value) :
    current (set delta state p v) state p = v := by
  obtain ⟨raw, head, rest⟩ := p
  cases rest with
  | nil => simp [current, set, OrderedMap.contains, Tree.get_eq_descend, Tree.lookup_insert_self]
  | cons k ks =>
    rw [set_of_rest_ne_nil delta state (List.cons_ne_nil k ks)]
    simp only [current, OrderedMap.contains, OrderedMap.get?_insert_self, Option.isSome_some, if_true,
      Tree.get_eq_descend, Tree.lookup_insert_self]
    exact Tree.descend_write_self _ _ (List.cons_ne_nil k ks)

theorem mem_keys_set {delta : Tree} {k : String} (h : k ∈ OrderedMap.keys delta) (state : Tree)
    (q : StatePath) (v : Value) : k ∈ OrderedMap.keys (set delta state q v) := by
  obtain ⟨x, hx⟩ := exists_set_eq_insert delta state q v
  rw [hx]
  exact OrderedMap.mem_keys_insert.mpr (Or.inr h)

theorem head_mem_keys_set (delta state : Tree) (q : StatePath) (v : Value) :
    q.head ∈ OrderedMap.keys (set delta state q v) := by
  obtain ⟨x, hx⟩ := exists_set_eq_insert delta state q v
  rw [hx]
  exact OrderedMap.mem_keys_insert.mpr (Or.inl rfl)

theorem head_mem_keys_setAll {delta state : Tree} {writes : List (StatePath × Value)}
    {w : StatePath × Value} (h : w ∈ writes) :
    w.1.head ∈ OrderedMap.keys (setAll delta state writes) := by
  -- a delta grows by its last write
  induction writes using List.reverseRecOn with
  | nil => cases h
  | append_singleton ws u ih =>
    rw [setAll_append]
    rcases List.mem_append.mp h with hbefore | hlast
    · exact mem_keys_set (ih hbefore) state u.1 u.2
    · cases List.mem_singleton.mp hlast
      exact head_mem_keys_set _ state w.1 w.2

theorem current_of_mem {delta : Tree} {p : StatePath} (h : p.head ∈ OrderedMap.keys delta)
    (state : Tree) : current delta state p = Tree.get delta p := by
  rw [current, if_pos ((OrderedMap.contains_iff_mem_keys _ _).mpr h)]

theorem current_set_of_apart {delta : Tree} {p q : StatePath} (hopen : IsOpen delta p.head)
    (state : Tree) (v : Value) (h : ¬ q.Comparable p) :
    current (set delta state q v) state p = current delta state p := by
  by_cases hhead : q.head = p.head
  · have hq := rest_ne_nil_of_apart h hhead
    have hp := rest_ne_nil_of_apart (StatePath.not_comparable_symm h) hhead.symm
    have hrest : ¬ q.rest <+: p.rest ∧ ¬ p.rest <+: q.rest := by
      constructor
      · exact fun hpre => h (Or.inl (by simpa [StatePath.keys, hhead] using hpre))
      · exact fun hpre => h (Or.inr (by simpa [StatePath.keys, hhead] using hpre))
    rw [set_of_rest_ne_nil delta state hq, hhead]
    simp only [current, OrderedMap.contains_iff_mem_keys, OrderedMap.mem_keys_insert, true_or, if_true,
      Tree.get_eq_descend, Tree.lookup_insert_self,
      Tree.descend_write_of_apart _ v hrest.1 hrest.2]
    split
    next hmem =>
      obtain ⟨es, hes⟩ := hopen hmem
      rw [base_of_mapping hes, hes]
    next hmem => rw [base_of_not_mem hmem, Value.descend_mapping_entries _ hp]
  · obtain ⟨x, hx⟩ := exists_set_eq_insert delta state q v
    have hne : p.head ≠ q.head := fun he => hhead he.symm
    rw [hx]
    simp only [current, OrderedMap.contains_iff_mem_keys, OrderedMap.mem_keys_insert, hne, false_or,
      Tree.get_eq_descend, Tree.lookup_insert_of_ne hhead]

/-- The writes of a delta have left the value `v` at a place. -/
structure Holds (delta state : Tree) (q : StatePath) (v : Value) : Prop where
  isOpen : IsOpen delta q.head
  absent : q.rest = [] → q.head ∉ OrderedMap.keys delta
  current_eq : current delta state q = v

variable {delta state : Tree} {p q : StatePath} {v : Value}

theorem holds_nil (state : Tree) (q : StatePath) : Holds [] state q (state.get q) :=
  ⟨by simp [IsOpen], by simp, rfl⟩

theorem Holds.set (h : Holds delta state q v) (w : Value) (hp : ¬ p.Comparable q) :
    Holds (Delta.set delta state p w) state q v := by
  refine ⟨isOpen_set h.isOpen state w (rest_ne_nil_of_apart hp), fun hrest hmem => ?_, ?_⟩
  · obtain ⟨x, hx⟩ := exists_set_eq_insert delta state p w
    rw [hx] at hmem
    rcases OrderedMap.mem_keys_insert.mp hmem with hhead | hkeys
    · exact rest_ne_nil_of_apart (StatePath.not_comparable_symm hp) hhead hrest
    · exact h.absent hrest hkeys
  · rw [current_set_of_apart h.isOpen state w hp, h.current_eq]

theorem holds_set_self (delta state : Tree) (hq : q.rest ≠ []) (v : Value) :
    Holds (Delta.set delta state q v) state q v := by
  refine ⟨fun _ => ?_, fun hrest => absurd hrest hq, current_set_self delta state q v⟩
  rw [set_of_rest_ne_nil delta state hq, Tree.lookup_insert_self]
  exact ⟨_, rfl⟩

theorem Holds.get_merge (h : Holds delta state q v) (ht : TidyAt delta state q.head) :
    (merge state delta).get q = v :=
  ht.get_merge.trans h.current_eq

theorem Holds.setAll (h : Holds delta state q v) {writes : List (StatePath × Value)}
    (hw : ∀ w ∈ writes, ¬ w.1.Comparable q) : Holds (Delta.setAll delta state writes) state q v := by
  induction writes generalizing delta with
  | nil => exact h
  | cons w rest ih =>
    obtain ⟨hfirst, hrest⟩ := List.forall_mem_cons.mp hw
    exact ih (h.set w.2 hfirst) hrest

/-- Writes that are apart from each other are all there in the end. -/
theorem holds_setAll {writes : List (StatePath × Value)} (hw : ∀ w ∈ writes, w.1.rest ≠ [])
    (hapart : writes.Pairwise fun w w' => ¬ w'.1.Comparable w.1) {w : StatePath × Value}
    (hmem : w ∈ writes) : Holds (Delta.setAll delta state writes) state w.1 w.2 := by
  induction writes generalizing delta with
  | nil => cases hmem
  | cons first rest ih =>
    obtain ⟨hfirst, hrest⟩ := List.forall_mem_cons.mp hw
    obtain ⟨hothers, hpairs⟩ := List.pairwise_cons.mp hapart
    rcases List.mem_cons.mp hmem with rfl | hlater
    · exact (holds_set_self delta state hfirst w.2).setAll hothers
    · exact ih hrest hpairs hlater

end Delta

end SurvivalRules
