import SurvivalRules.Proofs.State.Delta

/-!
# Sections with entries of one kind

A section whose entries are all of one kind stays one while a delta is collected, as long as every write into
it is a single name with a value of that kind. Names that are there stay there.
-/
namespace SurvivalRules

/-- The section is a mapping that names each entry once, and every entry is as `P` says. -/
structure Tree.HoldsOnly (t : Tree) (k : String) (P : String → Value → Prop) : Prop where
  mapping : ∃ es, t.lookup k = .mapping es
  distinct : t.DistinctAt k
  entries : ∀ e ∈ (t.lookup k).entries, P e.1 e.2

namespace Tree.HoldsOnly

variable {t u : Tree} {k name : String} {P Q : String → Value → Prop} {q : StatePath}

theorem lookup_eq (h : t.HoldsOnly k P) : t.lookup k = .mapping (t.lookup k).entries := by
  obtain ⟨es, hes⟩ := h.mapping
  rw [hes]
  rfl

theorem section?_eq (h : t.HoldsOnly k P) : t.section? k = .ok (t.lookup k).entries :=
  Tree.section?_of_lookup h.lookup_eq

theorem imp (h : t.HoldsOnly k P) (hPQ : ∀ e ∈ (t.lookup k).entries, P e.1 e.2 → Q e.1 e.2) :
    t.HoldsOnly k Q :=
  ⟨h.mapping, h.distinct, fun e he => hPQ e he (h.entries e he)⟩

theorem congr (h : t.HoldsOnly k P) (hlook : u.lookup k = t.lookup k) : u.HoldsOnly k P := by
  refine ⟨?_, ?_, ?_⟩
  · rw [hlook]
    exact h.mapping
  · unfold DistinctAt
    rw [hlook]
    exact h.distinct
  · rw [hlook]
    exact h.entries

theorem of_lookup {es : Tree} (hlook : t.lookup k = .mapping es) (hnodup : (OrderedMap.keys es).Nodup)
    (hes : ∀ e ∈ es, P e.1 e.2) : t.HoldsOnly k P := by
  refine ⟨⟨es, hlook⟩, ?_, ?_⟩
  · unfold DistinctAt
    rw [hlook]
    exact hnodup
  · rw [hlook]
    exact hes

/-- A name that the section does not have reads as null. -/
theorem entry (h : t.HoldsOnly k P) (name : String) :
    Tree.lookup (t.lookup k).entries name = .null ∨ P name (Tree.lookup (t.lookup k).entries name) := by
  unfold Tree.lookup
  cases hget : OrderedMap.get? name (OrderedMap.get? k t |>.getD .null).entries with
  | none => exact Or.inl rfl
  | some v => exact Or.inr (h.entries (name, v) (OrderedMap.mem_of_get? hget))

theorem get (h : t.HoldsOnly k P) (hhead : q.head = k) (hrest : q.rest = [name]) :
    t.get q = .null ∨ P name (t.get q) := by
  rw [Tree.get_cons hrest, hhead, Value.descend_nil]
  exact h.entry name

end Tree.HoldsOnly

namespace Delta

/-- The section of the merged state holds only entries of one kind. -/
structure Carries (delta state : Tree) (k : String) (P : String → Value → Prop) : Prop where
  tidy : TidyAt delta state k
  merged : (merge state delta).HoldsOnly k P

variable {delta state : Tree} {k name : String} {P Q : String → Value → Prop} {q : StatePath} {v : Value}

theorem carries_nil (h : state.HoldsOnly k P) : Carries [] state k P := ⟨tidyAt_nil state k, h⟩

namespace Carries

theorem imp (h : Carries delta state k P)
    (hPQ : ∀ e ∈ ((merge state delta).lookup k).entries, P e.1 e.2 → Q e.1 e.2) : Carries delta state k Q :=
  ⟨h.tidy, h.merged.imp hPQ⟩

theorem base_eq (h : Carries delta state k P) :
    base delta state k = ((merge state delta).lookup k).entries := by
  obtain ⟨es, hes⟩ := h.merged.mapping
  have hlook := h.tidy.lookup_merge
  split at hlook
  next =>
    rw [hes]
    exact base_of_mapping (hlook.symm.trans hes) state
  next hk =>
    rw [hlook]
    exact base_of_not_mem hk state

/-- A write into another section, or into this one as a whole, is a new section of the delta. -/
theorem insert (h : Carries delta state k P) {j : String} {w : Value}
    (hw : j = k → ∃ es, w = .mapping es ∧ (OrderedMap.keys es).Nodup ∧
      OrderedMap.keys (state.lookup k).entries <+: OrderedMap.keys es ∧ ∀ e ∈ es, Q e.1 e.2)
    (hPQ : j ≠ k → ∀ e ∈ ((merge state delta).lookup k).entries, P e.1 e.2 → Q e.1 e.2) :
    Carries (OrderedMap.insert j w delta) state k Q := by
  have htidy : TidyAt (OrderedMap.insert j w delta) state k := by
    refine h.tidy.insert fun hjk es' hes' => ?_
    obtain ⟨es, rfl, hnodup, hprefix, -⟩ := hw hjk
    cases hes'
    exact ⟨hnodup, hprefix⟩
  refine ⟨htidy, ?_⟩
  by_cases hjk : j = k
  · obtain ⟨es, rfl, hnodup, -, hes⟩ := hw hjk
    subst hjk
    have hmem := (OrderedMap.mem_keys_insert (m := delta) (a := Value.mapping es)).mpr (Or.inl (rfl : j = j))
    have hlook := htidy.lookup_merge
    rw [if_pos hmem, Tree.lookup_insert_self] at hlook
    exact .of_lookup hlook hnodup hes
  · refine (h.merged.imp (hPQ hjk)).congr ?_
    rw [htidy.lookup_merge, h.tidy.lookup_merge, Tree.lookup_insert_of_ne hjk]
    simp only [OrderedMap.mem_keys_insert, Ne.symm hjk, false_or]

theorem set_of_head_ne (h : Carries delta state k P) (hne : q.head ≠ k) (v : Value) :
    Carries (set delta state q v) state k P := by
  obtain ⟨w, hw⟩ := exists_set_eq_insert delta state q v
  rw [hw]
  exact h.insert (fun he => absurd he hne) fun _ _ _ he => he

theorem set (h : Carries delta state k P) (hd : state.DistinctAt k) (hhead : q.head = k)
    (hrest : q.rest = [name]) (hv : P name v) : Carries (set delta state q v) state k P := by
  have hbase := h.tidy.base_spec hd
  rw [set_of_rest_ne_nil delta state (by simp [hrest]), hrest, hhead]
  refine h.insert (fun _ => ⟨_, rfl, Tree.nodup_keys_write hbase.1 v _,
    hbase.2.trans (Tree.keys_prefix_write _ v _), fun e he => ?_⟩) fun hne => absurd rfl hne
  rcases OrderedMap.mem_insert he with rfl | hmem
  · exact hv
  · rw [h.base_eq] at hmem
    exact h.merged.entries e hmem

/-- While the delta is collected, a place of the section reads as null or as one of its kind. -/
theorem current (h : Carries delta state k P) (hhead : q.head = k) (hrest : q.rest = [name]) :
    current delta state q = .null ∨ P name (current delta state q) := by
  rw [← TidyAt.get_merge (hhead ▸ h.tidy)]
  exact h.merged.get hhead hrest

theorem entries_delta (h : Carries delta state k P) : ∀ e ∈ (delta.lookup k).entries, P e.1 e.2 := by
  intro e he
  cases hlook : delta.lookup k with
  | mapping es =>
    have hbase := h.base_eq
    rw [base_of_mapping hlook state] at hbase
    rw [hlook] at he
    exact h.merged.entries e (hbase ▸ he)
  | _ => rw [hlook] at he; cases he

/-- Names that the state has in the section are not lost. -/
theorem mem_keys (h : Carries delta state k P) (hd : state.DistinctAt k)
    (hmem : name ∈ OrderedMap.keys (state.lookup k).entries) :
    name ∈ OrderedMap.keys ((merge state delta).lookup k).entries := by
  rw [← h.base_eq]
  exact (h.tidy.base_spec hd).2.subset hmem

end Carries

end Delta

end SurvivalRules
