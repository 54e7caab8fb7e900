import SurvivalRules.Proofs.Resolve.Scaling
import SurvivalRules.Store

/-!
# What a commit does to each section

The store adds to a resolution that the action was seen and how long it cools down, lays the delta over the
state and clamps the resources. A section that none of these writes is as the effects leave it, or as it was.
-/
namespace SurvivalRules.Store

variable {s next : Store} {id : String} {cooldown : Binary64} {state delta delta' : Tree}

theorem record_eq_ok_iff {path : String} {v : Value} :
    record delta state path v = .ok delta' ↔
      ∃ q, StatePath.parse path = .ok q ∧ delta' = Delta.set delta state q v := by
  unfold record
  cases StatePath.parse path with
  | error cause => simp
  | ok q => simp [eq_comm]

theorem recordAll_induction {motive : Tree → Prop} {writes : List (String × Value)}
    (hstep : ∀ w ∈ writes, ∀ q, StatePath.parse w.1 = .ok q → ∀ delta, motive delta →
      motive (Delta.set delta state q w.2))
    (h : recordAll state delta writes = .ok delta') (hdelta : motive delta) : motive delta' := by
  induction writes generalizing delta with
  | nil =>
    cases h
    exact hdelta
  | cons w rest ih =>
    obtain ⟨delta₁, hfirst, hrest⟩ := bind_eq_ok_iff.mp h
    obtain ⟨q, hq, rfl⟩ := record_eq_ok_iff.mp hfirst
    exact ih (fun u hu => hstep u (List.mem_cons_of_mem w hu)) hrest
      (hstep w List.mem_cons_self q hq delta hdelta)

theorem seen_path (key : String) :
    "story.seen." ++ key = Section.story.name ++ "." ++ ("seen." ++ key) := by
  rw [← String.append_assoc]
  rfl

theorem cooldowns_path (id : String) : "cooldowns." ++ id = Section.cooldowns.name ++ "." ++ id := rfl

theorem cooldownDurations_path (id : String) :
    "cooldownDurations." ++ id = Section.cooldownDurations.name ++ "." ++ id := rfl

/-- The bookkeeping writes below the story, and below the two sections of cooldowns if there is one. -/
theorem bookkeeping_spec {w : String × Value} {q : StatePath} (hw : w ∈ bookkeeping id cooldown)
    (hq : StatePath.parse w.1 = .ok q) :
    q.rest ≠ [] ∧ (q.head = Section.story.name ∨ Amount.zero.lt (.float cooldown) = true ∧
      (q.head = Section.cooldowns.name ∨ q.head = Section.cooldownDurations.name) ∧
      q.rest = (StatePath.segments id).map String.ofList) := by
  have hcases : w.1 = "story.seen." ++ seenKey id ∨ Amount.zero.lt (.float cooldown) = true ∧
      (w.1 = "cooldowns." ++ id ∨ w.1 = "cooldownDurations." ++ id) := by
    unfold bookkeeping at hw
    split at hw
    next hlt =>
      rcases List.mem_cons.mp hw with rfl | hw
      · exact Or.inl rfl
      · rcases List.mem_pair.mp hw with rfl | rfl
        · exact Or.inr ⟨hlt, Or.inl rfl⟩
        · exact Or.inr ⟨hlt, Or.inr rfl⟩
    next => exact Or.inl (by simp_all)
  rcases hcases with he | ⟨hlt, he | he⟩
  · rw [he, seen_path] at hq
    exact ⟨StatePath.rest_ne_nil_of_parse_append (by decide) hq,
      Or.inl (StatePath.keys_of_parse_append (by decide) hq).1⟩
  · rw [he, cooldowns_path] at hq
    have hkeys := StatePath.keys_of_parse_append (by decide) hq
    exact ⟨StatePath.rest_ne_nil_of_parse_append (by decide) hq,
      Or.inr ⟨hlt, Or.inl hkeys.1, hkeys.2⟩⟩
  · rw [he, cooldownDurations_path] at hq
    have hkeys := StatePath.keys_of_parse_append (by decide) hq
    exact ⟨StatePath.rest_ne_nil_of_parse_append (by decide) hq,
      Or.inr ⟨hlt, Or.inr hkeys.1, hkeys.2⟩⟩

theorem tidyAt_bookkeeping {k : String} (hd : state.DistinctAt k) (ht : Delta.TidyAt delta state k)
    (h : recordAll state delta (bookkeeping id cooldown) = .ok delta') : Delta.TidyAt delta' state k := by
  refine recordAll_induction (motive := fun delta => Delta.TidyAt delta state k) ?_ h ht
  exact fun w hw q hq delta hdelta => hdelta.set hd (Or.inl (bookkeeping_spec hw hq).1)

theorem tidy_bookkeeping (hd : state.Distinct) (ht : Delta.Tidy delta state)
    (h : recordAll state delta (bookkeeping id cooldown) = .ok delta') : Delta.Tidy delta' state :=
  Delta.tidy_iff.mpr fun k => tidyAt_bookkeeping (hd k) (ht.tidyAt k) h

/-- Two deltas with the same section at `k`, or both without. -/
def SameSection (k : String) (delta delta' : Tree) : Prop :=
  delta'.lookup k = delta.lookup k ∧ (k ∈ OrderedMap.keys delta' ↔ k ∈ OrderedMap.keys delta)

theorem sameSection_set {q : StatePath} {k : String} (hne : q.head ≠ k) (state delta : Tree) (v : Value) :
    SameSection k delta (Delta.set delta state q v) := by
  obtain ⟨x, hx⟩ := Delta.exists_set_eq_insert delta state q v
  have hne' : k ≠ q.head := fun he => hne he.symm
  rw [hx]
  exact ⟨Tree.lookup_insert_of_ne hne delta x, by simp [OrderedMap.mem_keys_insert, hne']⟩

theorem sameSection_bookkeeping {k : String} (hstory : k ≠ Section.story.name)
    (hcooling : Amount.zero.lt (.float cooldown) = true →
      k ≠ Section.cooldowns.name ∧ k ≠ Section.cooldownDurations.name)
    (h : recordAll state delta (bookkeeping id cooldown) = .ok delta') :
    SameSection k delta delta' := by
  refine recordAll_induction (motive := SameSection k delta) ?_ h ⟨rfl, Iff.rfl⟩
  intro w hw q hq delta₁ hsame
  have hne : q.head ≠ k := by
    rcases (bookkeeping_spec hw hq).2 with he | ⟨hlt, he | he, -⟩
    · exact fun hk => hstory (hk ▸ he)
    · exact fun hk => (hcooling hlt).1 (hk ▸ he)
    · exact fun hk => (hcooling hlt).2 (hk ▸ he)
  have hstep := sameSection_set hne state delta₁ w.2
  exact ⟨hstep.1.trans hsame.1, hstep.2.trans hsame.2⟩

theorem lookup_clampResources_of_ne {k : String} (hk : k ≠ Section.resources.name) (state : Tree) :
    (clampResources state).lookup k = state.lookup k := by
  unfold clampResources
  split
  · exact Tree.lookup_insert_of_ne (Ne.symm hk) state _
  · rfl

theorem entries_lookup_clampResources (state : Tree) (k : String) :
    OrderedMap.keys ((clampResources state).lookup k).entries =
      OrderedMap.keys (state.lookup k).entries := by
  by_cases hk : k = Section.resources.name
  · subst hk
    unfold clampResources
    split
    next held hheld => simp [Tree.lookup_insert_self, hheld, Value.entries]
    next => rfl
  · rw [lookup_clampResources_of_ne hk]

theorem lookup_committed (ht : Delta.Tidy delta state) {k : String} (hk : k ≠ Section.resources.name) :
    (committed state delta).lookup k =
      if k ∈ OrderedMap.keys delta then delta.lookup k else state.lookup k := by
  rw [committed, lookup_clampResources_of_ne hk, ht.lookup_merge]

theorem distinctAt_committed {k : String} (ht : Delta.TidyAt delta state k) (hd : state.DistinctAt k) :
    (committed state delta).DistinctAt k := by
  unfold Tree.DistinctAt
  rw [committed, entries_lookup_clampResources]
  exact ht.distinctAt_merge hd

theorem distinct_committed (ht : Delta.Tidy delta state) (hd : state.Distinct) :
    (committed state delta).Distinct :=
  fun k => distinctAt_committed (ht.tidyAt k) (hd k)

theorem exists_delta_of_commit {r : Resolution} (h : s.commit id cooldown r = .ok next) :
    ∃ delta, recordAll s.state r.delta (bookkeeping id cooldown) = .ok delta ∧
      next.state = committed s.state delta ∧ next.content = s.content := by
  obtain ⟨delta, hdelta, hlast⟩ := bind_eq_ok_iff.mp h
  cases pure_eq_ok_iff.mp hlast
  exact ⟨delta, hdelta, rfl, rfl⟩

end SurvivalRules.Store
