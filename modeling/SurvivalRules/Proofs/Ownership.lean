import SurvivalRules.Proofs.Drawing
import SurvivalRules.Proofs.OrderedMap

/-!
# Owned items and standing buildings

Which building of a list is the last one built, and which buildings stand, said of the counts in the state. A
building stands if it is built and the chain that counts for it has no later one built.
-/
namespace SurvivalRules

section

variable {α : Type} {p : α → Prop} {l : List α} {a b : α}

/-- The last member of a list that has a property. -/
def IsLast (p : α → Prop) (l : List α) (a : α) : Prop :=
  ∃ front back, l = front ++ a :: back ∧ p a ∧ ∀ b ∈ back, ¬ p b

theorem not_isLast_nil : ¬ IsLast p [] a := by
  simp [IsLast]

theorem isLast_cons_iff : IsLast p (b :: l) a ↔ IsLast p l a ∨ (a = b ∧ p b ∧ ∀ c ∈ l, ¬ p c) := by
  constructor
  · rintro ⟨_ | ⟨c, front⟩, back, hl, ha, hback⟩
    · cases hl
      exact Or.inr ⟨rfl, ha, hback⟩
    · cases hl
      exact Or.inl ⟨front, back, rfl, ha, hback⟩
  · rintro (⟨front, back, rfl, ha, hback⟩ | ⟨rfl, ha, hrest⟩)
    · exact ⟨b :: front, back, rfl, ha, hback⟩
    · exact ⟨[], l, rfl, ha, hrest⟩

theorem IsLast.mem (h : IsLast p l a) : a ∈ l := by
  obtain ⟨front, back, rfl, -, -⟩ := h
  simp

theorem IsLast.prop (h : IsLast p l a) : p a := by
  obtain ⟨-, -, -, ha, -⟩ := h
  exact ha

theorem isLast_iff_getLast? [DecidablePred p] : IsLast p l a ↔ (l.filter p).getLast? = some a := by
  induction l with
  | nil => simp [not_isLast_nil]
  | cons b rest ih =>
    rw [isLast_cons_iff, ih]
    by_cases hrest : ∀ c ∈ rest, ¬ p c
    · have hnone : rest.filter p = [] := by simpa [List.filter_eq_nil_iff] using hrest
      by_cases hb : p b <;> simp +contextual [hnone, hb, hrest, eq_comm]
    · have hsome : rest.filter p ≠ [] := by simpa [List.filter_eq_nil_iff] using hrest
      by_cases hb : p b <;> simp [hb, hrest, List.getLast?_cons_of_ne_nil, hsome]

theorem IsLast.eq (h : IsLast p l a) (h' : IsLast p l b) : a = b := by
  classical
  rw [isLast_iff_getLast?] at h h'
  exact Option.some.inj (h.symm.trans h')

/-- Whatever else has the property is listed before the last one. -/
theorem IsLast.sublist (h : IsLast p l a) (hb : b ∈ l) (hprop : p b) (hne : b ≠ a) : [b, a].Sublist l := by
  obtain ⟨front, back, rfl, -, hback⟩ := h
  have hfront : b ∈ front := by
    rcases List.mem_append.mp hb with hfront | hrest
    · exact hfront
    · rcases List.mem_cons.mp hrest with he | hmem
      · exact absurd he hne
      · exact absurd hprop (hback b hmem)
  exact (List.singleton_sublist.mpr hfront).append (List.singleton_sublist.mpr List.mem_cons_self)

theorem exists_isLast_iff : (∃ a, IsLast p l a) ↔ ∃ a ∈ l, p a := by
  classical
  simp only [isLast_iff_getLast?, ← Option.isSome_iff_exists, List.getLast?_isSome]
  simp

/-- In a list without repetition, nothing with the property is listed after the last member that has it. -/
theorem isLast_iff_of_nodup (hl : l.Nodup) :
    IsLast p l a ↔ a ∈ l ∧ p a ∧ ∀ b, [a, b].Sublist l → ¬ p b := by
  constructor
  · rintro ⟨front, back, rfl, ha, hback⟩
    obtain ⟨-, hnodup, hapart⟩ := List.nodup_append.mp hl
    have hbehind : (front ++ a :: back).Pairwise fun x y => x = a → y ∈ back := by
      rw [List.pairwise_append, List.pairwise_cons]
      refine ⟨?_, ⟨fun y hy _ => hy, ?_⟩, ?_⟩
      · exact List.pairwise_of_forall_mem_list fun x hx y _ he => absurd he (hapart x hx a List.mem_cons_self)
      · exact List.pairwise_of_forall_mem_list fun x hx y _ he =>
          absurd (he ▸ hx) (List.nodup_cons.mp hnodup).1
      · exact fun x hx y _ he => absurd he (hapart x hx a List.mem_cons_self)
    exact ⟨by simp, ha, fun b hsub => hback b (List.pairwise_iff_forall_sublist.mp hbehind hsub rfl)⟩
  · rintro ⟨hmem, ha, hlater⟩
    obtain ⟨front, back, rfl⟩ := List.append_of_mem hmem
    refine ⟨front, back, rfl, ha, fun b hb => hlater b ?_⟩
    exact ((List.singleton_sublist.mpr hb).cons_cons a).trans (List.sublist_append_right front _)

theorem length_le_one_of_nodup (hl : l.Nodup) (h : ∀ a ∈ l, ∀ b ∈ l, a = b) : l.length ≤ 1 := by
  rcases l with _ | ⟨a, _ | ⟨b, rest⟩⟩
  · simp
  · simp
  · have he : a = b := h a (by simp) b (by simp)
    simp [he] at hl

end

namespace Content

variable {c : Content} {counts state : Tree} {key : String} {keys : List String}

theorem chainOf?_eq_none_iff :
    c.chainOf? key = none ↔ ∀ chain ∈ OrderedMap.values c.chains, key ∉ chain.tiers := by
  simp [chainOf?, List.find?_eq_none]

theorem mem_of_chainOf? {chain : BuildingChain} (h : c.chainOf? key = some chain) :
    chain ∈ OrderedMap.values c.chains ∧ key ∈ chain.tiers := by
  have hmem := List.mem_of_find?_eq_some h
  have htier := List.find?_some h
  exact ⟨List.mem_reverse.mp hmem, by simpa using htier⟩

/-- A building is built if its count is above zero. -/
def IsBuilt (counts : Tree) (key : String) : Prop := isBuilt counts key = .ok true

theorem isBuilt_or_not {built : Bool} (h : isBuilt counts key = .ok built) :
    built = true ↔ IsBuilt counts key := by
  cases built <;> simp [IsBuilt, h]

/-- The building that is found is the last one built, and none is found if none is built. -/
theorem lastBuilt_eq_some_iff {last : Option String} (h : lastBuilt counts keys = .ok last) :
    last = some key ↔ IsLast (IsBuilt counts) keys key := by
  induction keys generalizing last key with
  | nil =>
    cases h
    simp [not_isLast_nil]
  | cons first rest ih =>
    obtain ⟨built, hbuilt, h⟩ := bind_eq_ok_iff.mp h
    obtain ⟨later, hlater, hlast⟩ := bind_eq_ok_iff.mp h
    cases pure_eq_ok_iff.mp hlast
    have hfound (k : String) : later = some k ↔ IsLast (IsBuilt counts) rest k := ih hlater
    rw [isLast_cons_iff, ← isBuilt_or_not hbuilt, ← hfound]
    cases later with
    | some later =>
      obtain ⟨k, hk, hbuilt⟩ := exists_isLast_iff.mp ⟨later, (hfound later).mp rfl⟩
      have hnot : ¬ ∀ k ∈ rest, ¬ IsBuilt counts k := fun hnone => hnone k hk hbuilt
      simp [hnot]
    | none =>
      have hnone : ∀ k ∈ rest, ¬ IsBuilt counts k := by
        intro k hk hbuilt
        obtain ⟨later, hlater⟩ := exists_isLast_iff.mpr ⟨k, hk, hbuilt⟩
        cases (hfound later).mpr hlater
      rw [and_iff_left hnone]
      cases built <;> simp [eq_comm]

theorem exists_lastBuilt (h : ∀ key, ∃ built, isBuilt counts key = .ok built) (keys : List String) :
    ∃ last, lastBuilt counts keys = .ok last := by
  induction keys with
  | nil => exact ⟨none, rfl⟩
  | cons key rest ih =>
    obtain ⟨built, hbuilt⟩ := h key
    obtain ⟨later, hlater⟩ := ih
    exact ⟨_, bind_eq_ok_iff.mpr ⟨built, hbuilt, bind_eq_ok_iff.mpr ⟨later, hlater, rfl⟩⟩⟩

/-- A building stands if it is built and is the last one built of the chain that counts for it. -/
theorem stands_eq_true_iff {stands : Bool} (h : c.stands counts key = .ok stands) :
    stands = true ↔ IsBuilt counts key ∧
      ∀ chain, c.chainOf? key = some chain → IsLast (IsBuilt counts) chain.tiers key := by
  obtain ⟨built, hbuilt, h⟩ := bind_eq_ok_iff.mp h
  rw [← isBuilt_or_not hbuilt]
  cases built with
  | false =>
    cases pure_eq_ok_iff.mp h
    simp
  | true =>
    cases hchain : c.chainOf? key with
    | none =>
      simp only [hchain] at h
      cases pure_eq_ok_iff.mp h
      simp
    | some chain =>
      simp only [hchain] at h
      obtain ⟨last, hlast, h⟩ := bind_eq_ok_iff.mp h
      cases pure_eq_ok_iff.mp h
      simp [lastBuilt_eq_some_iff hlast]

/-- The chain that counts for a built building has a last one built. -/
theorem exists_best_of_stands {stands : Bool} {chain : BuildingChain} (h : c.stands counts key = .ok stands)
    (hbuilt : IsBuilt counts key) (hchain : c.chainOf? key = some chain) :
    ∃ best, lastBuilt counts chain.tiers = .ok (some best) := by
  obtain ⟨built, hcount, h⟩ := bind_eq_ok_iff.mp h
  obtain rfl : built = true := (isBuilt_or_not hcount).mpr hbuilt
  simp only [hchain] at h
  obtain ⟨last, hlast, -⟩ := bind_eq_ok_iff.mp h
  obtain ⟨best, hbest⟩ := exists_isLast_iff.mpr ⟨key, (mem_of_chainOf? hchain).2, hbuilt⟩
  exact ⟨best, by rw [hlast, (lastBuilt_eq_some_iff hlast).mpr hbest]⟩

theorem exists_stands (h : ∀ key, ∃ built, isBuilt counts key = .ok built) (key : String) :
    ∃ stands, c.stands counts key = .ok stands := by
  obtain ⟨built, hbuilt⟩ := h key
  simp only [stands, hbuilt, bind, Except.bind]
  split
  · exact ⟨_, rfl⟩
  · split
    · exact ⟨_, rfl⟩
    next chain _ =>
      obtain ⟨last, hlast⟩ := exists_lastBuilt h chain.tiers
      exact ⟨_, by rw [hlast]; rfl⟩

section Standing

variable {raised : List (String × Action × TieredPlan)} {standing : List (String × Action)}

theorem exists_standingAmong (h : ∀ key, ∃ built, isBuilt counts key = .ok built)
    (raised : List (String × Action × TieredPlan)) : ∃ standing, c.standingAmong counts raised = .ok standing := by
  induction raised with
  | nil => exact ⟨[], rfl⟩
  | cons e rest ih =>
    obtain ⟨stands, hstands⟩ := exists_stands (c := c) h e.1
    obtain ⟨more, hmore⟩ := ih
    exact ⟨_, bind_eq_ok_iff.mpr ⟨stands, hstands, bind_eq_ok_iff.mpr ⟨more, hmore, rfl⟩⟩⟩

/-- What stands is found in the order in which it is looked for. -/
theorem sublist_of_standingAmong (h : c.standingAmong counts raised = .ok standing) :
    standing.Sublist (raised.map fun e => (e.1, e.2.1)) := by
  induction raised generalizing standing with
  | nil =>
    cases h
    exact List.Sublist.refl []
  | cons e rest ih =>
    obtain ⟨stands, -, h⟩ := bind_eq_ok_iff.mp h
    obtain ⟨more, hmore, hlast⟩ := bind_eq_ok_iff.mp h
    cases pure_eq_ok_iff.mp hlast
    split
    · exact (ih hmore).cons_cons _
    · exact (ih hmore).cons _

theorem exists_stands_of_standingAmong (h : c.standingAmong counts raised = .ok standing)
    (hkey : key ∈ OrderedMap.keys raised) : ∃ stands, c.stands counts key = .ok stands := by
  induction raised generalizing standing with
  | nil => cases hkey
  | cons e rest ih =>
    obtain ⟨stands, hstands, h⟩ := bind_eq_ok_iff.mp h
    obtain ⟨more, hmore, -⟩ := bind_eq_ok_iff.mp h
    rcases List.mem_cons.mp hkey with rfl | hrest
    · exact ⟨stands, hstands⟩
    · exact ih hmore hrest

theorem mem_of_standingAmong (h : c.standingAmong counts raised = .ok standing) {b : String × Action}
    (hb : b ∈ standing) : ∃ p, (b.1, b.2, p) ∈ raised := by
  obtain ⟨e, he, rfl⟩ := List.mem_map.mp ((sublist_of_standingAmong h).subset hb)
  exact ⟨e.2.2, he⟩

/-- The keys that stand, among those that are looked for. -/
theorem mem_keys_of_standingAmong_iff (h : c.standingAmong counts raised = .ok standing) :
    key ∈ OrderedMap.keys standing ↔ key ∈ OrderedMap.keys raised ∧ IsBuilt counts key ∧
      ∀ chain, c.chainOf? key = some chain → IsLast (IsBuilt counts) chain.tiers key := by
  induction raised generalizing standing with
  | nil =>
    cases h
    simp
  | cons e rest ih =>
    obtain ⟨first, a, p⟩ := e
    obtain ⟨stands, hstands, h⟩ := bind_eq_ok_iff.mp h
    obtain ⟨more, hmore, hlast⟩ := bind_eq_ok_iff.mp h
    cases pure_eq_ok_iff.mp hlast
    have hfirst := stands_eq_true_iff hstands
    rw [OrderedMap.keys_cons, List.mem_cons, or_and_right, ← ih hmore]
    by_cases hkey : key = first
    · subst hkey
      rw [← hfirst]
      cases stands <;> simp [ih hmore, ← hfirst]
    · cases stands <;> simp [hkey]

end Standing

/-- A building is built by its count in a state. -/
def IsBuiltIn (state : Tree) (key : String) : Prop := IsBuilt (state.lookup Section.buildings.name).entries key

theorem mem_keys_standing_iff {standing : List (String × Action)}
    (h : c.standingBuildings state = .ok standing) :
    key ∈ OrderedMap.keys standing ↔ key ∈ OrderedMap.keys c.buildingActions ∧ IsBuiltIn state key ∧
      ∀ chain, c.chainOf? key = some chain → IsLast (IsBuiltIn state) chain.tiers key :=
  mem_keys_of_standingAmong_iff h

theorem nodup_keys_standing {standing : List (String × Action)}
    (h : c.standingBuildings state = .ok standing) : (OrderedMap.keys standing).Nodup := by
  have hkeys : (OrderedMap.keys standing).Sublist (OrderedMap.keys c.buildingActions) := by
    simpa [OrderedMap.keys, Function.comp_def] using (sublist_of_standingAmong h).map Prod.fst
  exact hkeys.nodup (OrderedMap.nodup_keys_ofList _)

/-- The state in which each of the given buildings has been built once. -/
def oneOfEach (keys : List String) : Tree :=
  [(Section.buildings.name, .mapping (keys.map fun key => (key, .int 1)))]

theorem get?_oneOfEach (keys : List String) (key : String) :
    OrderedMap.get? key ((oneOfEach keys).lookup Section.buildings.name).entries =
      if key ∈ keys then some (.int 1) else none := by
  change OrderedMap.get? key (keys.map fun key => (key, Value.int 1)) = _
  induction keys with
  | nil => rfl
  | cons first rest ih => by_cases hfirst : first = key <;> simp [OrderedMap.get?, hfirst, ih, Ne.symm]

theorem isBuilt_oneOfEach (keys : List String) (key : String) :
    isBuilt ((oneOfEach keys).lookup Section.buildings.name).entries key = .ok (decide (key ∈ keys)) := by
  have hcount : ∀ n : ℤ, n = 0 ∨ n = 1 → (do
      let x ← (Value.int n).toNumber
      return Amount.zero.lt (.float x) : Except Fault Bool) = .ok (decide (n = 1)) := by
    rintro n (rfl | rfl) <;> decide +kernel
  rw [isBuilt, get?_oneOfEach]
  by_cases hmem : key ∈ keys
  · simpa [hmem] using hcount 1 (Or.inr rfl)
  · simpa [hmem] using hcount 0 (Or.inl rfl)

theorem isBuiltIn_oneOfEach_iff : IsBuiltIn (oneOfEach keys) key ↔ key ∈ keys := by
  simp [IsBuiltIn, IsBuilt, isBuilt_oneOfEach]

theorem exists_standing_oneOfEach (c : Content) (keys : List String) :
    ∃ standing, c.standingBuildings (oneOfEach keys) = .ok standing :=
  exists_standingAmong (fun key => ⟨_, isBuilt_oneOfEach keys key⟩) c.buildingActions

/-- A building that alone is built stands alone. -/
theorem standingBuildings_oneOfEach {e : String × Action × TieredPlan} (he : e ∈ c.buildingActions) :
    c.standingBuildings (oneOfEach [e.1]) = .ok [(e.1, e.2.1)] := by
  obtain ⟨standing, hstanding⟩ := exists_standing_oneOfEach c [e.1]
  have hbuilt : ∀ key, IsBuiltIn (oneOfEach [e.1]) key ↔ key = e.1 := by
    simp [isBuiltIn_oneOfEach_iff]
  have hstands : e.1 ∈ OrderedMap.keys standing := by
    refine (mem_keys_standing_iff hstanding).mpr
      ⟨List.mem_map_of_mem he, (hbuilt e.1).mpr rfl, fun chain hchain => ?_⟩
    obtain ⟨last, hlast⟩ := exists_isLast_iff.mpr ⟨e.1, (mem_of_chainOf? hchain).2, (hbuilt e.1).mpr rfl⟩
    exact (hbuilt last).mp hlast.prop ▸ hlast
  have honly : ∀ b ∈ standing, b = (e.1, e.2.1) := by
    intro b hb
    obtain ⟨p, hp⟩ := mem_of_standingAmong hstanding hb
    have hkey : b.1 = e.1 := (hbuilt b.1).mp ((mem_keys_standing_iff hstanding).mp (List.mem_map_of_mem hb)).2.1
    have hnodup : (OrderedMap.keys c.buildingActions).Nodup := OrderedMap.nodup_keys_ofList _
    have hget := OrderedMap.get?_of_mem hnodup hp
    rw [hkey, OrderedMap.get?_of_mem hnodup he] at hget
    exact Prod.ext hkey (congrArg Prod.fst (Option.some.inj hget)).symm
  have hlength := length_le_one_of_nodup (nodup_keys_standing hstanding).of_map
    fun a ha b hb => (honly a ha).trans (honly b hb).symm
  rcases standing with _ | ⟨b, _ | ⟨b', rest⟩⟩
  · cases hstands
  · rw [hstanding, honly b List.mem_cons_self]
  · simp at hlength

theorem mem_values_of_mem_buildingActions {e : String × Action × TieredPlan} (h : e ∈ c.buildingActions) :
    e.2.1 ∈ OrderedMap.values c.actions := by
  have hraised := (OrderedMap.mem_overlay h).resolve_left (by simp)
  obtain ⟨a, ha, hplan⟩ := List.mem_filterMap.mp hraised
  obtain ⟨p, -, rfl⟩ := Option.map_eq_some_iff.mp hplan
  exact ha

theorem item_mem_values_of_mem_ownedItems {i : Item} (h : i ∈ c.ownedItems state) :
    i ∈ OrderedMap.values c.items := by
  obtain ⟨slot, -, hslot⟩ := List.mem_flatMap.mp h
  obtain ⟨e, -, he⟩ := List.mem_filterMap.mp hslot
  split at he
  · obtain ⟨hitem, -⟩ := Option.filter_eq_some_iff.mp he
    exact List.mem_map_of_mem (OrderedMap.mem_of_get? hitem)
  · cases he

end Content

end SurvivalRules
