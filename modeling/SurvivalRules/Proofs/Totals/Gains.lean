import SurvivalRules.Proofs.Totals.Granted

/-!
# What actions gain by bonuses

Gains that are whole numbers add up without loss. What an action gains of a resource by the bonuses of a state is
the sum over all entries that name the action, by its id or by its category, and every entry is counted once.
-/
namespace SurvivalRules

/-- The whole number that an amount is; other amounts count as zero. -/
def Amount.toWhole : Amount → ℤ
  | .int n => n
  | .float _ => 0

theorem Amount.IsWhole.eq_int {a : Amount} (h : a.IsWhole) : a = .int a.toWhole := by
  obtain ⟨n, rfl⟩ := h
  rfl

instance (a : Amount) : Decidable a.IsWhole :=
  decidable_of_iff (a = .int a.toWhole) ⟨fun h => ⟨_, h⟩, fun h => h.eq_int⟩

instance (b : Bonus) : Decidable b.HasWholeGains :=
  inferInstanceAs (Decidable (∀ e ∈ b.resourceBonus, e.2.IsWhole))

namespace Bonus

/-- The whole number counted under a name; a name that is not listed counts zero. -/
def counted (counters : OrderedMap String Amount) (name : String) : ℤ :=
  ((OrderedMap.get? name counters).getD .zero).toWhole

/-- How much of a resource a bonus adds to a random gain. -/
def gain (b : Bonus) (resource : String) : ℤ := counted b.resourceBonus resource

section

variable {counters gains : OrderedMap String Amount} {name other : String}

theorem getD_eq_counted (h : ∀ e ∈ counters, e.2.IsWhole) (name : String) :
    (OrderedMap.get? name counters).getD .zero = .int (counted counters name) := by
  refine Amount.IsWhole.eq_int ?_
  cases hget : OrderedMap.get? name counters with
  | none => exact Amount.isWhole_zero
  | some a => exact h (name, a) (OrderedMap.mem_of_get? hget)

theorem counted_of_not_mem (h : name ∉ OrderedMap.keys counters) : counted counters name = 0 := by
  rw [counted, OrderedMap.get?_eq_none_iff.mpr h]
  rfl

theorem counted_insert (n : ℤ) : counted (OrderedMap.insert name (.int n) counters) other =
    if name = other then n else counted counters other := by
  unfold counted
  rw [OrderedMap.get?_insert]
  split <;> rfl

theorem counted_cons (n : ℤ) : counted ((name, .int n) :: counters) other =
    if name = other then n else counted counters other := by
  unfold counted
  rw [OrderedMap.get?]
  split <;> rfl

/-- Whole gains are added name by name. -/
theorem exists_addAll_counted (hcounters : ∀ e ∈ counters, e.2.IsWhole) (hgains : ∀ e ∈ gains, e.2.IsWhole)
    (hdistinct : (OrderedMap.keys gains).Nodup) : ∃ out, addAll counters gains = .ok out ∧
      (∀ name, counted out name = counted counters name + counted gains name) ∧
      ∀ name, name ∈ OrderedMap.keys out ↔ name ∈ OrderedMap.keys counters ∨ name ∈ OrderedMap.keys gains := by
  induction gains generalizing counters with
  | nil => exact ⟨counters, rfl, by simp [counted_of_not_mem], by simp⟩
  | cons e rest ih =>
    obtain ⟨first, a⟩ := e
    obtain ⟨⟨n, rfl⟩, hrest⟩ := List.forall_mem_cons.mp hgains
    obtain ⟨hnew, hdistinct⟩ := List.nodup_cons.mp hdistinct
    have hadd : addTo counters first (.int n) =
        .ok (OrderedMap.insert first (.int (counted counters first + n)) counters) := by
      rw [addTo, getD_eq_counted hcounters]
      rfl
    have hwhole : ∀ e ∈ OrderedMap.insert first (.int (counted counters first + n)) counters, e.2.IsWhole := by
      intro e he
      rcases OrderedMap.mem_insert he with rfl | hmem
      · exact ⟨_, rfl⟩
      · exact hcounters e hmem
    obtain ⟨out, hout, hcounted, hkeys⟩ := ih hwhole hrest hdistinct
    refine ⟨out, bind_eq_ok_iff.mpr ⟨_, hadd, hout⟩, fun name => ?_, fun name => ?_⟩
    · rw [hcounted, counted_insert, counted_cons]
      by_cases hname : first = name
      · subst hname
        simp [counted_of_not_mem hnew]
      · simp [hname]
    · rw [hkeys, OrderedMap.mem_keys_insert, OrderedMap.keys_cons, List.mem_cons]
      tauto

theorem nodup_keys_of_addAll {out : OrderedMap String Amount} (hcounters : (OrderedMap.keys counters).Nodup)
    (h : addAll counters gains = .ok out) : (OrderedMap.keys out).Nodup := by
  induction gains generalizing counters with
  | nil =>
    cases h
    exact hcounters
  | cons e rest ih =>
    obtain ⟨counters₁, hadd, hrest⟩ := bind_eq_ok_iff.mp h
    obtain ⟨total, -, hlast⟩ := bind_eq_ok_iff.mp hadd
    cases pure_eq_ok_iff.mp hlast
    exact ih (OrderedMap.nodup_keys_insert hcounters _ _) hrest

end

/-- A bonus whose gains are those of a list of bonuses, added up name by name. -/
structure IsSum (bs : List Bonus) (b : Bonus) : Prop where
  whole : b.HasWholeGains
  distinct : (OrderedMap.keys b.resourceBonus).Nodup
  gain_eq : ∀ r, b.gain r = (bs.map (·.gain r)).sum
  mem_keys_iff : ∀ r, r ∈ OrderedMap.keys b.resourceBonus ↔ ∃ part ∈ bs, r ∈ OrderedMap.keys part.resourceBonus

variable {a b : Bonus} {as bs : List Bonus}

theorem isSum_neutral : IsSum [] neutral :=
  ⟨isKept_hasWholeGains.neutral, List.nodup_nil, fun _ => rfl, by simp [neutral]⟩

theorem isSum_singleton (hwhole : b.HasWholeGains) (hdistinct : (OrderedMap.keys b.resourceBonus).Nodup) :
    IsSum [b] b :=
  ⟨hwhole, hdistinct, by simp, by simp⟩

/-- Combining sums adds up what they are sums of. -/
theorem IsSum.combine (ha : IsSum as a) (hb : IsSum bs b) :
    ∃ out, a.combine b = .ok out ∧ IsSum (as ++ bs) out := by
  obtain ⟨gains, hgains, hcounted, hkeys⟩ := exists_addAll_counted ha.whole hb.whole hb.distinct
  have hcombine : a.combine b = .ok ⟨gains, _, _, _⟩ := bind_eq_ok_iff.mpr ⟨gains, hgains, rfl⟩
  refine ⟨_, hcombine, isKept_hasWholeGains.combine ha.whole hb.whole hcombine,
    nodup_keys_of_addAll ha.distinct hgains, fun r => ?_, fun r => ?_⟩
  · calc counted gains r = a.gain r + b.gain r := hcounted r
      _ = ((as ++ bs).map (·.gain r)).sum := by rw [ha.gain_eq, hb.gain_eq, List.map_append, List.sum_append]
  · calc r ∈ OrderedMap.keys gains
        ↔ r ∈ OrderedMap.keys a.resourceBonus ∨ r ∈ OrderedMap.keys b.resourceBonus := hkeys r
      _ ↔ ∃ part ∈ as ++ bs, r ∈ OrderedMap.keys part.resourceBonus := by
        simp only [ha.mem_keys_iff, hb.mem_keys_iff, List.mem_append, or_and_right, exists_or]

/-- Combining with the sum that is held, if there is one. -/
theorem IsSum.combine_held {m : OrderedMap String Bonus} {key : String} (ha : IsSum as a)
    (hheld : IsSum bs ((OrderedMap.get? key m).getD neutral)) :
    ∃ out, (match OrderedMap.get? key m with
      | some b => a.combine b
      | none => .ok a) = .ok out ∧ IsSum (as ++ bs) out := by
  cases hget : OrderedMap.get? key m with
  | some b =>
    rw [hget] at hheld
    exact ha.combine hheld
  | none =>
    rw [hget] at hheld
    refine ⟨a, rfl, ha.whole, ha.distinct, fun r => ?_, fun r => ?_⟩
    · have hzero : (bs.map (·.gain r)).sum = 0 := (hheld.gain_eq r).symm
      rw [List.map_append, List.sum_append, hzero, add_zero, ha.gain_eq]
    · have hnone : ¬ ∃ part ∈ bs, r ∈ OrderedMap.keys part.resourceBonus := by
        rw [← hheld.mem_keys_iff]
        simp [neutral]
      simp only [ha.mem_keys_iff, List.mem_append, or_and_right, exists_or, hnone, or_false]

theorem IsSum.perm (h : IsSum as b) (hperm : as.Perm bs) : IsSum bs b where
  whole := h.whole
  distinct := h.distinct
  gain_eq r := (h.gain_eq r).trans (hperm.map _).sum_eq
  mem_keys_iff r := by
    rw [h.mem_keys_iff]
    simp only [hperm.mem_iff]

/-- Of each resource all sums of one list list the same amount, or none. -/
theorem IsSum.get?_eq (ha : IsSum bs a) (hb : IsSum bs b) (r : String) :
    OrderedMap.get? r a.resourceBonus = OrderedMap.get? r b.resourceBonus := by
  have hgain : a.gain r = b.gain r := (ha.gain_eq r).trans (hb.gain_eq r).symm
  have hlisted : ∀ {c : Bonus}, IsSum bs c → r ∈ OrderedMap.keys c.resourceBonus →
      OrderedMap.get? r c.resourceBonus = some (.int (c.gain r)) := by
    intro c hc hmem
    obtain ⟨amount, hget⟩ := OrderedMap.exists_get?_of_mem_keys hmem
    have hvalue := getD_eq_counted hc.whole r
    rw [hget, Option.getD_some] at hvalue
    rw [hget, hvalue]
    rfl
  by_cases hmem : r ∈ OrderedMap.keys a.resourceBonus
  · have hother : r ∈ OrderedMap.keys b.resourceBonus := (hb.mem_keys_iff r).mpr ((ha.mem_keys_iff r).mp hmem)
    rw [hlisted ha hmem, hlisted hb hother, hgain]
  · have hother : r ∉ OrderedMap.keys b.resourceBonus := fun hr =>
      hmem ((ha.mem_keys_iff r).mpr ((hb.mem_keys_iff r).mp hr))
    rw [OrderedMap.get?_eq_none_iff.mpr hmem, OrderedMap.get?_eq_none_iff.mpr hother]

end Bonus

namespace Totals

variable {c : Content} {state : Tree} {t : Totals} {es done : List (String × Bonus)} {key : String} {b : Bonus}
  {granted : OrderedMap String Bonus × OrderedMap String Bonus}

/-- Under each key stands the sum of the bonuses that are given with the key. -/
def Gathers (es : List (String × Bonus)) (m : OrderedMap String Bonus) : Prop :=
  ∀ key, Bonus.IsSum ((es.filter (·.1 = key)).map (·.2)) ((OrderedMap.get? key m).getD .neutral)

theorem gathers_nil : Gathers [] [] := fun _ => Bonus.isSum_neutral

theorem Gathers.addBonus {m : OrderedMap String Bonus} (h : Gathers es m) (key : String) (hb : Bonus.IsSum [b] b) :
    ∃ m', Totals.addBonus m key b = .ok m' ∧ Gathers (es ++ [(key, b)]) m' := by
  obtain ⟨total, htotal, hsum⟩ := (h key).combine hb
  refine ⟨_, bind_eq_ok_iff.mpr ⟨total, htotal, rfl⟩, fun other => ?_⟩
  by_cases hkey : key = other
  · subst hkey
    simpa using hsum
  · rw [OrderedMap.get?_insert_of_ne hkey]
    simpa [hkey] using h other

/-- The entries under keys of actions are gathered apart from those under keys of categories. -/
structure GathersApart (c : Content) (es : List (String × Bonus))
    (granted : OrderedMap String Bonus × OrderedMap String Bonus) : Prop where
  actions : Gathers (es.filter (!isCategoryKey c ·.1)) granted.1
  categories : Gathers (es.filter (isCategoryKey c ·.1)) granted.2

theorem gathersApart_nil : GathersApart c [] ([], []) := ⟨gathers_nil, gathers_nil⟩

/-- Each entry is added in one of the two places. -/
theorem GathersApart.grant (h : GathersApart c done granted) {e : String × Bonus} (he : Bonus.IsSum [e.2] e.2) :
    ∃ granted', Totals.grant c granted e = .ok granted' ∧ GathersApart c (done ++ [e]) granted' := by
  cases hkey : isCategoryKey c e.1 with
  | true =>
    obtain ⟨m, hadd, hm⟩ := h.categories.addBonus e.1 he
    refine ⟨(granted.1, m), ?_, ?_, ?_⟩
    · rw [Totals.grant, if_pos hkey]
      exact bind_eq_ok_iff.mpr ⟨m, hadd, rfl⟩
    · simpa [hkey] using h.actions
    · simpa [hkey] using hm
  | false =>
    obtain ⟨m, hadd, hm⟩ := h.actions.addBonus e.1 he
    refine ⟨(m, granted.2), ?_, ?_, ?_⟩
    · rw [Totals.grant, if_neg (by simp [hkey])]
      exact bind_eq_ok_iff.mpr ⟨m, hadd, rfl⟩
    · simpa [hkey] using hm
    · simpa [hkey] using h.categories

theorem GathersApart.grantAll (h : GathersApart c done granted) (hes : ∀ e ∈ es, Bonus.IsSum [e.2] e.2) :
    ∃ granted', es.foldlM (Totals.grant c) granted = .ok granted' ∧ GathersApart c (done ++ es) granted' := by
  induction es generalizing done granted with
  | nil => exact ⟨granted, rfl, by simpa using h⟩
  | cons e rest ih =>
    obtain ⟨hfirst, hrest⟩ := List.forall_mem_cons.mp hes
    obtain ⟨granted₁, hgrant, h₁⟩ := h.grant hfirst
    obtain ⟨granted', hgrants, h'⟩ := ih h₁ hrest
    exact ⟨granted', bind_eq_ok_iff.mpr ⟨granted₁, hgrant, hgrants⟩, by simpa using h'⟩

theorem GathersApart.perm (h : GathersApart c done granted) (hperm : done.Perm es) :
    GathersApart c es granted where
  actions key := (h.actions key).perm (((hperm.filter _).filter _).map _)
  categories key := (h.categories key).perm (((hperm.filter _).filter _).map _)

/-- Whether a bonus under the key counts for an action with this id and category. -/
def reaches (c : Content) (id : String) (category : Option String) (key : String) : Bool :=
  if isCategoryKey c key then category = some key else id = key

theorem not_isCategoryKey_empty (c : Content) : isCategoryKey c "" = false := by
  simp [isCategoryKey, Content.categories]

/-- What reaches an action is given to its id or to its category. -/
theorem reaching_perm (es : List (String × Bonus)) (id : String) (category : Option String) :
    ((es.filter (!isCategoryKey c ·.1)).filter (·.1 = id) ++
      (es.filter (isCategoryKey c ·.1)).filter (category = some ·.1)).Perm
        (es.filter (reaches c id category ·.1)) := by
  have hsplit := List.filter_append_perm (fun e => !isCategoryKey c e.1) (es.filter (reaches c id category ·.1))
  refine List.Perm.trans (List.Perm.of_eq ?_) hsplit
  simp only [List.filter_filter]
  congr 1 <;>
  · refine List.filter_congr fun e _ => ?_
    cases hkey : isCategoryKey c e.1 <;> simp [reaches, hkey, eq_comm]

/-- The bonus of an action is the sum of all that reaches it. -/
theorem GathersApart.exists_forAction (h : GathersApart c es t.bonuses) (id : String) (category : Option String) :
    ∃ b, t.forAction id category = .ok b ∧
      Bonus.IsSum ((es.filter (reaches c id category ·.1)).map (·.2)) b := by
  obtain ⟨own, hown, hsum⟩ := Bonus.isSum_neutral.combine_held (h.actions id)
  have hreaching := (reaching_perm (c := c) es id category).map (·.2)
  rw [List.map_append] at hreaching
  cases hcategory : category.filter (!·.isEmpty) with
  | some name =>
    obtain ⟨rfl, -⟩ := Option.filter_eq_some_iff.mp hcategory
    obtain ⟨b, hb, hboth⟩ := hsum.combine_held (h.categories name)
    refine ⟨b, ?_, hboth.perm (by simpa [eq_comm] using hreaching)⟩
    rw [forAction, hcategory]
    exact bind_eq_ok_iff.mpr ⟨own, hown, hb⟩
  | none =>
    refine ⟨own, ?_, hsum.perm ?_⟩
    · rw [forAction, hcategory]
      exact bind_eq_ok_iff.mpr ⟨own, hown, rfl⟩
    -- an empty category is none
    · have hnone : (es.filter (isCategoryKey c ·.1)).filter (category = some ·.1) = [] := by
        refine List.filter_eq_nil_iff.mpr fun e he hsome => ?_
        obtain rfl : category = some e.1 := by simpa using hsome
        have hempty : e.1 = "" := by simpa [Option.filter] using hcategory
        simp [List.mem_filter, hempty, not_isCategoryKey_empty] at he
      simpa [hnone] using hreaching

/-- What the items that grant bonuses give, each entry with its key. -/
def grantedEntries (c : Content) (state : Tree) : List (String × Bonus) :=
  (c.granting (c.ownedItems state)).flatMap (·.actionBonuses)

theorem isSum_of_mem_grantedEntries (hc : c.IsFiled)
    (hwhole : ∀ i ∈ OrderedMap.values c.items, ∀ e ∈ i.actionBonuses, e.2.HasWholeGains) :
    ∀ e ∈ grantedEntries c state, Bonus.IsSum [e.2] e.2 := by
  intro e he
  obtain ⟨i, hi, he⟩ := List.mem_flatMap.mp he
  have hitem := Content.item_mem_values_of_mem_ownedItems (List.mem_of_mem_filter hi)
  exact Bonus.isSum_singleton (hwhole i hitem e he) (hc.nodup_resourceBonus hitem e he)

theorem gathersApart_ofState (hes : ∀ e ∈ grantedEntries c state, Bonus.IsSum [e.2] e.2) (h : ofState c state = .ok t) :
    GathersApart c (grantedEntries c state) t.bonuses := by
  obtain ⟨gathered, hgathered, hapart⟩ := gathersApart_nil.grantAll hes
  obtain rfl : t.bonuses = gathered := Except.ok.inj ((foldlM_grant_of_ofState h).symm.trans hgathered)
  exact hapart

end Totals

/-- A key of a bonus names an action by its id, or by its category where the key is not the id of any action. -/
def Action.NamedBy (c : Content) (a : Action) (key : String) : Prop :=
  key = a.id ∨ a.category = some key ∧ key ∉ OrderedMap.keys c.actions

instance (c : Content) (a : Action) (key : String) : Decidable (a.NamedBy c key) :=
  inferInstanceAs (Decidable (_ ∨ _))

namespace Totals

variable {c : Content} {state : Tree} {t : Totals} {a : Action}

theorem reaches_iff (hc : c.IsFiled) (ha : a ∈ OrderedMap.values c.actions) (hcategory : a.category ≠ some "")
    (key : String) : reaches c a.id a.category key = true ↔ a.NamedBy c key := by
  obtain ⟨e, he, rfl⟩ := List.mem_map.mp ha
  have hid : e.2.id ∈ OrderedMap.keys c.actions := (hc.actions e he).1 ▸ List.mem_map_of_mem he
  have hkey : isCategoryKey c key = true ↔ key ∈ c.categories ∧ key ∉ OrderedMap.keys c.actions := by
    simp [isCategoryKey, ← OrderedMap.contains_iff_mem_keys]
  have hlisted : e.2.category = some key → key ∈ c.categories := by
    intro hsome
    have hne : key ≠ "" := by
      rintro rfl
      exact hcategory hsome
    exact List.mem_filter.mpr ⟨List.mem_filterMap.mpr ⟨e.2, ha, hsome⟩, by simpa using hne⟩
  unfold reaches Action.NamedBy
  split
  next htrue =>
    obtain ⟨-, hfree⟩ := hkey.mp htrue
    have hne : key ≠ e.2.id := fun heq => hfree (heq ▸ hid)
    simp [hne, hfree]
  next hfalse =>
    have hnot : ¬ (e.2.category = some key ∧ key ∉ OrderedMap.keys c.actions) := by
      rintro ⟨hsome, hfree⟩
      exact hfalse (hkey.mpr ⟨hlisted hsome, hfree⟩)
    simp [hnot, eq_comm]

/-- When all gains of resources are whole, an action of a category or of none has a bonus, and of each resource it
gains the sum of what the items that are owned and not superseded give under the keys that name the action. -/
theorem bonuses_reach_once (hc : c.IsLoaded)
    (hwhole : ∀ i ∈ OrderedMap.values c.items, ∀ e ∈ i.actionBonuses, e.2.HasWholeGains)
    (ha : a ∈ OrderedMap.values c.actions) (hcategory : a.category ≠ some "") (h : ofState c state = .ok t) :
    ∃ b, t.forAction a.id a.category = .ok b ∧ ∀ r, (OrderedMap.get? r b.resourceBonus).getD .zero =
      .int (((c.granting (c.ownedItems state)).flatMap fun i =>
        (i.actionBonuses.filter (a.NamedBy c ·.1)).map (·.2.gain r)).sum) := by
  have hfiled := hc.isFiled
  have hgathered := gathersApart_ofState (isSum_of_mem_grantedEntries hfiled hwhole) h
  obtain ⟨b, hb, hsum⟩ := hgathered.exists_forAction a.id a.category
  refine ⟨b, hb, fun r => ?_⟩
  have hnamed : (grantedEntries c state).filter (reaches c a.id a.category ·.1) =
      (grantedEntries c state).filter (a.NamedBy c ·.1) :=
    List.filter_congr fun e _ => Bool.eq_iff_iff.mpr (by simpa using reaches_iff hfiled ha hcategory e.1)
  rw [Bonus.getD_eq_counted hsum.whole]
  refine congrArg Amount.int ((hsum.gain_eq r).trans ?_)
  rw [hnamed, grantedEntries, List.filter_flatMap, List.map_map, List.map_flatMap]
  rfl

/-- An item without general bonuses. -/
def gear (id : String) (bonuses : OrderedMap String Bonus) : Item := ⟨id, id, "", .clothing, bonuses, .none⟩

/-- More wood from each time an action is done. -/
def moreWood (n : ℤ) : Bonus := { Bonus.neutral with resourceBonus := [("wood", .int n)] }

/-- An action of a category that does nothing else. -/
def work (id category : String) : Action :=
  ⟨id, id, "", some category, [], Binary64.zero, Binary64.zero, .flat ⟨none, [], [], Binary64.zero⟩⟩

/-- Forestry is a category of actions and one of these actions, too. -/
def woodland : Content :=
  ⟨[("fell", work "fell" "outdoors"), ("forestry", work "forestry" "forestry"), ("saw", work "saw" "forestry")],
    [("gloves", gear "gloves" [("fell", moreWood 1), ("outdoors", moreWood 2), ("forestry", moreWood 4)]),
      ("boots", gear "boots" [("outdoors", moreWood 8), ("saw", moreWood 16)])], [], []⟩

def woodlandState : Tree := [("clothing", .mapping [("gloves", .bool true), ("boots", .bool true)])]

/-- The bonus under the key that is both an id and a category reaches the action of that id once, and no other. -/
theorem woodland_bonuses_reach_once :
    Content.ofRecords (woodland.actions.map (·.2.toValue)) (woodland.items.map (·.2.toValue)) [] = .ok woodland ∧
      ∃ t, ofState woodland woodlandState = .ok t ∧
        ∀ e ∈ [(work "fell" "outdoors", 11), (work "forestry" "forestry", 4), (work "saw" "forestry", 16)],
          ∃ b, t.forAction e.1.id e.1.category = .ok b ∧
            (OrderedMap.get? "wood" b.resourceBonus).getD .zero = .int e.2 := by
  have hload : Content.ofRecords (woodland.actions.map (·.2.toValue)) (woodland.items.map (·.2.toValue)) [] =
      .ok woodland := by decide +kernel
  have hwhole : ∀ i ∈ OrderedMap.values woodland.items, ∀ e ∈ i.actionBonuses, e.2.HasWholeGains := by
    decide +kernel
  obtain ⟨t, ht⟩ : ∃ t, ofState woodland woodlandState = .ok t := exists_of_isSome_toOption (by decide +kernel)
  refine ⟨hload, t, ht, fun e he => ?_⟩
  have hlisted : e.1 ∈ OrderedMap.values woodland.actions ∧ e.1.category ≠ some "" := by
    revert e
    decide +kernel
  obtain ⟨b, hb, hgains⟩ := bonuses_reach_once (Or.inl ⟨_, _, _, hload⟩) hwhole hlisted.1 hlisted.2 ht
  refine ⟨b, hb, (hgains "wood").trans ?_⟩
  clear hgains hb hlisted
  revert e
  decide +kernel

end Totals

end SurvivalRules
