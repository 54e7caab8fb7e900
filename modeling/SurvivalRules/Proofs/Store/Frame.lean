import SurvivalRules.Proofs.Payment
import SurvivalRules.Proofs.Store.Debt

/-!
# What a dispatch leaves alone

The effects of an action copy whole sections, the scaling of gains walks over every copied resource, and the
commit lays all of it over the state. Still a place that no effect and no record of the store names reads as
before, but for a debt among the resources, which every commit forgives.
-/
namespace SurvivalRules

open Drawing

/-- A number between the two ends of the number line. -/
def Amount.IsFinite (a : Amount) : Prop := ∃ q, a.point? = some (.rational q)

/-- The numbers directly among the resources are finite. -/
def Tree.FiniteResources (state : Tree) : Prop :=
  ∀ e ∈ (state.lookup Section.resources.name).entries, ∀ a, e.2.amount? = some a → a.IsFinite

theorem Binary64.sub_self {x : Binary64} {q : ℚ} (h : x.toRat? = some q) : x.sub x = .zero := by
  have hne : ¬ (x = .negativeZero ∧ x.neg = .negativeZero) := by
    rintro ⟨rfl, hneg⟩
    cases hneg
  rw [Binary64.sub, Binary64.add_eq_nearest h (Binary64.toRat?_neg h) hne, add_neg_cancel,
    ← Binary64.ofInt_zero, Binary64.ofInt, Int.cast_zero]

/-- A finite amount that has not changed is no gain. -/
theorem Amount.IsFinite.exists_sub_self {a : Amount} (h : a.IsFinite) :
    ∃ gain, a.sub a = .ok gain ∧ gain.le .zero = true := by
  obtain ⟨q, hq⟩ := h
  cases a with
  | int n => exact ⟨.int (n - n), rfl, by rw [Amount.zero, Amount.le_int_iff, sub_self]⟩
  | float x =>
    have hx : x.toRat? = some q := by
      cases x with
      | infinity negative => cases negative <;> simp [Amount.point?, Binary64.point?] at hq
      | nan => cases hq
      | _ => simpa [Amount.point?, Binary64.point?, Binary64.toRat?] using hq
    refine ⟨.float (x.sub x), rfl, ?_⟩
    rw [Binary64.sub_self hx]
    decide

namespace Value

theorem descend_of_amount? {v : Value} {a : Amount} (h : v.amount? = some a) {ks : List String}
    (hks : ks ≠ []) : v.descend ks = .null := by
  obtain ⟨k, rest, rfl⟩ := List.exists_cons_of_ne_nil hks
  cases v <;> simp [amount?, descend] at h ⊢

end Value

section

variable {state : Tree} {multiplier : Binary64} {amplify : Bool} {q : StatePath}

theorem scaleGain_of_unchanged {name : String} {new scaled : Amount} {t t' : Trace}
    (hfinite : new.IsFinite) (hbefore : ∀ a, amountBefore state name = .ok a → a = new)
    (h : scaleGain state multiplier amplify name new t = .ok (scaled, t')) : scaled = new := by
  obtain ⟨before, hb, hrest⟩ := bind_eq_ok_iff.mp h
  obtain ⟨gain, hgain, hlast⟩ := bind_eq_ok_iff.mp hrest
  obtain ⟨nothing, hnothing, hle⟩ := hfinite.exists_sub_self
  rw [hbefore before hb, hnothing] at hgain
  cases hgain
  rw [if_pos hle] at hlast
  cases pure_eq_ok_iff.mp hlast
  rfl

/-- A number that a place directly among the resources holds is one of the numbers of the section. -/
theorem isFinite_of_get {name : String} {v : Value} {a : Amount} (hfinite : state.FiniteResources)
    (hhead : q.head = Section.resources.name) (hrest : q.rest = [name]) (hv : state.get q = v)
    (ha : v.amount? = some a) : a.IsFinite := by
  rw [Tree.get_cons hrest, hhead, Value.descend_nil, Tree.lookup] at hv
  cases hget : OrderedMap.get? name (state.lookup Section.resources.name).entries with
  | none =>
    rw [hget] at hv
    subst hv
    cases ha
  | some u =>
    rw [hget, Option.getD_some] at hv
    subst hv
    exact hfinite _ (OrderedMap.mem_of_get? hget) a ha

theorem mem_keys_scaleGains {p p' : Progress} {k : String}
    (h : scaleGains state multiplier amplify p = .ok p') :
    k ∈ OrderedMap.keys p'.delta ↔ k ∈ OrderedMap.keys p.delta := by
  rcases scaleGains_spec h with he | ⟨entries, scaled, t, t', hentries, -, he⟩
  · rw [he]
  · have hmem : Section.resources.name ∈ OrderedMap.keys p.delta := by
      by_contra hnot
      rw [Tree.lookup_of_not_mem hnot] at hentries
      cases hentries
    rw [he, OrderedMap.mem_keys_insert]
    exact or_iff_right_of_imp fun hk => hk ▸ hmem

/-- Scaling does not look at the other sections. -/
theorem holds_scaleGains_of_head_ne {p p' : Progress} {v : Value}
    (hholds : Delta.Holds p.delta state q v) (hhead : q.head ≠ Section.resources.name)
    (h : scaleGains state multiplier amplify p = .ok p') : Delta.Holds p'.delta state q v := by
  have hkeys : ∀ k, k ∈ OrderedMap.keys p'.delta ↔ k ∈ OrderedMap.keys p.delta :=
    fun k => mem_keys_scaleGains h
  have hlook : p'.delta.lookup q.head = p.delta.lookup q.head := by
    rcases scaleGains_spec h with he | ⟨entries, scaled, t, t', -, -, he⟩
    · rw [he]
    · rw [he, Tree.lookup_insert_of_ne (Ne.symm hhead)]
  have hcurrent := hholds.current_eq
  refine ⟨fun hk => ?_, fun hrest hk => hholds.absent hrest ((hkeys _).mp hk), ?_⟩
  · rw [hlook]
    exact hholds.isOpen ((hkeys _).mp hk)
  · simp only [Delta.current, OrderedMap.contains_iff_mem_keys, hkeys, Tree.get_eq_descend, hlook]
      at hcurrent ⊢
    exact hcurrent

/-- Scaling walks over every resource that was copied, and leaves those alone that no entry wrote. -/
theorem holds_scaleGains {p p' : Progress} (hholds : Delta.Holds p.delta state q (state.get q))
    (hfinite : q.head = Section.resources.name → state.FiniteResources)
    (h : scaleGains state multiplier amplify p = .ok p') :
    Delta.Holds p'.delta state q (state.get q) := by
  by_cases hhead : q.head = Section.resources.name
  swap
  · exact holds_scaleGains_of_head_ne hholds hhead h
  have hmem := @mem_keys_scaleGains _ _ _ _ _ Section.resources.name h
  rcases scaleGains_spec h with he | ⟨entries, scaled, t, t', hentries, hscaled, he⟩
  · rwa [he]
  have hmem' : Section.resources.name ∈ OrderedMap.keys p'.delta := by
    rw [he]
    exact OrderedMap.mem_keys_insert.mpr (Or.inl rfl)
  have hcurrent := hholds.current_eq
  cases hrest : q.rest with
  | nil => exact absurd (hhead ▸ hmem.mp hmem') (hholds.absent hrest)
  | cons name ks =>
    refine ⟨fun _ => ⟨scaled, by rw [he, hhead, Tree.lookup_insert_self]⟩, by simp [hrest], ?_⟩
    rw [Delta.current_of_mem (hhead ▸ hmem.mp hmem'), Tree.get_cons hrest, hhead, hentries, Value.entries]
      at hcurrent
    rw [Delta.current_of_mem (hhead ▸ hmem'), Tree.get_cons hrest, hhead, he, Tree.lookup_insert_self,
      Value.entries, ← hcurrent]
    obtain ⟨hnames, hvalues⟩ := scaleEntries_spec hscaled
    cases hv : OrderedMap.get? name entries with
    | none =>
      have hnone : name ∉ OrderedMap.keys scaled := hnames ▸ OrderedMap.get?_eq_none_iff.mp hv
      simp only [Tree.lookup, hv, OrderedMap.get?_eq_none_iff.mpr hnone]
    | some v =>
      obtain ⟨w, hw, hrescaled⟩ := hvalues name v hv
      simp only [Tree.lookup, hv, hw, Option.getD_some] at hcurrent ⊢
      rcases hrescaled with ⟨-, rfl⟩ | ⟨new, t₁, amount, t₂, hnew, hgain, rfl⟩
      · rfl
      by_cases hks : ks = []
      · subst hks
        simp only [Value.descend_nil] at hcurrent ⊢
        have hunchanged : ∀ a, amountBefore state name = .ok a → a = new := by
          intro a ha
          rw [amountBefore_eq_ok hhead hrest ha, ← hcurrent, hnew, Option.getD_some]
        rw [scaleGain_of_unchanged (isFinite_of_get (hfinite hhead) hhead hrest hcurrent.symm hnew)
          hunchanged hgain]
        cases v <;> cases hnew <;> rfl
      · rw [Value.descend_of_amount? hnew hks,
          Value.descend_of_amount? (Value.amount?_ofAmount amount) hks]

end

/-- The paths that a dispatch of an action names: those of its effects, the record that it was seen, and its
two timers if it has a cooldown. -/
def namedPaths (id : String) (tier : Tier) (cooldown : Binary64) : List String :=
  OrderedMap.keys (tier.effects.getD []) ++ ("story.seen." ++ seenKey id) ::
    if Amount.zero.lt (.float cooldown) then ["cooldowns." ++ id, "cooldownDurations." ++ id] else []

/-- A path that is no prefix and no extension of the given ones. -/
def StatePath.IsApart (q : StatePath) (paths : List String) : Prop :=
  ∀ raw ∈ paths, ∀ p, StatePath.parse raw = .ok p → ¬ p.Comparable q

instance (q : StatePath) (paths : List String) : Decidable (q.IsApart paths) :=
  inferInstanceAs (Decidable (∀ raw ∈ paths, ∀ p, StatePath.parse raw = .ok p → ¬ p.Comparable q))

/-- How a value that a place holds is kept: as it is, except that zero stands for a debt directly among the
resources. -/
structure StatePath.Keeps (q : StatePath) (before after : Value) : Prop where
  elsewhere : (q.head = Section.resources.name → 2 ≤ q.rest.length) → after = before
  resource : ∀ name, q.head = Section.resources.name → q.rest = [name] →
    before.IsDebt ∧ after = .int 0 ∨ ¬ before.IsDebt ∧ after = before
  mapped : ∀ held, q.head = Section.resources.name → q.rest = [] → before = .mapping held →
    ∃ kept, after = .mapping kept ∧ List.Forall₂ ForgivenEntry held kept
  unmapped : q.head = Section.resources.name → q.rest = [] → (∀ held, before ≠ .mapping held) →
    after = before

theorem StatePath.get_of_rest_eq_nil {q : StatePath} (h : q.rest = []) (t : Tree) :
    t.get q = t.lookup q.head := by
  rw [Tree.get_eq_descend, h, Value.descend_nil]

namespace Store

variable {s s' : Store} {id : String}

theorem lookup_entries_clampResources (state : Tree) (name : String) :
    Tree.lookup ((clampResources state).lookup Section.resources.name).entries name =
      clampAmount (Tree.lookup (state.lookup Section.resources.name).entries name) := by
  unfold clampResources
  split
  next held hheld =>
    rw [Tree.lookup_insert_self, hheld, Value.entries, Value.entries, Tree.lookup, Tree.lookup,
      OrderedMap.get?_mapValues]
    cases OrderedMap.get? name held <;> rfl
  next hother =>
    cases hlook : state.lookup Section.resources.name with
    | mapping held => exact absurd hlook (hother held)
    | _ => rfl

/-- The clamp keeps every place in this sense. -/
theorem keeps_clampResources (state : Tree) (q : StatePath) :
    q.Keeps (state.get q) ((clampResources state).get q) := by
  have hforgiven := forgiven_clampResources state
  by_cases hhead : q.head = Section.resources.name
  · refine ⟨fun hlong => ?_, fun name _ hrest => ?_, fun held _ hrest hheld => ?_, fun _ hrest hnot => ?_⟩
    · have hlength : 2 ≤ q.rest.length := hlong hhead
      obtain ⟨name, ks, hks⟩ := List.exists_cons_of_length_pos (show 0 < q.rest.length by omega)
      have hbelow : ks ≠ [] := by
        rintro rfl
        simp [hks] at hlength
      rw [Tree.get_cons hks, Tree.get_cons hks, hhead, lookup_entries_clampResources]
      -- below a number there is nothing to read
      rcases clampAmount_spec (Tree.lookup (state.lookup Section.resources.name).entries name) with
        ⟨⟨a, ha, -⟩, hv⟩ | ⟨-, hv⟩
      · rw [hv, Value.descend_of_amount? ha hbelow, Value.descend_of_amount? (a := .int 0) rfl hbelow]
      · rw [hv]
    · rw [Tree.get_cons hrest, Tree.get_cons hrest, hhead, Value.descend_nil, Value.descend_nil,
        lookup_entries_clampResources]
      exact clampAmount_spec _
    · rw [StatePath.get_of_rest_eq_nil hrest, hhead] at hheld ⊢
      exact hforgiven.mapped held hheld
    · simp only [StatePath.get_of_rest_eq_nil hrest, hhead] at hnot ⊢
      exact hforgiven.unmapped hnot
  · refine ⟨fun _ => ?_, fun _ h => absurd h hhead, fun _ h => absurd h hhead, fun h => absurd h hhead⟩
    rw [Tree.get_eq_descend, Tree.get_eq_descend, lookup_clampResources_of_ne hhead]

theorem holds_recordAll {state delta delta' : Tree} {writes : List (String × Value)} {q : StatePath}
    {v : Value} (hq : q.IsApart (writes.map Prod.fst)) (h : recordAll state delta writes = .ok delta')
    (hholds : Delta.Holds delta state q v) : Delta.Holds delta' state q v := by
  refine recordAll_induction (motive := fun delta => Delta.Holds delta state q v) ?_ h hholds
  exact fun w hw p hp delta hdelta => hdelta.set w.2 (hq w.1 (List.mem_map_of_mem hw) p hp)

theorem map_fst_bookkeeping (id : String) (cooldown : Binary64) :
    (bookkeeping id cooldown).map Prod.fst = ("story.seen." ++ seenKey id) ::
      if Amount.zero.lt (.float cooldown) then ["cooldowns." ++ id, "cooldownDurations." ++ id] else [] := by
  unfold bookkeeping
  split <;> rfl

end Store

theorem holds_resolve {c : Content} {id : String} {state : Tree} {amplify : Bool} {d d' : Draws}
    {r : Resolution} {a : Action} {tier : Tier} {q : StatePath} (ha : c.action? id = some a)
    (htier : a.tier state = .ok tier) (hq : q.IsApart (OrderedMap.keys (tier.effects.getD [])))
    (hfinite : q.head = Section.resources.name → state.FiniteResources)
    (h : Returns (resolve c id state amplify) d r d') :
    Delta.Holds r.delta state q (state.get q) := by
  obtain ⟨tier', htier', hcases⟩ := Resolution.exists_tier_of_returns ha h
  cases htier.symm.trans htier'
  rcases hcases with ⟨-, hr⟩ | ⟨effects, heffects, hr⟩
  · rw [hr]
    exact Delta.holds_nil state q
  obtain ⟨around, p, p', haround, hp, hp', rfl⟩ := Resolution.returns_ofEffects_iff.mp hr
  refine holds_scaleGains ?_ hfinite hp'
  refine applyEntries_induction (motive := fun delta => Delta.Holds delta state q (state.get q))
    (fun e he p hparse v _ delta hdelta => ?_) hp (Delta.holds_nil state q)
  rw [Resolution.state_of_circumstances haround]
  rw [heffects, Option.getD_some] at hq
  exact hdelta.set v (hq e.1 (List.mem_map_of_mem he) p hparse)

namespace Store

variable {s s' : Store} {id : String}

/-- A place that a dispatch does not name is kept by it. Only below the resources do their numbers have to be
finite, because only there does scaling walk over what no entry wrote. -/
theorem keeps_dispatch {result : Performed} {a : Action} {tier : Tier} {q : StatePath}
    (hd : s.state.DistinctAt q.head) (ha : s.content.action? id = some a)
    (htier : a.tier s.state = .ok tier)
    (hfinite : q.head = Section.resources.name → s.state.FiniteResources)
    (hq : q.IsApart (namedPaths id tier result.cooldown))
    (hdone : s.dispatch id = (.ok (.performed result), s')) :
    q.Keeps (s.state.get q) (s'.state.get q) := by
  obtain ⟨-, r, d, delta, hres, hrecord, hstate, -⟩ := exists_delta_of_dispatch hdone
  have heffects : q.IsApart (OrderedMap.keys (tier.effects.getD [])) :=
    fun raw hraw => hq raw (List.mem_append_left _ hraw)
  have hrecords : q.IsApart ((bookkeeping id result.cooldown).map Prod.fst) := by
    rw [map_fst_bookkeeping]
    exact fun raw hraw => hq raw (List.mem_append_right _ hraw)
  have hholds := holds_recordAll hrecords hrecord (holds_resolve ha htier heffects hfinite hres)
  have hmerged := hholds.get_merge (tidyAt_bookkeeping hd (tidyAt_resolve hd hres) hrecord)
  rw [hstate, committed, ← hmerged]
  exact keeps_clampResources _ q

/-- An action that is done had a tier, and every place that is no prefix and no extension of the paths that
the dispatch names is kept. -/
theorem dispatch_keeps_unnamed {result : Performed} (hd : s.state.Distinct)
    (hfinite : s.state.FiniteResources) (hdone : s.dispatch id = (.ok (.performed result), s')) :
    ∃ a tier, s.content.action? id = some a ∧ a.tier s.state = .ok tier ∧
      ∀ q : StatePath, q.IsApart (namedPaths id tier result.cooldown) →
        q.Keeps (s.state.get q) (s'.state.get q) := by
  obtain ⟨a, tier, -, ha, htier, -⟩ := (Gate.isExecutable_spec (dispatch_performed_spec hdone).1).2
  exact ⟨a, tier, ha, htier, fun q hq => keeps_dispatch (hd q.head) ha htier (fun _ => hfinite) hq hdone⟩

/-- Gathers wood, and now and then a piece of amber. -/
def forage : Action where
  id := "forage"
  label := "Forage"
  description := ""
  category := none
  statsEffects := []
  craftingCostReduction := Binary64.zero
  buildingCostReduction := Binary64.zero
  plan := .flat ⟨some [], [], [("resources.wood", .text "random(2,5)"), ("relics.amber", .bool true)],
    Binary64.ofInt 10⟩

/-- Doubles what is foraged. -/
def basket : Item where
  id := "basket"
  name := "Basket"
  description := ""
  slot := .tools
  actionBonuses := [("forage", { Bonus.neutral with resourceMultiplier := Binary64.ofInt 2 })]
  generalBonuses := GeneralBonuses.none

/-- Some wood, half a measure of moss, a debt of stone, and a story that has begun. -/
def clearing : Store :=
  start ⟨[("forage", forage)], [("basket", basket)], [], []⟩
    [("resources", .mapping [("wood", .int 3), ("moss", .float (Binary64.nearest (1 / 2))),
        ("stone", .int (-4))]),
      ("tools", .mapping [("basket", .bool true)]),
      ("story", .mapping [("seen", .mapping [("hut", .bool true)]), ("day", .int 2)])]
    zeroDraws true

def foraged : Performed :=
  ⟨[], [], Binary64.ofInt 10, ["[Effects] resources.wood: random(2,5) rolled 2",
    "[Effects] resources.wood: x2 multiplier adds 2", "[Effects] resources.wood: amplified gain to 40"]⟩

theorem clearing_finiteResources : clearing.state.FiniteResources := by
  intro e he a ha
  have hcases : e.2 = .int 3 ∨ e.2 = .float (Binary64.nearest (1 / 2)) ∨ e.2 = .int (-4) := by
    simp only [clearing, start, Section.name, Tree.lookup, OrderedMap.get?, if_true, Option.getD_some,
      Value.entries, List.mem_cons, List.not_mem_nil, or_false] at he
    rcases he with rfl | rfl | rfl <;> simp
  rcases hcases with h | h | h <;> rw [h] at ha <;> cases ha
  · exact ⟨3, rfl⟩
  · exact ⟨1 / 2, by decide +kernel⟩
  · exact ⟨-4, rfl⟩

/-- Foraging forgives the debt of stone, and leaves the moss and the rest of the story alone. -/
theorem clearing_keeps_unnamed :
    (clearing.dispatch "forage").1 = .ok (.performed foraged) ∧
      Requirement.currentValue "resources.wood" (clearing.dispatch "forage").2.state = .int 43 ∧
      Requirement.currentValue "resources.stone" (clearing.dispatch "forage").2.state = .int 0 ∧
      Requirement.currentValue "resources.moss" (clearing.dispatch "forage").2.state =
        .float (Binary64.nearest (1 / 2)) ∧
      Requirement.currentValue "story.seen.hut" (clearing.dispatch "forage").2.state = .bool true := by
  have hdone : clearing.dispatch "forage" = (.ok (.performed foraged), (clearing.dispatch "forage").2) :=
    Prod.ext (by decide +kernel) rfl
  have hdistinct : clearing.state.Distinct := Tree.distinct_of_forall_mem (by decide)
  obtain ⟨a, tier, ha, htier, hkeeps⟩ :=
    dispatch_keeps_unnamed hdistinct clearing_finiteResources hdone
  cases ha
  cases htier
  refine ⟨congrArg Prod.fst hdone, by decide +kernel, ?_, ?_, ?_⟩
  · obtain ⟨hdebt, hzero⟩ | ⟨hnot, -⟩ :=
      (hkeeps ⟨"resources.stone", "resources", ["stone"]⟩ (by decide +kernel)).resource "stone" rfl rfl
    · exact hzero
    · exact absurd ⟨.int (-4), rfl, by decide⟩ hnot
  · obtain ⟨⟨a, ha, hlt⟩, -⟩ | ⟨-, hsame⟩ :=
      (hkeeps ⟨"resources.moss", "resources", ["moss"]⟩ (by decide +kernel)).resource "moss" rfl rfl
    · cases ha
      exact absurd hlt (by decide +kernel)
    · exact hsame
  · exact (hkeeps ⟨"story.seen.hut", "story", ["seen", "hut"]⟩ (by decide +kernel)).elsewhere
      (fun he => absurd he (by decide))

end Store

end SurvivalRules
