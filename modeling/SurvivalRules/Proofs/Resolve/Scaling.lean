import SurvivalRules.Proofs.Resolve.Entries
import SurvivalRules.Proofs.Numeric.Binary64

/-!
# Scaled gains and whole resolutions

Scaling keeps the names of the resources and everything that is no net gain. With what the entries write
this says what a whole resolution leaves in its delta.
-/
namespace SurvivalRules

open Drawing

/-- What scaling makes of the value of a resource. -/
def Rescales (state : Tree) (multiplier : Binary64) (amplify : Bool) (name : String) (v w : Value) :
    Prop :=
  (v.amount? = none ∧ w = v) ∨ ∃ new t scaled t', v.amount? = some new ∧
    scaleGain state multiplier amplify name new t = .ok (scaled, t') ∧ w = .ofAmount scaled

section

variable {state : Tree} {multiplier : Binary64} {amplify : Bool}

theorem scaleEntries_cons {name : String} {v : Value} {rest entries : Tree} {t t' : Trace}
    (h : scaleEntries state multiplier amplify ((name, v) :: rest) t = .ok (entries, t')) :
    ∃ w more t₁, Rescales state multiplier amplify name v w ∧
      scaleEntries state multiplier amplify rest t₁ = .ok (more, t') ∧ entries = (name, w) :: more := by
  unfold scaleEntries at h
  obtain ⟨⟨w, t₁⟩, hfirst, hrest⟩ := bind_eq_ok_iff.mp h
  obtain ⟨⟨more, t₂⟩, hmore, hlast⟩ := bind_eq_ok_iff.mp hrest
  cases pure_eq_ok_iff.mp hlast
  refine ⟨w, more, t₁, ?_, hmore, rfl⟩
  split at hfirst
  next hnone =>
    cases pure_eq_ok_iff.mp hfirst
    exact Or.inl ⟨hnone, rfl⟩
  next new hnew =>
    obtain ⟨⟨scaled, t₃⟩, hscale, hpair⟩ := bind_eq_ok_iff.mp hfirst
    cases pure_eq_ok_iff.mp hpair
    exact Or.inr ⟨new, t, scaled, t₁, hnew, hscale, rfl⟩

/-- Scaling keeps the names, and the value of each is rescaled. -/
theorem scaleEntries_spec {entries scaled : Tree} {t t' : Trace}
    (h : scaleEntries state multiplier amplify entries t = .ok (scaled, t')) :
    OrderedMap.keys scaled = OrderedMap.keys entries ∧
      ∀ name v, OrderedMap.get? name entries = some v →
        ∃ w, OrderedMap.get? name scaled = some w ∧ Rescales state multiplier amplify name v w := by
  induction entries generalizing scaled t with
  | nil =>
    cases h
    exact ⟨rfl, by simp⟩
  | cons e rest ih =>
    obtain ⟨key, u⟩ := e
    obtain ⟨w, more, t₁, hfirst, hrest, rfl⟩ := scaleEntries_cons h
    obtain ⟨hkeys, hvalues⟩ := ih hrest
    refine ⟨by simp [hkeys], fun name v hv => ?_⟩
    unfold OrderedMap.get? at hv ⊢
    split at hv
    next hkey =>
      cases hv
      exact ⟨w, by simp [hkey], hkey ▸ hfirst⟩
    next hkey =>
      obtain ⟨w', hw', hscaled⟩ := hvalues name v hv
      exact ⟨w', by simp [hkey, hw'], hscaled⟩

/-- Scaling leaves the delta alone, or replaces the values of its resources. -/
theorem scaleGains_spec {p p' : Progress} (h : scaleGains state multiplier amplify p = .ok p') :
    p'.delta = p.delta ∨ ∃ entries scaled t t',
      p.delta.lookup Section.resources.name = .mapping entries ∧
      scaleEntries state multiplier amplify entries t = .ok (scaled, t') ∧
      p'.delta = OrderedMap.insert Section.resources.name (.mapping scaled) p.delta := by
  unfold scaleGains at h
  split at h
  next entries hentries =>
    obtain ⟨⟨scaled, t'⟩, hscaled, hp⟩ := bind_eq_ok_iff.mp h
    cases pure_eq_ok_iff.mp hp
    exact Or.inr ⟨entries, scaled, p.trace, t', hentries, hscaled, rfl⟩
  next =>
    cases h
    exact Or.inl rfl

theorem amountBefore_eq_ok {path : StatePath} (hhead : path.head = Section.resources.name)
    {name : String} (hrest : path.rest = [name]) {a : Amount}
    (h : amountBefore state name = .ok a) : a = (state.get path).amount?.getD .zero := by
  obtain ⟨held, hheld, ha⟩ := bind_eq_ok_iff.mp h
  cases pure_eq_ok_iff.mp ha
  have hentries := Tree.entries_of_section?_eq_ok hheld
  rw [Tree.get_eq_descend, hhead, hrest,
    ← Value.descend_mapping_entries _ (List.cons_ne_nil name []), hentries,
    Value.descend_mapping_cons, Value.descend_nil, Tree.lookup]
  cases OrderedMap.get? name held <;> simp [Value.amount?]

theorem scaleGain_of_le {name : String} {new stored : Int} {t t' : Trace} {scaled : Amount}
    (hbefore : ∀ a, amountBefore state name = .ok a → a = .int stored) (hle : new ≤ stored)
    (h : scaleGain state multiplier amplify name (.int new) t = .ok (scaled, t')) :
    scaled = .int new := by
  obtain ⟨before, hb, hrest⟩ := bind_eq_ok_iff.mp h
  obtain ⟨gain, hgain, hlast⟩ := bind_eq_ok_iff.mp hrest
  rw [hbefore before hb, Amount.sub_int] at hgain
  cases hgain
  have hsmall : (Amount.int (new - stored)).le .zero = true := by
    rw [Amount.zero, Amount.le_int_iff]
    omega
  rw [if_pos hsmall] at hlast
  cases pure_eq_ok_iff.mp hlast
  rfl

/-- A place under the resources keeps a whole amount that has not grown. -/
theorem get_scaleGains_of_le {p p' : Progress} {path : StatePath}
    (hhead : path.head = Section.resources.name) (hrest : path.rest ≠ []) {new stored : Int}
    (hnew : Tree.get p.delta path = .int new)
    (hstored : (state.get path).amount?.getD .zero = .int stored) (hle : new ≤ stored)
    (h : scaleGains state multiplier amplify p = .ok p') : Tree.get p'.delta path = .int new := by
  rcases scaleGains_spec h with he | ⟨entries, scaled, t, t', hentries, hscaled, he⟩
  · rw [he, hnew]
  obtain ⟨name, ks, hks⟩ := List.exists_cons_of_ne_nil hrest
  rw [Tree.get_eq_descend, hhead, hentries, hks, Value.descend_mapping_cons] at hnew
  rw [he, Tree.get_eq_descend, hhead, hks, Tree.lookup_insert_self, Value.descend_mapping_cons]
  cases hv : OrderedMap.get? name entries with
  | none => simp [Tree.lookup, hv] at hnew
  | some v =>
    obtain ⟨w, hw, hrescaled⟩ := (scaleEntries_spec hscaled).2 name v hv
    rw [Tree.lookup, hv, Option.getD_some] at hnew
    rw [Tree.lookup, hw, Option.getD_some]
    rcases hrescaled with ⟨-, rfl⟩ | ⟨amount, t₁, x, t₂, hamount, hgain, rfl⟩
    · exact hnew
    cases ks with
    | nil =>
      rw [Value.descend_nil] at hnew ⊢
      subst hnew
      cases hamount
      rw [scaleGain_of_le (fun a ha => (amountBefore_eq_ok hhead hks ha).trans hstored) hle hgain]
      rfl
    | cons k rest =>
      -- below a number there is nothing to read
      cases v <;> simp [Value.amount?, Value.descend] at hamount hnew

end

namespace Resolution

variable {c : Content} {id : String} {state : Tree} {amplify : Bool} {d d' : Draws} {r : Resolution}

theorem returns_ofEffects_iff {a : Action} {effects : Tree} :
    Returns (ofEffects c a state amplify effects) d r d' ↔
      ∃ around p p', circumstances c a state = .ok around ∧
        Returns (applyEntries around effects Progress.start) d p d' ∧
        scaleGains state around.bonus.resourceMultiplier amplify p = .ok p' ∧ r = ofProgress p' := by
  simp only [ofEffects, returns_bind_iff, returns_lift_iff, returns_pure_iff]
  constructor
  · rintro ⟨around, d₁, ⟨haround, rfl⟩, p, d₂, hp, p', d₃, ⟨hp', rfl⟩, rfl, rfl⟩
    exact ⟨around, p, p', haround, hp, hp', rfl⟩
  · rintro ⟨around, p, p', haround, hp, hp', rfl⟩
    exact ⟨around, d, ⟨haround, rfl⟩, p, d', hp, p', d', ⟨hp', rfl⟩, rfl, rfl⟩

/-- A resolution of a known action resolves the effects of the tier that applies, if it has any. -/
theorem exists_tier_of_returns {a : Action} (ha : c.action? id = some a)
    (h : Returns (resolve c id state amplify) d r d') :
    ∃ tier, a.tier state = .ok tier ∧ (tier.effects = none ∧ r.delta = [] ∨
      ∃ effects, tier.effects = some effects ∧
        Returns (ofEffects c a state amplify effects) d r d') := by
  simp only [resolve, ha, returns_bind_iff, returns_lift_iff] at h
  obtain ⟨tier, d₁, ⟨htier, rfl⟩, h⟩ := h
  refine ⟨tier, htier, ?_⟩
  split at h
  next hnone =>
    obtain ⟨rfl, -⟩ := returns_pure_iff.mp h
    exact Or.inl ⟨hnone, rfl⟩
  next effects heffects => exact Or.inr ⟨effects, heffects, h⟩

/-- Where the tier that applies has effects, an action is resolved on these. -/
theorem returns_resolve_iff {a : Action} {tier : Tier} {effects : Tree} (ha : c.action? id = some a)
    (htier : a.tier state = .ok tier) (heffects : tier.effects = some effects) :
    Returns (resolve c id state amplify) d r d' ↔ Returns (ofEffects c a state amplify effects) d r d' := by
  simp only [resolve, ha, returns_bind_iff, returns_lift_iff]
  constructor
  · rintro ⟨tier', d₁, ⟨htier', rfl⟩, h⟩
    cases htier.symm.trans htier'
    rwa [heffects] at h
  · intro h
    refine ⟨tier, d, ⟨htier, rfl⟩, ?_⟩
    rwa [heffects]

theorem state_of_circumstances {a : Action} {around : Circumstances}
    (h : circumstances c a state = .ok around) : around.state = state := by
  obtain ⟨t, -, hrest⟩ := bind_eq_ok_iff.mp h
  obtain ⟨b, -, hlast⟩ := bind_eq_ok_iff.mp hrest
  cases pure_eq_ok_iff.mp hlast
  rfl

end Resolution

theorem effects_mem_effectBlocks {a : Action} {state : Tree} {tier : Tier} {effects : Tree}
    (h : a.tier state = .ok tier) (he : tier.effects = some effects) :
    effects ∈ Content.effectBlocks a := by
  unfold Action.tier at h
  unfold Content.effectBlocks
  cases hplan : a.plan with
  | flat p =>
    rw [hplan] at h
    cases pure_eq_ok_iff.mp h
    cases he
    exact List.mem_singleton_self _
  | tiered p =>
    rw [hplan] at h
    obtain ⟨level, -, hlast⟩ := bind_eq_ok_iff.mp h
    cases pure_eq_ok_iff.mp hlast
    exact List.mem_map_of_mem (OrderedMap.mem_of_get? he)

/-- A property of deltas holds of the delta of every resolution if it holds of the empty one, and if the
writes of effects and the replacement of the values of resources keep it. -/
theorem resolve_induction {motive : Tree → Prop} {c : Content} {id : String} {state : Tree}
    {amplify : Bool} {d d' : Draws} {r : Resolution} {a : Action} (ha : c.action? id = some a)
    (h : Returns (resolve c id state amplify) d r d') (hnil : motive [])
    (hwrite : ∀ block ∈ Content.effectBlocks a, ∀ e ∈ block, ∀ q, StatePath.parse e.1 = .ok q →
      ∀ v, v.mapping? = none → ∀ delta, motive delta → motive (Delta.set delta state q v))
    (hscale : ∀ delta entries scaled, delta.lookup Section.resources.name = .mapping entries →
      OrderedMap.keys scaled = OrderedMap.keys entries → motive delta →
        motive (OrderedMap.insert Section.resources.name (.mapping scaled) delta)) :
    motive r.delta := by
  obtain ⟨tier, htier, ⟨-, hr⟩ | ⟨effects, heffects, hr⟩⟩ := Resolution.exists_tier_of_returns ha h
  · rwa [hr]
  obtain ⟨around, p, p', haround, hp, hp', rfl⟩ := Resolution.returns_ofEffects_iff.mp hr
  have hblock := effects_mem_effectBlocks htier heffects
  have hentries : motive p.delta := by
    refine applyEntries_induction (fun e he q hq v hv delta => ?_) hp hnil
    rw [Resolution.state_of_circumstances haround]
    exact hwrite effects hblock e he q hq v hv delta
  have hdelta : (Resolution.ofProgress p').delta = p'.delta := rfl
  rcases scaleGains_spec hp' with he | ⟨entries, scaled, t, t', hlook, hscaled, he⟩
  · rwa [hdelta, he]
  · rw [hdelta, he]
    exact hscale p.delta entries scaled hlook (scaleEntries_spec hscaled).1 hentries

/-- The delta of a resolution is tidy in every section in which the state is. -/
theorem tidyAt_resolve {c : Content} {id : String} {state : Tree} {amplify : Bool} {d d' : Draws}
    {r : Resolution} {k : String} (hd : state.DistinctAt k)
    (h : Returns (resolve c id state amplify) d r d') : Delta.TidyAt r.delta state k := by
  cases ha : c.action? id with
  | none =>
    simp only [resolve, ha] at h
    obtain ⟨rfl, -⟩ := returns_pure_iff.mp h
    exact Delta.tidyAt_nil state k
  | some a =>
    refine resolve_induction (motive := fun delta => Delta.TidyAt delta state k) ha h
      (Delta.tidyAt_nil state k) ?_ ?_
    · exact fun _ _ _ _ _ _ _ hv _ ht => ht.set hd (Or.inr hv)
    · intro delta entries scaled hlook hkeys ht
      refine ht.insert ?_
      rintro rfl es he
      cases he
      rw [hkeys]
      exact ht.section_spec _ hlook

theorem tidy_resolve {c : Content} {id : String} {state : Tree} {amplify : Bool} {d d' : Draws}
    {r : Resolution} (hd : state.Distinct) (h : Returns (resolve c id state amplify) d r d') :
    Delta.Tidy r.delta state :=
  Delta.tidy_iff.mpr fun k => tidyAt_resolve (hd k) h

end SurvivalRules
