import SurvivalRules.Proofs.Content.Loaded
import SurvivalRules.Proofs.Discount
import SurvivalRules.Proofs.Resolve.Counting
import SurvivalRules.Proofs.Resolve.Deletion
import SurvivalRules.Proofs.Resolve.Plain

/-!
# Amplified gains

An amplified run is the plain run but for the net gains, which it makes ten times as large. With whole
numbers a multiplier takes back at most what was gained, so that a net gain never turns into a loss before
it is amplified.
-/
namespace SurvivalRules

open Drawing

/-- The amount of a resource that a state holds; what is missing or no number counts as zero. -/
def Tree.heldAmount (t : Tree) (name : String) : Amount :=
  (Tree.lookup (t.lookup Section.resources.name).entries name).amount?.getD .zero

theorem heldAmount_of_amountBefore {state : Tree} {name : String} {a : Amount}
    (h : amountBefore state name = .ok a) : state.heldAmount name = a := by
  obtain ⟨held, hheld, ha⟩ := bind_eq_ok_iff.mp h
  cases pure_eq_ok_iff.mp ha
  rw [Tree.heldAmount, Tree.entries_of_section?_eq_ok hheld, Tree.lookup]
  cases OrderedMap.get? name held <;> simp [Value.amount?]

/-! ## What a multiplier adds -/

namespace Binary64

theorem exists_of_toRat?_sub_one {m : Binary64} {r : ℚ} (h : (m.sub one).toRat? = some r) :
    ∃ q, m.toRat? = some q ∧ r = roundedValue (q - 1) := by
  have hone : one.toRat? = some ((1 : ℤ) : ℚ) := toRat?_ofInt (by decide)
  obtain ⟨q, p, hq, hp, rfl⟩ := exists_of_toRat?_sub h
  cases hone.symm.trans hp
  exact ⟨q, hq, by rw [Int.cast_one]⟩

end Binary64

/-- What a multiplier adds to a whole gain. -/
def extraGain (multiplier : Binary64) (gain : ℤ) : Except Fault ℤ :=
  if Bonus.isOne multiplier then .ok 0 else multiplierExtra multiplier (.int gain)

/-- What is added to a whole gain is rounded in each step, and the multiplier is finite. -/
theorem exists_of_multiplierExtra {m : Binary64} {gain extra : ℤ} (hgain : gain.natAbs ≤ significandBound)
    (h : multiplierExtra m (.int gain) = .ok extra) :
    ∃ q, m.toRat? = some q ∧ extra = ⌊Binary64.roundedValue (gain * Binary64.roundedValue (q - 1))⌋ := by
  obtain ⟨y, hy, hfloor⟩ := bind_eq_ok_iff.mp h
  obtain ⟨x, hx, hmul⟩ := bind_eq_ok_iff.mp hy
  rw [Amount.toBinary64_int hgain] at hx
  cases hx
  cases hmul
  obtain ⟨r, hr, rfl⟩ := exists_toRat?_of_floor hfloor
  obtain ⟨p, f, hp, hf, rfl⟩ := Binary64.exists_of_toRat?_mul hr
  rw [Binary64.toRat?_ofInt hgain] at hp
  cases hp
  obtain ⟨q, hq, rfl⟩ := Binary64.exists_of_toRat?_sub_one hf
  exact ⟨q, hq, rfl⟩

/-- A multiplier that is not negative takes back at most the whole gain. -/
theorem neg_le_of_extraGain {m : Binary64} {gain extra : ℤ} (hm : m = .nan ∨ m.NonNegative)
    (hpos : 0 ≤ gain) (hgain : gain ≤ significandBound) (h : extraGain m gain = .ok extra) :
    -gain ≤ extra := by
  unfold extraGain at h
  split at h
  · cases h
    omega
  obtain ⟨q, hq, rfl⟩ := exists_of_multiplierExtra (by omega) h
  have hq0 : 0 ≤ q := by
    rcases hm with rfl | hm
    · cases hq
    · exact (Binary64.nonNegative_iff_of_toRat? hq).mp hm
  have hlow : ((-1 : ℤ) : ℚ) ≤ Binary64.roundedValue (q - 1) := by
    rw [← Binary64.roundedValue_intCast (n := -1) (by decide)]
    exact Binary64.roundedValue_mono (by push_cast; linarith)
  have hproduct : ((-gain : ℤ) : ℚ) ≤ gain * Binary64.roundedValue (q - 1) := by
    have hcast : (0 : ℚ) ≤ gain := by exact_mod_cast hpos
    push_cast at hlow ⊢
    nlinarith
  have hrounded := Binary64.roundedValue_mono hproduct
  rw [Binary64.roundedValue_intCast (by omega)] at hrounded
  exact Int.le_floor.mpr hrounded

section

variable {m : Binary64} {name : String} {state : Tree} {new gain b : ℤ} {amplify : Bool} {x : Amount}
  {t t' : Trace}

theorem multiplyGain_int (h : multiplyGain m name (.int new) (.int gain) t = .ok (x, t')) :
    ∃ extra, extraGain m gain = .ok extra ∧ x = .int (new + extra) := by
  unfold multiplyGain at h
  split at h
  next hone =>
    cases h
    exact ⟨0, by rw [extraGain, if_pos hone], by rw [add_zero]⟩
  next hone =>
    obtain ⟨extra, hextra, h⟩ := bind_eq_ok_iff.mp h
    refine ⟨extra, by rw [extraGain, if_neg hone, hextra], ?_⟩
    split at h
    next hzero =>
      cases h
      rw [hzero, add_zero]
    next =>
      obtain ⟨more, hmore, h⟩ := bind_eq_ok_iff.mp h
      obtain ⟨line, -, h⟩ := bind_eq_ok_iff.mp h
      cases pure_eq_ok_iff.mp h
      cases hmore
      rfl

theorem amplifyGain_int (h : amplifyGain name (.int b) (.int new) t = .ok (x, t')) :
    x = .int (b + (new - b) * 10) := by
  obtain ⟨gain, hgain, h⟩ := bind_eq_ok_iff.mp h
  obtain ⟨more, hmore, h⟩ := bind_eq_ok_iff.mp h
  obtain ⟨total, htotal, h⟩ := bind_eq_ok_iff.mp h
  obtain ⟨shown, -, h⟩ := bind_eq_ok_iff.mp h
  obtain ⟨line, -, h⟩ := bind_eq_ok_iff.mp h
  cases pure_eq_ok_iff.mp h
  cases hgain
  cases hmore
  cases htotal
  rfl

/-- Only a net gain is scaled: first it is multiplied, then amplified. -/
theorem scaleGain_int (hb : state.heldAmount name = .int b)
    (h : scaleGain state m amplify name (.int new) t = .ok (x, t')) :
    (new ≤ b ∧ x = .int new) ∨ (b < new ∧ ∃ extra, extraGain m (new - b) = .ok extra ∧
      x = .int (if amplify then b + (new + extra - b) * 10 else new + extra)) := by
  obtain ⟨before, hbefore, h⟩ := bind_eq_ok_iff.mp h
  cases hb.symm.trans (heldAmount_of_amountBefore hbefore)
  obtain ⟨gain, hgain, h⟩ := bind_eq_ok_iff.mp h
  rw [Amount.sub_int] at hgain
  cases hgain
  split at h
  next hle =>
    rw [Amount.zero, Amount.le_int_iff] at hle
    cases h
    exact Or.inl ⟨by omega, rfl⟩
  next hnot =>
    rw [Amount.zero, Amount.le_int_iff] at hnot
    obtain ⟨⟨more, t₁⟩, hmore, h⟩ := bind_eq_ok_iff.mp h
    obtain ⟨extra, hextra, rfl⟩ := multiplyGain_int hmore
    refine Or.inr ⟨by omega, extra, hextra, ?_⟩
    cases amplify with
    | true => exact amplifyGain_int h
    | false =>
      cases pure_eq_ok_iff.mp h
      rfl

end

/-! ## A plain and an amplified value -/

/-- An entry of the resources after a plain run and after an amplified one. Ten times the net gain comes of
it, and what is no net gain stays as it is. -/
def Amplified (state : Tree) (plain amplified : String × Value) : Prop :=
  amplified.1 = plain.1 ∧
    ((∃ b p q : ℤ, state.heldAmount plain.1 = .int b ∧ plain.2 = .int p ∧ amplified.2 = .int q ∧
        (b ≤ p → q - b = 10 * (p - b)) ∧ (p < b → q = p)) ∨
      plain.2.amount? = none ∧ amplified.2 = plain.2)

/-- By how much an entry of the resources has moved from what the state holds of it, in whole numbers. -/
def netChange? (state : Tree) (e : String × Value) : Option ℤ :=
  match e.2.amount?, state.heldAmount e.1 with
  | some (.int n), .int b => some (n - b)
  | _, _ => none

theorem Tree.WholeResources.heldAmount {state : Tree} (h : state.WholeResources) (name : String) :
    ∃ b : ℤ, state.heldAmount name = .int b :=
  (h.lookup name).getD_zero

theorem amplified_of_rescaled {state : Tree} {m : Binary64} {name : String} {v plain amplified : Value}
    (hstate : state.WholeResources) (hm : m = .nan ∨ m.NonNegative) (hv : v.IsWhole)
    (hchange : ∀ n ∈ netChange? state (name, v), n ≤ significandBound)
    (h : rescaled state m false name v = .ok plain) (h' : rescaled state m true name v = .ok amplified) :
    Amplified state (name, plain) (name, amplified) := by
  refine ⟨rfl, ?_⟩
  cases hamount : v.amount? with
  | none =>
    cases (rescaled_of_none hamount).symm.trans h
    cases (rescaled_of_none hamount).symm.trans h'
    exact Or.inr ⟨hamount, rfl⟩
  | some a =>
    obtain ⟨new, rfl⟩ := hv a hamount
    obtain ⟨b, hb⟩ := hstate.heldAmount name
    have hle : new - b ≤ significandBound := hchange _ (by simp [netChange?, hamount, hb])
    obtain ⟨x, t, hx, rfl⟩ := (rescaled_eq_ok_iff hamount (Trace.empty "Effects")).mp h
    obtain ⟨y, u, hy, rfl⟩ := (rescaled_eq_ok_iff hamount (Trace.empty "Effects")).mp h'
    left
    rcases scaleGain_int hb hx with ⟨hloss, rfl⟩ | ⟨hgain, extra, hextra, rfl⟩
    · rcases scaleGain_int hb hy with ⟨-, rfl⟩ | ⟨hgain, -⟩
      · exact ⟨b, new, new, hb, rfl, rfl, by omega, fun _ => rfl⟩
      · omega
    · rcases scaleGain_int hb hy with ⟨hloss, -⟩ | ⟨-, extra', hextra', rfl⟩
      · omega
      · cases hextra.symm.trans hextra'
        have hback := neg_le_of_extraGain hm (by omega) hle hextra
        exact ⟨b, new + extra, b + (new + extra - b) * 10, hb, rfl, rfl, by omega, by omega⟩

/-! ## A plain and an amplified run -/

/-- A section after a plain run and after an amplified one. -/
inductive AmplifiedSection (state : Tree) : Value → Value → Prop
  | entries {plain amplified : Tree} (h : List.Forall₂ (Amplified state) plain amplified) :
    AmplifiedSection state (.mapping plain) (.mapping amplified)
  | other {v : Value} (h : v.mapping? = none) : AmplifiedSection state v v

/-- Two deltas that differ in the net gains of resources only, which are ten times as large in the second. -/
structure Delta.Amplifies (state plain amplified : Tree) : Prop where
  keys : OrderedMap.keys amplified = OrderedMap.keys plain
  others : ∀ k, k ≠ Section.resources.name → OrderedMap.get? k amplified = OrderedMap.get? k plain
  resources : AmplifiedSection state (plain.lookup Section.resources.name)
    (amplified.lookup Section.resources.name)

theorem Delta.amplifies_of_not_mapping {state delta : Tree}
    (h : ∀ held, delta.lookup Section.resources.name ≠ .mapping held) : Delta.Amplifies state delta delta where
  keys := rfl
  others := fun _ _ => rfl
  resources := .other (by cases hlook : delta.lookup Section.resources.name <;> simp_all [Value.mapping?])

/-- Scaled with and without amplification, the same whole resources differ in their net gains only. -/
theorem amplifies_of_scaleGains {state : Tree} {m : Binary64} {p plain amplified : Progress}
    (hstate : state.WholeResources) (hm : m = .nan ∨ m.NonNegative) (hp : p.delta.WholeResources)
    (hchange : ∀ e ∈ (p.delta.lookup Section.resources.name).entries,
      ∀ n ∈ netChange? state e, n ≤ significandBound)
    (h : scaleGains state m false p = .ok plain) (h' : scaleGains state m true p = .ok amplified) :
    Delta.Amplifies state plain.delta amplified.delta := by
  obtain ⟨hplain, hall⟩ := delta_scaleGains h
  obtain ⟨hamplified, hall'⟩ := delta_scaleGains h'
  rw [hplain, hamplified]
  cases hlook : p.delta.lookup Section.resources.name with
  | mapping held =>
    rw [hlook] at hchange hall hall'
    rw [Tree.WholeResources, hlook] at hp
    have hentry : ∀ e ∈ held, Amplified state (e.1, rescale state m false e.1 e.2)
        (e.1, rescale state m true e.1 e.2) := by
      intro e he
      obtain ⟨v, hv⟩ := hall e he
      obtain ⟨w, hw⟩ := hall' e he
      rw [rescale_of_ok hv, rescale_of_ok hw]
      exact amplified_of_rescaled hstate hm (hp e he) (hchange e he) hv hw
    have hmem := Tree.resources_mem_keys hlook
    rw [Tree.mapResources_of_mapping hlook, Tree.mapResources_of_mapping hlook]
    refine ⟨?_, fun k hk => ?_, ?_⟩
    · rw [OrderedMap.keys_insert, OrderedMap.keys_insert]
    · rw [OrderedMap.get?_insert_of_ne hk.symm, OrderedMap.get?_insert_of_ne hk.symm]
    · rw [Tree.lookup_insert_self, Tree.lookup_insert_self]
      refine .entries (List.forall₂_map_left_iff.mpr (List.forall₂_map_right_iff.mpr ?_))
      exact List.forall₂_same.mpr hentry
  | _ =>
    have hother : ∀ held, p.delta.lookup Section.resources.name ≠ .mapping held := by simp [hlook]
    rw [Tree.mapResources_of_not_mapping hother, Tree.mapResources_of_not_mapping hother]
    exact Delta.amplifies_of_not_mapping hother

theorem told_scaleGains {state : Tree} {m : Binary64} {amplify : Bool} {p p' : Progress}
    (h : scaleGains state m amplify p = .ok p') :
    p'.logMessages = p.logMessages ∧ p'.triggeredEvents = p.triggeredEvents := by
  unfold scaleGains at h
  split at h
  · obtain ⟨⟨scaled, t⟩, -, hp⟩ := bind_eq_ok_iff.mp h
    cases pure_eq_ok_iff.mp hp
    exact ⟨rfl, rfl⟩
  · cases h
    exact ⟨rfl, rfl⟩

/-- Two resolutions that tell the same, of which the second has ten times the net gains. -/
structure Resolution.Amplifies (state : Tree) (plain amplified : Resolution) : Prop where
  delta : Delta.Amplifies state plain.delta amplified.delta
  logMessages : amplified.logMessages = plain.logMessages
  triggeredEvents : amplified.triggeredEvents = plain.triggeredEvents

theorem Resolution.amplifies_nothing (state : Tree) (reason : String) :
    Amplifies state (.nothing reason) (.nothing reason) where
  delta := Delta.amplifies_of_not_mapping fun _ hlook => by cases hlook
  logMessages := rfl
  triggeredEvents := rfl

/-- What the entries of an action have collected, with the draws they left, before gains are scaled. -/
def Collects (c : Content) (id : String) (state : Tree) (d : Draws) (p : Progress) (d' : Draws) : Prop :=
  ∃ a tier effects around, c.action? id = some a ∧ a.tier state = .ok tier ∧ tier.effects = some effects ∧
    Resolution.circumstances c a state = .ok around ∧
    Returns (applyEntries around effects Progress.start) d p d'

/-- An action, a state and items that count resources in whole numbers. -/
structure CountsWhole (c : Content) (id : String) (state : Tree) : Prop where
  gains : ∀ i ∈ OrderedMap.values c.items, ∀ e ∈ i.actionBonuses, e.2.HasWholeGains
  effects : ∀ a, c.action? id = some a → ∀ block ∈ Content.effectBlocks a, ∀ e ∈ block,
    Effect.countsWhole e = true
  resources : state.WholeResources

/-- From the same draws a plain and an amplified run take the same ones, tell the same and write the same
but for the resources. There an amplified net gain is ten times the plain one, and nothing else has changed.
-/
theorem resolve_amplify {c : Content} {id : String} {state : Tree} {d d₁ d₂ : Draws}
    {plain amplified : Resolution} (hc : c.ItemsChecked) (hwhole : CountsWhole c id state)
    (hchange : ∀ p d', Collects c id state d p d' →
      ∀ e ∈ (p.delta.lookup Section.resources.name).entries, ∀ n ∈ netChange? state e, n ≤ significandBound)
    (h : Returns (resolve c id state false) d plain d₁)
    (h' : Returns (resolve c id state true) d amplified d₂) :
    d₂ = d₁ ∧ plain.Amplifies state amplified := by
  cases ha : c.action? id with
  | none =>
    simp only [resolve, ha, returns_pure_iff] at h h'
    obtain ⟨rfl, rfl⟩ := h
    obtain ⟨rfl, rfl⟩ := h'
    exact ⟨rfl, Resolution.amplifies_nothing state _⟩
  | some a =>
    simp only [resolve, ha, returns_bind_iff, returns_lift_iff] at h h'
    obtain ⟨tier, _, ⟨htier, rfl⟩, h⟩ := h
    obtain ⟨tier', _, ⟨htier', rfl⟩, h'⟩ := h'
    cases htier.symm.trans htier'
    cases heffects : tier.effects with
    | none =>
      simp only [heffects, returns_pure_iff] at h h'
      obtain ⟨rfl, rfl⟩ := h
      obtain ⟨rfl, rfl⟩ := h'
      exact ⟨rfl, Resolution.amplifies_nothing state _⟩
    | some effects =>
      simp only [heffects, Resolution.returns_ofEffects_iff] at h h'
      obtain ⟨around, p, q, haround, hp, hq, rfl⟩ := h
      obtain ⟨around', p', q', haround', hp', hq', rfl⟩ := h'
      cases haround.symm.trans haround'
      obtain ⟨rfl, rfl⟩ := returns_unique hp hp'
      have hstate := Resolution.state_of_circumstances haround
      have hbonus := Resolution.bonus_of_circumstances Bonus.isKept_hasWholeGains hwhole.gains haround
      have hmultiplier := Resolution.bonus_of_circumstances Bonus.isKept_neverDeducts (fun i hi e he =>
        Bonus.neverDeducts_of_not_le_zero ((hc i hi).multipliers e he)) haround
      have hresources : around.state.WholeResources := by
        rw [hstate]
        exact hwhole.resources
      have hcollected : p.delta.WholeResources :=
        wholeResources_applyEntries hresources hbonus Progress.wholeResources_start
          (hwhole.effects a ha effects (effects_mem_effectBlocks htier heffects)) hp
      have hbounded := hchange p d₁ ⟨a, tier, effects, around, ha, htier, heffects, haround, hp⟩
      obtain ⟨hlogs, hevents⟩ := told_scaleGains hq
      obtain ⟨hlogs', hevents'⟩ := told_scaleGains hq'
      exact ⟨rfl, amplifies_of_scaleGains hwhole.resources hmultiplier hcollected hbounded hq hq',
        hlogs'.trans hlogs.symm, hevents'.trans hevents.symm⟩

deriving instance DecidableEq for Circumstances

deriving instance DecidableEq for Progress

/-- A lens with which foraging finds two more wood, and half as much again of what it finds. -/
def lens : Item where
  id := "lens"
  name := "Lens"
  description := ""
  slot := .relics
  actionBonuses := [("forage", ⟨[("wood", .int 2)], Binary64.nearest (3 / 2), Binary64.zero, Binary64.zero⟩)]
  generalBonuses := GeneralBonuses.none

def forageEffects : Tree :=
  [("flags.nest", .mapping [("probability", threeQuarters), ("value", .bool true),
      ("logMessage", .text "A nest!"), ("triggerEvent", .text "nest")]),
    ("resources.wood", .text "random(1,3)"), ("resources.food", .int (-1))]

def forage : Action where
  id := "forage"
  label := "Forage"
  description := ""
  category := none
  statsEffects := []
  craftingCostReduction := Binary64.zero
  buildingCostReduction := Binary64.zero
  plan := .flat ⟨some [], [], forageEffects, Binary64.zero⟩

def forest : Content := ⟨[("forage", forage)], [("lens", lens)], [], []⟩

def forestState : Tree :=
  [("resources", .mapping [("wood", .int 5), ("food", .int 4)]), ("relics", .mapping [("lens", .bool true)])]

/-- What foraging leaves of the sections, with that much wood. -/
def foraged (wood : ℤ) : Tree :=
  [("flags", .mapping [("nest", .bool true)]), ("resources", .mapping [("wood", .int wood), ("food", .int 3)])]

def forageLines : List String :=
  ["[Effects] flags.nest: roll 0.0000 < chance 0.7500, fired",
    "[Effects] resources.wood: random(1,3) rolled 3 +2 bonus"]

/-- What foraging is done under, with the lens. -/
def foraging : Circumstances :=
  ⟨forestState, ⟨[("wood", .int 2)], Binary64.nearest (3 / 2), Binary64.zero, Binary64.zero⟩, none, .int 0⟩

theorem tier_forage : forage.tier forestState = .ok ⟨none, some [], some [], some forageEffects, Binary64.zero⟩ := by
  decide +kernel

theorem circumstances_forage : Resolution.circumstances forest forage forestState = .ok foraging := by
  decide +kernel

theorem applyEntries_forage : Returns (applyEntries foraging forageEffects Progress.start) (byTurns 0)
    ⟨foraged 10, ["A nest!"], ["nest"], ⟨"Effects", forageLines⟩⟩ (byTurns 2) := by
  decide +kernel

theorem resolve_forage : Returns (resolve forest "forage" forestState false) (byTurns 0)
    ⟨foraged 12, ["A nest!"], ["nest"], forageLines ++ ["[Effects] resources.wood: x1.5 multiplier adds 2"]⟩
    (byTurns 2) := by
  decide +kernel

theorem forestState_wholeResources : forestState.WholeResources := by
  have hlook : forestState.lookup Section.resources.name = .mapping [("wood", .int 5), ("food", .int 4)] := rfl
  simp [Tree.WholeResources, hlook, Value.entries, Value.IsWhole, Value.amount?, Amount.IsWhole]

/-- The five wood that foraging finds are seven with the lens, and seventy when they are amplified; the food
is lost once. -/
theorem forage_amplified :
    ∃ plain amplified : Resolution, plain.delta = foraged 12 ∧ amplified.delta = foraged 75 ∧
      Returns (resolve forest "forage" forestState false) (byTurns 0) plain (byTurns 2) ∧
      Returns (resolve forest "forage" forestState true) (byTurns 0) amplified (byTurns 2) ∧
      plain.Amplifies forestState amplified := by
  have hamplified : Returns (resolve forest "forage" forestState true) (byTurns 0)
      ⟨foraged 75, ["A nest!"], ["nest"], forageLines ++ ["[Effects] resources.wood: x1.5 multiplier adds 2",
        "[Effects] resources.wood: amplified gain to 70"]⟩ (byTurns 2) := by decide +kernel
  have hitems : ∀ i ∈ OrderedMap.values forest.items, i = lens := by simp [forest, OrderedMap.values]
  have haction : forest.action? "forage" = some forage := rfl
  have hchecked : forest.ItemsChecked := by
    intro i hi
    rw [hitems i hi]
    exact ⟨by decide +kernel, by decide +kernel⟩
  have hwhole : CountsWhole forest "forage" forestState := by
    refine ⟨fun i hi => ?_, fun a ha => ?_, forestState_wholeResources⟩
    · rw [hitems i hi]
      simp [lens, Bonus.HasWholeGains, Amount.IsWhole]
    · cases haction.symm.trans ha
      decide +kernel
  refine ⟨_, _, rfl, rfl, resolve_forage, hamplified, (resolve_amplify hchecked hwhole ?_ resolve_forage hamplified).2⟩
  rintro p d' ⟨a, tier, effects, around, ha, ht, heffects, hc, hp⟩
  cases haction.symm.trans ha
  cases tier_forage.symm.trans ht
  cases heffects
  cases circumstances_forage.symm.trans hc
  obtain ⟨rfl, rfl⟩ := returns_unique applyEntries_forage hp
  decide +kernel

end SurvivalRules
