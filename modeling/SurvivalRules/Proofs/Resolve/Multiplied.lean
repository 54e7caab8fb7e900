import SurvivalRules.Proofs.Resolve.Amplify

/-!
# Gains that are multiplied

A multiplier above zero scales net gains and nothing else. What it makes of a whole gain is a whole gain again:
never less than nothing, no less than before with a multiplier of at least one, and no more with one of at most
one.
-/
namespace SurvivalRules

open Drawing

/-- What a multiplier adds to a gain has the sign of what it has above one. -/
theorem sign_of_extraGain {m : Binary64} {gain extra : ℤ} (hpos : 0 ≤ gain) (hgain : gain ≤ significandBound)
    (h : extraGain m gain = .ok extra) :
    ((Amount.int 1).le (.float m) = true → 0 ≤ extra) ∧ ((Amount.float m).le (.int 1) = true → extra ≤ 0) := by
  unfold extraGain at h
  split at h
  · cases h
    exact ⟨fun _ => le_rfl, fun _ => le_rfl⟩
  obtain ⟨q, hq, rfl⟩ := exists_of_multiplierExtra (by omega) h
  have hcast : (0 : ℚ) ≤ gain := by exact_mod_cast hpos
  constructor
  · intro hone
    rw [Amount.le_iff_of_point? (Amount.point?_int 1) (Amount.point?_float hq), Int.cast_one] at hone
    have hshare := Binary64.roundedValue_nonneg (sub_nonneg.mpr hone)
    exact Int.floor_nonneg.mpr (Binary64.roundedValue_nonneg (mul_nonneg hcast hshare))
  · intro hone
    rw [Amount.le_iff_of_point? (Amount.point?_float hq) (Amount.point?_int 1), Int.cast_one] at hone
    have hshare := Binary64.roundedValue_nonpos (sub_nonpos.mpr hone)
    have hproduct := Binary64.roundedValue_nonpos (mul_nonpos_of_nonneg_of_nonpos hcast hshare)
    exact_mod_cast (Int.floor_le _).trans hproduct

theorem extraGain_of_isOne {m : Binary64} {gain extra : ℤ} (hone : Bonus.isOne m = true)
    (h : extraGain m gain = .ok extra) : extra = 0 := by
  rw [extraGain, if_pos hone] at h
  exact (Except.ok.inj h).symm

/-- What a multiplier makes of the value of a resource: what is no number and what has not grown stays as it is,
and a gain becomes another one. -/
inductive Multiplied (m : Binary64) (state : Tree) (name : String) : Value → Value → Prop
  | other {v : Value} (hother : v.amount? = none) : Multiplied m state name v v
  | kept {b new : ℤ} (hheld : state.heldAmount name = .int b) (hle : new ≤ b) :
    Multiplied m state name (.int new) (.int new)
  | gained {b new gain : ℤ} (hheld : state.heldAmount name = .int b) (hlt : b < new) (hnonneg : 0 ≤ gain)
    (hraise : (Amount.int 1).le (.float m) = true → new - b ≤ gain)
    (hlower : (Amount.float m).le (.int 1) = true → gain ≤ new - b)
    (hone : Bonus.isOne m = true → gain = new - b) : Multiplied m state name (.int new) (.int (b + gain))

theorem multiplied_of_rescaled {state : Tree} {m : Binary64} {name : String} {v w : Value}
    (hstate : state.WholeResources) (hm : Amount.zero.lt (.float m) = true) (hv : v.IsWhole)
    (hchange : ∀ n ∈ netChange? state (name, v), n ≤ significandBound)
    (h : rescaled state m false name v = .ok w) : Multiplied m state name v w := by
  cases hamount : v.amount? with
  | none =>
    cases (rescaled_of_none hamount).symm.trans h
    exact .other hamount
  | some a =>
    obtain ⟨new, rfl⟩ := hv a hamount
    obtain ⟨b, hb⟩ := hstate.heldAmount name
    have hle : new - b ≤ significandBound := hchange _ (by simp [netChange?, hamount, hb])
    have hvalue : v = .int new := by
      cases v <;> simp_all [Value.amount?]
    obtain ⟨x, t, hx, rfl⟩ := (rescaled_eq_ok_iff hamount (Trace.empty "Effects")).mp h
    rcases scaleGain_int hb hx with ⟨hloss, rfl⟩ | ⟨hgain, extra, hextra, rfl⟩
    · exact hvalue ▸ .kept hb hloss
    · have hback := neg_le_of_extraGain (Or.inr (Binary64.nonNegative_of_zero_lt hm)) (by omega) hle hextra
      obtain ⟨hraise, hlower⟩ := sign_of_extraGain (by omega) hle hextra
      have htotal : new + extra = b + (new - b + extra) := by omega
      rw [hvalue, if_neg Bool.false_ne_true, htotal]
      refine .gained hb hgain (by omega) (fun h1 => ?_) (fun h1 => ?_) (fun h1 => ?_)
      · have := hraise h1
        omega
      · have := hlower h1
        omega
      · have := extraGain_of_isOne h1 hextra
        omega

/-- Scaled by a multiplier above zero, every resource of a delta of whole numbers is multiplied, and all else
stays. -/
theorem multiplied_of_scaleGains {state : Tree} {m : Binary64} {p p' : Progress} (hstate : state.WholeResources)
    (hm : Amount.zero.lt (.float m) = true) (hp : p.delta.WholeResources)
    (hchange : ∀ e ∈ (p.delta.lookup Section.resources.name).entries,
      ∀ n ∈ netChange? state e, n ≤ significandBound)
    (h : scaleGains state m false p = .ok p') :
    ∃ f, p'.delta = p.delta.mapResources f ∧
      ∀ e ∈ (p.delta.lookup Section.resources.name).entries, Multiplied m state e.1 e.2 (f e.1 e.2) := by
  obtain ⟨hdelta, hall⟩ := delta_scaleGains h
  refine ⟨_, hdelta, fun e he => ?_⟩
  obtain ⟨w, hw⟩ := hall e he
  rw [rescale_of_ok hw]
  exact multiplied_of_rescaled hstate hm (hp e he) (hchange e he) hw

/-- With whole resources, effects and bonuses, a resolution multiplies what the entries have collected, if the
net gains can be told exactly: no resource that has not grown is changed, and no gain becomes a loss. -/
theorem resolve_multiplies_gains {c : Content} {id : String} {a : Action} {state effects : Tree} {tier : Tier}
    {around : Circumstances} {d d' : Draws} {r : Resolution} (ha : c.action? id = some a)
    (htier : a.tier state = .ok tier) (heffects : tier.effects = some effects)
    (haround : Resolution.circumstances c a state = .ok around) (hresources : state.WholeResources)
    (hcounts : ∀ e ∈ effects, Effect.countsWhole e = true) (hgains : around.bonus.HasWholeGains)
    (hm : Amount.zero.lt (.float around.bonus.resourceMultiplier) = true)
    (h : Returns (resolve c id state false) d r d') :
    ∃ p, Returns (applyEntries around effects Progress.start) d p d' ∧
      ((∀ e ∈ (p.delta.lookup Section.resources.name).entries, ∀ n ∈ netChange? state e, n ≤ significandBound) →
        ∃ f, r.delta = p.delta.mapResources f ∧ ∀ e ∈ (p.delta.lookup Section.resources.name).entries,
          Multiplied around.bonus.resourceMultiplier state e.1 e.2 (f e.1 e.2)) := by
  obtain ⟨around', p, p', haround', hp, hscaled, rfl⟩ :=
    Resolution.returns_ofEffects_iff.mp ((Resolution.returns_resolve_iff ha htier heffects).mp h)
  cases haround.symm.trans haround'
  have hwhole : around.state.WholeResources := by
    rwa [Resolution.state_of_circumstances haround]
  have hcollected := wholeResources_applyEntries hwhole hgains Progress.wholeResources_start hcounts hp
  exact ⟨p, hp, fun hchange => multiplied_of_scaleGains hresources hm hcollected hchange hscaled⟩

/-- Half as much again makes seven wood of the five that foraging finds; the food that it costs is not scaled. -/
theorem forage_multiplied :
    Returns (resolve forest "forage" forestState false) (byTurns 0)
        ⟨foraged 12, ["A nest!"], ["nest"], forageLines ++ ["[Effects] resources.wood: x1.5 multiplier adds 2"]⟩
        (byTurns 2) ∧
      ∃ f, foraged 12 = (foraged 10).mapResources f ∧
        Multiplied (Binary64.nearest (3 / 2)) forestState "wood" (.int 10) (f "wood" (.int 10)) ∧
        Multiplied (Binary64.nearest (3 / 2)) forestState "food" (.int 3) (f "food" (.int 3)) := by
  obtain ⟨p, hp, hmultiplies⟩ := resolve_multiplies_gains rfl tier_forage rfl circumstances_forage
    forestState_wholeResources (by decide +kernel) (by simp [foraging, Bonus.HasWholeGains, Amount.IsWhole])
    (by decide +kernel) resolve_forage
  obtain ⟨rfl, -⟩ := returns_unique applyEntries_forage hp
  obtain ⟨f, hdelta, hall⟩ := hmultiplies (by decide +kernel)
  exact ⟨resolve_forage, f, hdelta, hall ("wood", .int 10) (by decide +kernel), hall ("food", .int 3) (by decide +kernel)⟩

end SurvivalRules
