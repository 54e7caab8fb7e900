import SurvivalRules.Proofs.Totals.Bonuses

/-!
# Entries that count in whole numbers

When the amounts of resources, the gains that items declare and the resources of the state are whole, so are the
resources that the entries of an action collect.
-/
namespace SurvivalRules

open Drawing

def Amount.isWhole : Amount → Bool
  | .int _ => true
  | .float _ => false

theorem Amount.isWhole_iff {a : Amount} : a.isWhole = true ↔ a.IsWhole := by
  cases a <;> simp [isWhole, IsWhole]

def Outcome.isWhole : Outcome → Bool
  | .constant (.amount a) => a.isWhole
  | _ => true

/-- An outcome that cannot be read has no effect. -/
def Effect.isWhole : Effect → Bool
  | .sure o => o.isWhole
  | .chance k => k.outcome.toOption.all Outcome.isWhole

/-- An entry of the effects that counts a resource in whole numbers, if it names a resource at all. -/
def Effect.countsWhole (e : String × Value) : Bool :=
  match StatePath.parse e.1, Effect.ofValue e.2 with
  | .ok path, .ok effect => path.resource?.isNone || effect.isWhole
  | _, _ => true

theorem Effect.isWhole_of_countsWhole {raw : String} {v : Value} {path : StatePath} {effect : Effect}
    (h : countsWhole (raw, v) = true) (hpath : StatePath.parse raw = .ok path)
    (heffect : ofValue v = .ok effect) (hresource : path.resource? ≠ none) : effect.isWhole = true := by
  unfold countsWhole at h
  simp only [hpath, heffect, Bool.or_eq_true, Option.isNone_iff_eq_none] at h
  exact h.resolve_left hresource

/-- Writes keep resources whole if what is written to a resource is. -/
theorem Tree.WholeResources.write {state delta : Tree} (hstate : state.WholeResources)
    (hdelta : delta.WholeResources) {path : StatePath} {v : Value} (hv : path.resource? ≠ none → v.IsWhole)
    (hflat : v.mapping? = none) : (Delta.set delta state path v).WholeResources := by
  unfold WholeResources
  by_cases hhead : path.head = Section.resources.name
  · rcases hrest : path.rest with _ | ⟨name, _ | ⟨k, ks⟩⟩
    · rw [Delta.set_of_rest_eq_nil delta state hrest, hhead, lookup_insert_self]
      cases v <;> simp [Value.entries, Value.mapping?] at hflat ⊢
    all_goals
      have hbase : ∀ e ∈ Delta.base delta state Section.resources.name, e.2.IsWhole := by
        unfold Delta.base
        split
        next es hes =>
          unfold WholeResources at hdelta
          rwa [hes] at hdelta
        next => exact hstate
      rw [Delta.set_of_rest_ne_nil delta state (by simp [hrest]), hhead, lookup_insert_self, hrest]
      intro e he
      rcases OrderedMap.mem_insert he with rfl | hmem
    · exact hv (by simp [StatePath.resource?_eq_some_iff.mpr ⟨hhead, hrest⟩])
    · exact hbase e hmem
    · exact fun a ha => by cases ha
    · exact hbase e hmem
  · obtain ⟨x, hx⟩ := Delta.exists_set_eq_insert delta state path v
    rw [hx, lookup_insert_of_ne hhead]
    exact hdelta

theorem Progress.wholeResources_start : start.delta.WholeResources := by
  simp [Tree.WholeResources, start, Tree.lookup, Value.entries]

section

variable {c : Circumstances} {path : StatePath} {p p' : Progress} {d d' : Draws}

theorem isWhole_current (hstate : c.state.WholeResources) (hp : p.delta.WholeResources)
    (hresource : path.resource? ≠ none) :
    ((Delta.current p.delta c.state path).amount?.getD .zero).IsWhole := by
  obtain ⟨name, hname⟩ := Option.ne_none_iff_exists'.mp hresource
  unfold Delta.current
  split
  · exact (hp.get hname).getD_zero
  · exact (hstate.get hname).getD_zero

theorem isWhole_gainBonus (hbonus : c.bonus.HasWholeGains) : (gainBonus c.bonus path).IsWhole := by
  unfold gainBonus
  split
  next name _ =>
    cases hget : OrderedMap.get? name c.bonus.resourceBonus with
    | none => exact Amount.isWhole_zero
    | some a => exact hbonus (name, a) (OrderedMap.mem_of_get? hget)
  next => exact Amount.isWhole_zero

variable (hstate : c.state.WholeResources)

include hstate

theorem wholeResources_accumulate {a : Amount} (hp : p.delta.WholeResources)
    (ha : path.resource? ≠ none → a.IsWhole) (h : p.accumulate c path a = .ok p') :
    p'.delta.WholeResources := by
  obtain ⟨total, htotal, rfl⟩ := Progress.accumulate_eq_ok h
  refine hstate.write hp (fun hresource => ?_) (Value.mapping?_ofAmount total)
  exact Value.isWhole_ofAmount ((isWhole_current hstate hp hresource).add (ha hresource) htotal)

theorem wholeResources_applyConstant {k : Constant} (hp : p.delta.WholeResources)
    (hk : path.resource? ≠ none → (Outcome.constant k).isWhole = true)
    (h : applyConstant c path k p = .ok p') : p'.delta.WholeResources := by
  cases k with
  | truth b =>
    cases h
    exact hstate.write hp (fun _ a ha => by cases ha) rfl
  | amount a =>
    have ha : path.resource? ≠ none → a.IsWhole := fun hresource => Amount.isWhole_iff.mp (hk hresource)
    simp only [applyConstant] at h
    split at h
    · obtain ⟨paid, hpaid, h⟩ := bind_eq_ok_iff.mp h
      exact wholeResources_accumulate hstate hp (fun hresource => isWhole_payment (ha hresource) hpaid) h
    · cases h
      exact hstate.write hp (fun hresource => Value.isWhole_ofAmount (ha hresource))
        (Value.mapping?_ofAmount a)

variable (hbonus : c.bonus.HasWholeGains)

include hbonus

theorem wholeResources_applyOutcome {o : Outcome} (hp : p.delta.WholeResources)
    (ho : path.resource? ≠ none → o.isWhole = true) (h : Returns (applyOutcome c path o p) d p' d') :
    p'.delta.WholeResources := by
  cases o with
  | constant k => exact wholeResources_applyConstant hstate hp ho (returns_lift_iff.mp h).1
  | range r =>
    simp only [applyOutcome, applyRange, returns_bind_iff, returns_lift_iff] at h
    obtain ⟨u, d₁, -, n, d₂, -, line, d₃, -, a, d₄, ⟨hsum, -⟩, h⟩ := h
    have ha : a.IsWhole := Amount.IsWhole.add ⟨n, rfl⟩ (isWhole_gainBonus hbonus) hsum
    split at h
    · exact wholeResources_accumulate hstate (p := p.note line) hp (fun _ => ha) (returns_lift_iff.mp h).1
    · obtain ⟨rfl, -⟩ := returns_pure_iff.mp h
      exact hstate.write hp (fun _ => Value.isWhole_ofAmount ha) (Value.mapping?_ofAmount a)

theorem wholeResources_applyEntry {raw : String} {v : Value} (hp : p.delta.WholeResources)
    (he : Effect.countsWhole (raw, v) = true) (h : Returns (applyEntry c raw v p) d p' d') :
    p'.delta.WholeResources := by
  cases returns_applyEntry_iff.mp h with
  | unreadablePath => exact hp
  | unreadableEffect => exact hp
  | sure hpath hread happly =>
    exact wholeResources_applyOutcome hstate hbonus hp (Effect.isWhole_of_countsWhole he hpath hread) happly
  | @chance path k _ _ hpath hread hstep =>
    cases hstep with
    | @fired chance rollPlaces chancePlaces outcome p₁ _ _ _ _ houtcome _ _ happly =>
      have ho : path.resource? ≠ none → outcome.isWhole = true := by
        intro hresource
        have hk := Effect.isWhole_of_countsWhole he hpath hread hresource
        simpa [Effect.isWhole, houtcome, Except.toOption] using hk
      have hfired := wholeResources_applyOutcome hstate hbonus (p := p.note _) hp ho happly
      exact hfired
    | _ => exact hp

/-- The entries of an action collect whole resources. -/
theorem wholeResources_applyEntries {effects : Tree} (hp : p.delta.WholeResources)
    (heffects : ∀ e ∈ effects, Effect.countsWhole e = true)
    (h : Returns (applyEntries c effects p) d p' d') : p'.delta.WholeResources := by
  induction effects generalizing p d with
  | nil =>
    obtain ⟨rfl, -⟩ := returns_pure_iff.mp h
    exact hp
  | cons e rest ih =>
    obtain ⟨hfirst, hrest⟩ := List.forall_mem_cons.mp heffects
    obtain ⟨p₁, d₁, happly, h⟩ := returns_bind_iff.mp h
    exact ih (wholeResources_applyEntry hstate hbonus hp hfirst happly) hrest h

end

end SurvivalRules
