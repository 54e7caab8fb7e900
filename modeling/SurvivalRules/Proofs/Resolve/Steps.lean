import SurvivalRules.Proofs.Drawing

/-!
# What one entry can do

An entry is left out, noted, or applied. The two inversions below say all that can happen, with the line
that the trace gains and the draws that are taken, and the other facts about entries follow from them.
-/
namespace SurvivalRules

open Drawing

/-- What a chance at a readable path can come to, and the draws that it leaves. -/
inductive ChanceStep (c : Circumstances) (raw : String) (path : StatePath) (k : Chance) (p : Progress)
    (d : Draws) : Progress → Draws → Prop
  | unreadable {cause : ConditionError} (hanswer : k.answer c.state = .ok (.unreadable cause)) :
    ChanceStep c raw path k p d (p.skip raw cause.message) d
  | unmet {text : String} (hanswer : k.answer c.state = .ok (.unmet text)) :
    ChanceStep c raw path k p d (p.note s!"{raw}: condition '{text}' not met") d
  | missed {chance : Amount} {rollPlaces chancePlaces : String}
    (hanswer : k.answer c.state = .ok .met)
    (hchance : adjustedProbability (.float (k.probability.add c.bonus.probabilityBonus)) c.luck =
      .ok chance)
    (hroll : d.next.1.lt chance = false) (hfirst : placesText d.next.1 = .ok rollPlaces)
    (hsecond : placesText chance = .ok chancePlaces) :
    ChanceStep c raw path k p d (p.note (rollText raw rollPlaces ">=" chancePlaces ++ ", no effect"))
      d.next.2
  | unreadableOutcome {chance : Amount} {cause : EffectError} {told : String}
    (hanswer : k.answer c.state = .ok .met)
    (hchance : adjustedProbability (.float (k.probability.add c.bonus.probabilityBonus)) c.luck =
      .ok chance)
    (hroll : d.next.1.lt chance = true) (houtcome : k.outcome = .error cause)
    (htold : cause.told = .ok told) :
    ChanceStep c raw path k p d (p.skip raw told) d.next.2
  | fired {chance : Amount} {rollPlaces chancePlaces : String} {outcome : Outcome} {p' : Progress}
    {d' : Draws} (hanswer : k.answer c.state = .ok .met)
    (hchance : adjustedProbability (.float (k.probability.add c.bonus.probabilityBonus)) c.luck =
      .ok chance)
    (hroll : d.next.1.lt chance = true) (houtcome : k.outcome = .ok outcome)
    (hfirst : placesText d.next.1 = .ok rollPlaces) (hsecond : placesText chance = .ok chancePlaces)
    (happly : Returns (applyOutcome c path outcome
      (p.note (rollText raw rollPlaces "<" chancePlaces ++ ", fired"))) d.next.2 p' d') :
    ChanceStep c raw path k p d (p'.addLog k) d'

/-- What an entry can come to, and the draws that it leaves. -/
inductive EntryStep (c : Circumstances) (raw : String) (v : Value) (p : Progress) (d : Draws) :
    Progress → Draws → Prop
  | unreadablePath {cause : PathError} (hpath : StatePath.parse raw = .error cause) :
    EntryStep c raw v p d (p.skip raw cause.message) d
  | unreadableEffect {path : StatePath} {cause : EffectError} {told : String}
    (hpath : StatePath.parse raw = .ok path) (hread : Effect.ofValue v = .error cause)
    (htold : cause.told = .ok told) : EntryStep c raw v p d (p.skip raw told) d
  | sure {path : StatePath} {outcome : Outcome} {p' : Progress} {d' : Draws}
    (hpath : StatePath.parse raw = .ok path) (hread : Effect.ofValue v = .ok (.sure outcome))
    (happly : Returns (applyOutcome c path outcome p) d p' d') : EntryStep c raw v p d p' d'
  | chance {path : StatePath} {k : Chance} {p' : Progress} {d' : Draws}
    (hpath : StatePath.parse raw = .ok path) (hread : Effect.ofValue v = .ok (.chance k))
    (hstep : ChanceStep c raw path k p d p' d') : EntryStep c raw v p d p' d'

section

variable {c : Circumstances} {raw : String} {path : StatePath} {p p' : Progress} {d d' : Draws}

theorem returns_applyChance_iff {k : Chance} :
    Returns (applyChance c raw path k p) d p' d' ↔ ChanceStep c raw path k p d p' d' := by
  constructor
  · intro h
    obtain ⟨answer, d₁, hfirst, h⟩ := returns_bind_iff.mp h
    obtain ⟨hanswer, rfl⟩ := returns_lift_iff.mp hfirst
    cases answer with
    | unreadable cause =>
      obtain ⟨rfl, rfl⟩ := returns_pure_iff.mp h
      exact .unreadable hanswer
    | unmet text =>
      obtain ⟨rfl, rfl⟩ := returns_pure_iff.mp h
      exact .unmet hanswer
    | met =>
      simp only [returns_bind_iff, returns_lift_iff, returns_draw_iff] at h
      obtain ⟨chance, d₂, ⟨hchance, rfl⟩, roll, d₃, ⟨rfl, rfl⟩, h⟩ := h
      split at h
      next hroll =>
        simp only [returns_bind_iff, returns_lift_iff, returns_pure_iff] at h
        obtain ⟨rollPlaces, d₄, ⟨hfirst, rfl⟩, chancePlaces, d₅, ⟨hsecond, rfl⟩, rfl, rfl⟩ := h
        exact .missed hanswer hchance (by simpa using hroll) hfirst hsecond
      next hroll =>
        have hlt : d.next.1.lt chance = true := by simpa using hroll
        split at h
        next cause houtcome =>
          simp only [returns_bind_iff, returns_lift_iff, returns_pure_iff] at h
          obtain ⟨told, d₄, ⟨htold, rfl⟩, rfl, rfl⟩ := h
          exact .unreadableOutcome hanswer hchance hlt houtcome htold
        next outcome houtcome =>
          simp only [returns_bind_iff, returns_lift_iff, returns_pure_iff] at h
          obtain ⟨rollPlaces, d₄, ⟨hfirst, rfl⟩, chancePlaces, d₅, ⟨hsecond, rfl⟩, p₁, d₆, happly, rfl,
            rfl⟩ := h
          exact .fired hanswer hchance hlt houtcome hfirst hsecond happly
  · intro h
    cases h with
    | unreadable hanswer =>
      exact returns_bind_iff.mpr ⟨_, d, returns_lift_iff.mpr ⟨hanswer, rfl⟩,
        returns_pure_iff.mpr ⟨rfl, rfl⟩⟩
    | unmet hanswer =>
      exact returns_bind_iff.mpr ⟨_, d, returns_lift_iff.mpr ⟨hanswer, rfl⟩,
        returns_pure_iff.mpr ⟨rfl, rfl⟩⟩
    | missed hanswer hchance hroll hfirst hsecond =>
      refine returns_bind_iff.mpr ⟨_, d, returns_lift_iff.mpr ⟨hanswer, rfl⟩, ?_⟩
      simp only [returns_bind_iff, returns_lift_iff, returns_draw_iff]
      refine ⟨_, d, ⟨hchance, rfl⟩, _, _, ⟨rfl, rfl⟩, ?_⟩
      simp only [hroll, Bool.not_false, if_true, returns_bind_iff, returns_lift_iff, returns_pure_iff]
      exact ⟨_, _, ⟨hfirst, rfl⟩, _, _, ⟨hsecond, rfl⟩, rfl, rfl⟩
    | unreadableOutcome hanswer hchance hroll houtcome htold =>
      refine returns_bind_iff.mpr ⟨_, d, returns_lift_iff.mpr ⟨hanswer, rfl⟩, ?_⟩
      simp only [returns_bind_iff, returns_lift_iff, returns_draw_iff]
      refine ⟨_, d, ⟨hchance, rfl⟩, _, _, ⟨rfl, rfl⟩, ?_⟩
      simp only [hroll, Bool.not_true, Bool.false_eq_true, if_false, houtcome, returns_bind_iff,
        returns_lift_iff, returns_pure_iff]
      exact ⟨_, _, ⟨htold, rfl⟩, rfl, rfl⟩
    | fired hanswer hchance hroll houtcome hfirst hsecond happly =>
      refine returns_bind_iff.mpr ⟨_, d, returns_lift_iff.mpr ⟨hanswer, rfl⟩, ?_⟩
      simp only [returns_bind_iff, returns_lift_iff, returns_draw_iff]
      refine ⟨_, d, ⟨hchance, rfl⟩, _, _, ⟨rfl, rfl⟩, ?_⟩
      simp only [hroll, Bool.not_true, Bool.false_eq_true, if_false, houtcome, returns_bind_iff,
        returns_lift_iff, returns_pure_iff]
      exact ⟨_, _, ⟨hfirst, rfl⟩, _, _, ⟨hsecond, rfl⟩, _, _, happly, rfl, rfl⟩

theorem returns_applyEntry_iff {v : Value} :
    Returns (applyEntry c raw v p) d p' d' ↔ EntryStep c raw v p d p' d' := by
  unfold applyEntry
  constructor
  · intro h
    split at h
    next cause hpath =>
      obtain ⟨rfl, rfl⟩ := returns_pure_iff.mp h
      exact .unreadablePath hpath
    next path hpath =>
      split at h
      next cause hread =>
        simp only [returns_bind_iff, returns_lift_iff, returns_pure_iff] at h
        obtain ⟨told, d₁, ⟨htold, rfl⟩, rfl, rfl⟩ := h
        exact .unreadableEffect hpath hread htold
      next outcome hread => exact .sure hpath hread h
      next k hread => exact .chance hpath hread (returns_applyChance_iff.mp h)
  · intro h
    cases h with
    | unreadablePath hpath =>
      simp only [hpath]
      exact returns_pure_iff.mpr ⟨rfl, rfl⟩
    | unreadableEffect hpath hread htold =>
      simp only [hpath, hread, returns_bind_iff, returns_lift_iff, returns_pure_iff]
      exact ⟨_, _, ⟨htold, rfl⟩, rfl, rfl⟩
    | sure hpath hread happly =>
      simp only [hpath, hread]
      exact happly
    | chance hpath hread hstep =>
      simp only [hpath, hread]
      exact returns_applyChance_iff.mpr hstep

end

end SurvivalRules
