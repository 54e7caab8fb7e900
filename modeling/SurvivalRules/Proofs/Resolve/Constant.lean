import SurvivalRules.Proofs.Content.Effects
import SurvivalRules.Proofs.Resolve.Amplify
import SurvivalRules.Proofs.State.Reorder

/-!
# Constants in any order

Whole numbers and truth values at places that are apart are resolved without draws, and each of them comes to
what it would come to alone. So the order in which they are declared shows in the order of keys only.
-/
namespace SurvivalRules

open Drawing

/-- Effects of constants at places that are apart from each other; a path that cannot be read is no place. -/
structure Tree.IsConstant (effects : Tree) : Prop where
  constant : ∀ e ∈ effects, e.2.IsConstant
  apart : effects.Pairwise fun e e' =>
    ∀ p, StatePath.parse e.1 = .ok p → ∀ q, StatePath.parse e'.1 = .ok q → ¬ p.Comparable q

/-- The writes that come of constants, entry by entry. -/
inductive Puts (c : Circumstances) : Tree → List (StatePath × Value) → Prop
  | nil : Puts c [] []
  | skipped {e : String × Value} {rest : Tree} {ws : List (StatePath × Value)} {cause : PathError}
    (hpath : StatePath.parse e.1 = .error cause) (hrest : Puts c rest ws) : Puts c (e :: rest) ws
  | put {e : String × Value} {rest : Tree} {ws : List (StatePath × Value)} {q : StatePath} {w : Value}
    (hpath : StatePath.parse e.1 = .ok q) (hw : addedUp c q e.2 = .ok w) (hrest : Puts c rest ws) :
    Puts c (e :: rest) ((q, w) :: ws)

section

variable {c : Circumstances} {effects effects' : Tree} {ws : List (StatePath × Value)} {p p' : Progress}
  {d d' : Draws}

theorem Tree.IsConstant.perm (h : effects.IsConstant) (hperm : effects.Perm effects') : effects'.IsConstant where
  constant := fun e he => h.constant e (hperm.mem_iff.mpr he)
  apart := hperm.pairwise h.apart fun hapart p hp q hq => StatePath.not_comparable_symm (hapart q hq p hp)

theorem Puts.exists_entry (h : Puts c effects ws) :
    ∀ w ∈ ws, ∃ e ∈ effects, StatePath.parse e.1 = .ok w.1 := by
  induction h with
  | nil => simp
  | skipped _ _ ih =>
    intro w hw
    obtain ⟨e, he, hpath⟩ := ih w hw
    exact ⟨e, List.mem_cons_of_mem _ he, hpath⟩
  | put hpath _ _ ih =>
    intro w hw
    rcases List.mem_cons.mp hw with rfl | hrest
    · exact ⟨_, List.mem_cons_self, hpath⟩
    · obtain ⟨e, he, hpath'⟩ := ih w hrest
      exact ⟨e, List.mem_cons_of_mem _ he, hpath'⟩

/-- The writes of entries at places that are apart are at places that are apart. -/
theorem Puts.pairwise (h : Puts c effects ws) (hconst : effects.IsConstant) :
    ws.Pairwise fun w w' => ¬ w.1.Comparable w'.1 := by
  have hapart := hconst.apart
  clear hconst
  induction h with
  | nil => exact .nil
  | skipped _ _ ih => exact ih (List.pairwise_cons.mp hapart).2
  | put hpath _ hrest ih =>
    obtain ⟨hfirst, hothers⟩ := List.pairwise_cons.mp hapart
    refine List.pairwise_cons.mpr ⟨fun w hw => ?_, ih hothers⟩
    obtain ⟨e, he, hpath'⟩ := hrest.exists_entry w hw
    exact hfirst e he _ hpath _ hpath'

/-- Entries in another order put the same in that order. -/
theorem Puts.exists_perm (h : Puts c effects ws) (hperm : effects.Perm effects') :
    ∃ ws', ws.Perm ws' ∧ Puts c effects' ws' := by
  induction hperm generalizing ws with
  | nil => exact ⟨ws, .refl ws, h⟩
  | cons e _ ih =>
    cases h with
    | skipped hpath hrest =>
      obtain ⟨ws', hws, hputs⟩ := ih hrest
      exact ⟨ws', hws, .skipped hpath hputs⟩
    | put hpath hw hrest =>
      obtain ⟨ws', hws, hputs⟩ := ih hrest
      exact ⟨_, hws.cons _, .put hpath hw hputs⟩
  | swap e e' rest =>
    cases h with
    | skipped hpath' hrest =>
      cases hrest with
      | skipped hpath hrest => exact ⟨_, .refl _, .skipped hpath (.skipped hpath' hrest)⟩
      | put hpath hw hrest => exact ⟨_, .refl _, .put hpath hw (.skipped hpath' hrest)⟩
    | put hpath' hw' hrest =>
      cases hrest with
      | skipped hpath hrest => exact ⟨_, .refl _, .skipped hpath (.put hpath' hw' hrest)⟩
      | put hpath hw hrest => exact ⟨_, .swap _ _ _, .put hpath hw (.put hpath' hw' hrest)⟩
  | trans _ _ ih ih' =>
    obtain ⟨ws₁, hws, hputs⟩ := ih h
    obtain ⟨ws₂, hws', hputs'⟩ := ih' hputs
    exact ⟨ws₂, hws.trans hws', hputs'⟩

/-- Constants are collected exactly when each of them can be added up; no draw is taken and nothing is told but
in the trace. -/
theorem exists_returns_applyEntries_iff {delta : Tree} {logMessages triggeredEvents : List String}
    (hconst : effects.IsConstant) (hholds : ∀ e ∈ effects, ∀ q, StatePath.parse e.1 = .ok q →
      Delta.Holds p.delta c.state q (c.state.get q)) :
    (∃ trace, Returns (applyEntries c effects p) d ⟨delta, logMessages, triggeredEvents, trace⟩ d') ↔
      d' = d ∧ logMessages = p.logMessages ∧ triggeredEvents = p.triggeredEvents ∧
        ∃ ws, Puts c effects ws ∧ delta = Delta.setAll p.delta c.state ws := by
  induction effects generalizing p d with
  | nil =>
    simp only [applyEntries, returns_pure_iff]
    constructor
    · rintro ⟨trace, rfl, rfl⟩
      exact ⟨rfl, rfl, rfl, [], .nil, rfl⟩
    · rintro ⟨rfl, rfl, rfl, ws, hputs, rfl⟩
      cases hputs
      exact ⟨p.trace, rfl, rfl⟩
  | cons e rest ih =>
    obtain ⟨hfirst, hrest⟩ := List.forall_mem_cons.mp hholds
    obtain ⟨hapart, hothers⟩ := List.pairwise_cons.mp hconst.apart
    have hconst' : Tree.IsConstant rest := ⟨fun u hu => hconst.constant u (List.mem_cons_of_mem e hu), hothers⟩
    simp only [applyEntries, returns_bind_iff]
    cases hpath : StatePath.parse e.1 with
    | error cause =>
      simp only [returns_applyEntry_iff_of_error hpath]
      constructor
      · rintro ⟨trace, _, _, ⟨rfl, rfl⟩, hreturns⟩
        obtain ⟨hd, hlogs, hevents, ws, hputs, hdelta⟩ :=
          (ih (p := p.skip e.1 cause.message) hconst' hrest).mp ⟨trace, hreturns⟩
        exact ⟨hd, hlogs, hevents, ws, .skipped hpath hputs, hdelta⟩
      · rintro ⟨hd, hlogs, hevents, ws, hputs, hdelta⟩
        cases hputs with
        | skipped _ hputs =>
          obtain ⟨trace, hreturns⟩ := (ih (p := p.skip e.1 cause.message) hconst' hrest).mpr
            ⟨hd, hlogs, hevents, ws, hputs, hdelta⟩
          exact ⟨trace, _, _, ⟨rfl, rfl⟩, hreturns⟩
        | put hpath' => cases hpath.symm.trans hpath'
    | ok q =>
      have hstep : ∀ p₁ d₁, Returns (applyEntry c e.1 e.2 p) d p₁ d₁ ↔
          d₁ = d ∧ ∃ w, addedUp c q e.2 = .ok w ∧ p₁ = p.write c q w := fun _ _ =>
        (hconst.constant e List.mem_cons_self).returns_applyEntry_iff hpath (hfirst q hpath).current_eq
      have hlater : ∀ w, ∀ u ∈ rest, ∀ r, StatePath.parse u.1 = .ok r →
          Delta.Holds (p.write c q w).delta c.state r (c.state.get r) :=
        fun w u hu r hr => (hrest u hu r hr).set w (hapart u hu q hpath r hr)
      simp only [hstep]
      constructor
      · rintro ⟨trace, _, _, ⟨rfl, w, hw, rfl⟩, hreturns⟩
        obtain ⟨hd, hlogs, hevents, ws, hputs, hdelta⟩ := (ih hconst' (hlater w)).mp ⟨trace, hreturns⟩
        exact ⟨hd, hlogs, hevents, (q, w) :: ws, .put hpath hw hputs, hdelta⟩
      · rintro ⟨hd, hlogs, hevents, ws, hputs, hdelta⟩
        cases hputs with
        | skipped hpath' => cases hpath.symm.trans hpath'
        | put hpath' hw hputs =>
          cases hpath.symm.trans hpath'
          obtain ⟨trace, hreturns⟩ := (ih hconst' (hlater _)).mpr ⟨hd, hlogs, hevents, _, hputs, hdelta⟩
          exact ⟨trace, _, _, ⟨rfl, _, hw, rfl⟩, hreturns⟩

/-! ## Scaling in another order of keys -/

variable {state : Tree} {multiplier : Binary64} {amplify : Bool} {name : String} {v w x : Value} {t u : Tree}

/-- A mapping is no number, so its order of keys makes no difference to scaling. -/
theorem exists_rescaled_of_reordered (h : v.Reordered w) (hv : rescaled state multiplier amplify name v = .ok x) :
    ∃ y, rescaled state multiplier amplify name w = .ok y := by
  cases h with
  | refl => exact ⟨x, hv⟩
  | mapping => exact ⟨_, rescaled_of_none rfl⟩

theorem reordered_rescale (h : v.Reordered w) :
    (rescale state multiplier amplify name v).Reordered (rescale state multiplier amplify name w) := by
  cases h with
  | refl => exact .refl _
  | mapping hkeys hvalues =>
    rw [rescale_of_ok (rescaled_of_none rfl), rescale_of_ok (rescaled_of_none rfl)]
    exact .mapping hkeys hvalues

theorem Tree.Reordered.mapResources {f : String → Value → Value}
    (hf : ∀ name v w, v.Reordered w → (f name v).Reordered (f name w)) (h : t.Reordered u) :
    (t.mapResources f).Reordered (u.mapResources f) := by
  have hlook := h.lookup Section.resources.name
  cases ht : t.lookup Section.resources.name with
  | mapping es =>
    rw [ht] at hlook
    obtain ⟨fs, hu, hsection⟩ := hlook.exists_mapping
    rw [mapResources_of_mapping ht, mapResources_of_mapping hu]
    refine h.insert (Value.reordered_mapping_iff.mpr ⟨fun k => ?_, fun k x y hx hy => ?_⟩) _
    · simpa [OrderedMap.keys] using hsection.mem_keys_iff k
    · rw [OrderedMap.get?_map, Option.map_eq_some_iff] at hx hy
      obtain ⟨v, hv, rfl⟩ := hx
      obtain ⟨w, hw, rfl⟩ := hy
      exact hf k v w (hsection.values k v w hv hw)
  | _ =>
    have hother : ∀ held, u.lookup Section.resources.name ≠ .mapping held := by
      intro held hu
      rw [hu] at hlook
      obtain ⟨es, he, -⟩ := hlook.symm.exists_mapping
      cases ht.symm.trans he
    rw [mapResources_of_not_mapping (by simp [ht]), mapResources_of_not_mapping hother]
    exact h

/-- Where one of two deltas can be scaled that are the same up to order, the other one can, and they stay so. -/
theorem exists_scaleGains_of_reordered {q : Progress} (h : p.delta.Reordered q.delta)
    (htidy : Delta.TidyAt q.delta state Section.resources.name)
    (hp : scaleGains state multiplier amplify p = .ok p') :
    ∃ q', scaleGains state multiplier amplify q = .ok q' ∧ p'.delta.Reordered q'.delta := by
  obtain ⟨hdelta, hall⟩ := delta_scaleGains hp
  obtain ⟨q', hq⟩ : ∃ q', scaleGains state multiplier amplify q = .ok q' := by
    refine exists_scaleGains fun e he => ?_
    cases hlook : q.delta.lookup Section.resources.name with
    | mapping held =>
      rw [hlook] at he
      have hsection := h.entries_lookup Section.resources.name
      rw [hlook] at hsection
      -- each name stands there once, so the value of the entry is the one that is found under its name
      have hget : OrderedMap.get? e.1 held = some e.2 := OrderedMap.get?_of_mem (htidy.section_spec held hlook).1 he
      obtain ⟨v, hv⟩ := OrderedMap.exists_get?_of_mem_keys
        ((hsection.mem_keys_iff e.1).mpr (OrderedMap.mem_keys_of_get? hget))
      obtain ⟨x, hx⟩ := hall (e.1, v) (OrderedMap.mem_of_get? hv)
      exact exists_rescaled_of_reordered (hsection.values e.1 v e.2 hv hget) hx
    | _ =>
      rw [hlook] at he
      cases he
  refine ⟨q', hq, ?_⟩
  rw [hdelta, (delta_scaleGains hq).1]
  exact h.mapResources fun _ _ _ => reordered_rescale

end

section

variable {c : Content} {id : String} {a : Action} {state effects effects' : Tree} {tier : Tier} {amplify : Bool}
  {d d' : Draws} {r : Resolution}

/-- Constants are resolved to the same in another order, and nothing but a delta comes of them. -/
theorem exists_ofEffects_of_perm (hd : state.DistinctAt Section.resources.name) (hconst : effects.IsConstant)
    (hperm : effects.Perm effects') (h : Returns (Resolution.ofEffects c a state amplify effects) d r d') :
    d' = d ∧ r.logMessages = [] ∧ r.triggeredEvents = [] ∧
      ∃ r', Returns (Resolution.ofEffects c a state amplify effects') d r' d ∧ r.delta.Reordered r'.delta := by
  obtain ⟨around, p, p', haround, hp, hscaled, rfl⟩ := Resolution.returns_ofEffects_iff.mp h
  obtain rfl := Resolution.state_of_circumstances haround
  have hholds : ∀ q, Delta.Holds Progress.start.delta around.state q (around.state.get q) := Delta.holds_nil _
  obtain ⟨rfl, hlogs, hevents, ws, hputs, hdelta⟩ :=
    (exists_returns_applyEntries_iff hconst fun _ _ q _ => hholds q).mp ⟨p.trace, hp⟩
  obtain ⟨ws', hws, hputs'⟩ := hputs.exists_perm hperm
  obtain ⟨trace, hq⟩ : ∃ trace, Returns (applyEntries around effects' Progress.start) d'
      ⟨Delta.setAll [] around.state ws', [], [], trace⟩ d' :=
    (exists_returns_applyEntries_iff (hconst.perm hperm) fun _ _ q _ => hholds q).mpr
      ⟨rfl, rfl, rfl, ws', hputs', rfl⟩
  have hsame : p.delta.Reordered (Delta.setAll [] around.state ws') :=
    hdelta ▸ Delta.setAll_perm [] around.state hws (hputs.pairwise hconst)
  have htidy : Delta.TidyAt (Delta.setAll [] around.state ws') around.state Section.resources.name :=
    applyEntries_induction (motive := fun delta => Delta.TidyAt delta around.state Section.resources.name)
      (fun _ _ _ _ _ hv _ ht => ht.set hd (Or.inr hv)) hq (Delta.tidyAt_nil _ _)
  obtain ⟨q', hscaled', hdeltas⟩ := exists_scaleGains_of_reordered (q := ⟨_, _, _, trace⟩) hsame htidy hscaled
  obtain ⟨htold, htold'⟩ := told_scaleGains hscaled
  refine ⟨rfl, htold.trans hlogs, htold'.trans hevents, Resolution.ofProgress q', ?_, hdeltas⟩
  exact Resolution.returns_ofEffects_iff.mpr ⟨around, _, q', haround, hq, hscaled', rfl⟩

/-- The order in which constants at places that are apart are declared makes no difference: in any other order
they are resolved if and only if they are in this one, to the same delta up to the order of keys, without draws,
messages or events. -/
theorem constants_resolve_in_any_order (hd : state.DistinctAt Section.resources.name)
    (ha : c.action? id = some a) (htier : a.tier state = .ok tier) (heffects : tier.effects = some effects)
    (hconst : effects.IsConstant) (hperm : effects.Perm effects') :
    ((∃ r d', Returns (resolve c id state amplify) d r d') ↔ ∃ r' d',
      Returns (resolve (c.withAction id (a.withEffects tier.level effects')) id state amplify) d r' d') ∧
    ∀ r r' d₁ d₂, Returns (resolve c id state amplify) d r d₁ →
      Returns (resolve (c.withAction id (a.withEffects tier.level effects')) id state amplify) d r' d₂ →
      (d₁ = d ∧ r.logMessages = [] ∧ r.triggeredEvents = []) ∧
        (d₂ = d ∧ r'.logMessages = [] ∧ r'.triggeredEvents = []) ∧ r.delta.Reordered r'.delta := by
  simp only [Resolution.returns_resolve_iff ha htier heffects, Resolution.returns_resolve_withEffects ha htier]
  refine ⟨⟨fun ⟨r, d', h⟩ => ?_, fun ⟨r', d', h⟩ => ?_⟩, fun r r' d₁ d₂ h h' => ?_⟩
  · obtain ⟨-, -, -, r', hr', -⟩ := exists_ofEffects_of_perm hd hconst hperm h
    exact ⟨r', d, hr'⟩
  · obtain ⟨-, -, -, r, hr, -⟩ := exists_ofEffects_of_perm hd (hconst.perm hperm) hperm.symm h
    exact ⟨r, d, hr⟩
  · obtain ⟨hd₁, hlogs, hevents, r'', hr'', hdeltas⟩ := exists_ofEffects_of_perm hd hconst hperm h
    obtain ⟨hd₂, hlogs', hevents', -⟩ := exists_ofEffects_of_perm hd (hconst.perm hperm) hperm.symm h'
    obtain ⟨rfl, -⟩ := returns_unique hr'' (hd₂ ▸ h')
    exact ⟨⟨hd₁, hlogs, hevents⟩, ⟨hd₂, hlogs', hevents'⟩, hdeltas⟩

end

/-- Wood and stone, and two marks in one story. -/
def raftEffects : Tree :=
  [("resources.wood", .int 2), ("story.raft.seen", .bool true), ("resources.stone", .int (-1)),
    ("story.raft.logs", .int 4)]

def raft : Action := digging "raft" raftEffects

def river : Content := ⟨[("raft", raft)], [], [], []⟩

def riverState : Tree := [("resources", .mapping [("wood", .int 3), ("stone", .int 7)])]

/-- Declared from the end, the raft is written into the story before the wood, and its logs before the rest. -/
theorem raft_in_any_order :
    ∃ r r', Returns (resolve river "raft" riverState true) (byTurns 0) r (byTurns 0) ∧
      Returns (resolve (river.withAction "raft" (raft.withEffects (some 1) raftEffects.reverse)) "raft" riverState
        true) (byTurns 0) r' (byTurns 0) ∧
      r.delta = [("resources", .mapping [("wood", .int 23), ("stone", .int 6)]),
        ("story", .mapping [("raft", .mapping [("seen", .bool true), ("logs", .int 4)])])] ∧
      r'.delta = [("story", .mapping [("raft", .mapping [("logs", .int 4), ("seen", .bool true)])]),
        ("resources", .mapping [("wood", .int 23), ("stone", .int 6)])] ∧ r.delta.Reordered r'.delta := by
  have htier : raft.tier riverState = .ok ⟨some 1, some [], some [], some raftEffects, Binary64.zero⟩ := by
    decide +kernel
  have hd : riverState.DistinctAt Section.resources.name := by
    unfold Tree.DistinctAt
    decide +kernel
  have hconst : raftEffects.IsConstant := by
    refine ⟨?_, by decide +kernel⟩
    simp [raftEffects, Value.IsConstant]
  have hplain : Returns (resolve river "raft" riverState true) (byTurns 0)
      ⟨[("resources", .mapping [("wood", .int 23), ("stone", .int 6)]),
        ("story", .mapping [("raft", .mapping [("seen", .bool true), ("logs", .int 4)])])], [], [],
        ["[Effects] resources.wood: amplified gain to 20"]⟩ (byTurns 0) := by decide +kernel
  have hreversed : Returns (resolve (river.withAction "raft" (raft.withEffects (some 1) raftEffects.reverse)) "raft"
      riverState true) (byTurns 0)
      ⟨[("story", .mapping [("raft", .mapping [("logs", .int 4), ("seen", .bool true)])]),
        ("resources", .mapping [("wood", .int 23), ("stone", .int 6)])], [], [],
        ["[Effects] resources.wood: amplified gain to 20"]⟩ (byTurns 0) := by decide +kernel
  have hsame := (constants_resolve_in_any_order hd rfl htier rfl hconst
    (List.reverse_perm raftEffects).symm).2 _ _ _ _ hplain hreversed
  exact ⟨_, _, hplain, hreversed, rfl, rfl, hsame.2.2⟩

end SurvivalRules
