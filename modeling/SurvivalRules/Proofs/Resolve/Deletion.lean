import SurvivalRules.Proofs.Content.Effects
import SurvivalRules.Proofs.Resolve.Check
import SurvivalRules.Proofs.Resolve.Steady

/-!
# Deleting malformed entries

The entries that the check reports can be deleted, and the others do as before, if they get the draws that
they got. For one kind of them that is not the same sequence: a chance takes its draw before its outcome is
looked at, so with such an entry goes a draw.
-/
namespace SurvivalRules

open Drawing

/-- Whether the check has something to report about an entry of a block. -/
def Action.Block.reports (b : Block) (e : String × Value) : Bool :=
  match b.entryProblems e.1 e.2 with
  | .ok (_ :: _) => true
  | _ => false

/-- Whether an entry takes a draw and is left out: a chance at a readable path whose condition is met and
whose outcome cannot be read. -/
def wastesDraw (state : Tree) (e : String × Value) : Bool :=
  match StatePath.parse e.1, Effect.ofValue e.2 with
  | .ok _, .ok (.chance k) =>
    match k.answer state, k.outcome with
    | .ok .met, .error _ => true
    | _, _ => false
  | _, _ => false

/-- An entry with the draws that it took. -/
structure EntryDraws where
  entry : String × Value
  draws : List Amount

/-- The draws of all entries in their order. -/
def drawsOf (taken : List EntryDraws) : List Amount := taken.flatMap EntryDraws.draws

theorem drawsOf_filter {keep : EntryDraws → Bool} {taken : List EntryDraws}
    (h : ∀ t ∈ taken, keep t = false → t.draws = []) : drawsOf (taken.filter keep) = drawsOf taken := by
  induction taken with
  | nil => rfl
  | cons t rest ih =>
    obtain ⟨hfirst, hrest⟩ := List.forall_mem_cons.mp h
    have hothers := ih hrest
    cases hkeep : keep t with
    | true =>
      rw [List.filter_cons_of_pos hkeep]
      exact congrArg (t.draws ++ ·) hothers
    | false =>
      rw [List.filter_cons_of_neg (by simp [hkeep]), hothers, drawsOf, drawsOf, List.flatMap_cons,
        hfirst hkeep, List.nil_append]

/-- The content without the entries that the check reports among the effects of an action at a level. -/
def Content.withoutReported (c : Content) (id : String) (a : Action) (level : Option Int)
    (effects : Tree) : Content :=
  c.withAction id (a.withEffects level
    (effects.filter fun e => !(Action.effectsBlock level effects).reports e))

/-- The same, but for the trace. -/
structure Resolution.Agrees (r r' : Resolution) : Prop where
  delta : r.delta = r'.delta
  logMessages : r.logMessages = r'.logMessages
  triggeredEvents : r.triggeredEvents = r'.triggeredEvents

section

variable {c : Circumstances} {raw : String} {v : Value} {p p' : Progress} {d d' : Draws}

theorem Action.Block.isMalformed_of_reports {b : Block} (hb : b.areEffects = true)
    {e : String × Value} (h : b.reports e = true) : IsMalformed e.1 e.2 := by
  unfold reports at h
  split at h
  next first rest hreports => exact (entryProblems_ne_nil_iff hb hreports).mp (List.cons_ne_nil _ _)
  next => cases h

/-- A malformed entry takes one draw or none. -/
theorem exists_draws_of_isMalformed (hmalformed : IsMalformed raw v)
    (h : EntryStep c raw v p d p' d') :
    ∃ us, d.Supplies us d' ∧ us.length = if wastesDraw c.state (raw, v) then 1 else 0 := by
  cases h with
  | unreadablePath hpath => exact ⟨[], rfl, by simp [wastesDraw, hpath]⟩
  | unreadableEffect hpath hread htold => exact ⟨[], rfl, by simp [wastesDraw, hpath, hread]⟩
  | sure hpath hread happly => exact (hmalformed.not_sure hpath hread).elim
  | chance hpath hread hstep =>
    cases hstep with
    | unreadable hanswer => exact ⟨[], rfl, by simp [wastesDraw, hpath, hread, hanswer]⟩
    | unmet hanswer => exact ⟨[], rfl, by simp [wastesDraw, hpath, hread, hanswer]⟩
    | missed hanswer =>
      obtain ⟨cause, hbad⟩ := hmalformed.exists_outcome_error hpath hread hanswer
      exact ⟨[d.next.1], ⟨rfl, rfl⟩, by simp [wastesDraw, hpath, hread, hanswer, hbad]⟩
    | unreadableOutcome hanswer hchance hroll houtcome =>
      exact ⟨[d.next.1], ⟨rfl, rfl⟩, by simp [wastesDraw, hpath, hread, hanswer, houtcome]⟩
    | fired hanswer hchance hroll houtcome =>
      obtain ⟨cause, hbad⟩ := hmalformed.exists_outcome_error hpath hread hanswer
      cases houtcome.symm.trans hbad

/-- Some malformed entries are deleted. The others do as before with the draws that they took. -/
theorem applyEntries_filter {deleted : String × Value → Bool} {effects : Tree}
    (hdeleted : ∀ e, deleted e = true → IsMalformed e.1 e.2)
    (h : Returns (applyEntries c effects p) d p' d') :
    ∃ taken : List EntryDraws, taken.map EntryDraws.entry = effects ∧ d.Supplies (drawsOf taken) d' ∧
      (∀ t ∈ taken, deleted t.entry = true →
        t.draws.length = if wastesDraw c.state t.entry then 1 else 0) ∧
      ∀ q d₂ d₂', p.Agrees q → d₂.Supplies (drawsOf (taken.filter fun t => !deleted t.entry)) d₂' →
        ∃ q', Returns (applyEntries c (effects.filter fun e => !deleted e) q) d₂ q' d₂' ∧
          p'.Agrees q' := by
  induction effects generalizing p d with
  | nil =>
    obtain ⟨rfl, rfl⟩ := returns_pure_iff.mp h
    refine ⟨[], rfl, rfl, by simp, fun q d₂ d₂' hagrees hsupplies => ?_⟩
    exact ⟨q, returns_pure_iff.mpr ⟨rfl, hsupplies⟩, hagrees⟩
  | cons e rest ih =>
    obtain ⟨p₁, d₁, hfirst, hrest⟩ := returns_bind_iff.mp h
    obtain ⟨taken, hentries, hall, hcounts, hkept⟩ := ih hrest
    by_cases hgone : deleted e = true
    · have hmalformed := hdeleted e hgone
      have hstep := returns_applyEntry_iff.mp hfirst
      have hsame := agrees_of_isMalformed hmalformed hstep
      obtain ⟨us, hown, hcount⟩ := exists_draws_of_isMalformed hmalformed hstep
      refine ⟨⟨e, us⟩ :: taken, by simp [hentries], ?_, ?_, fun q d₂ d₂' hagrees hsupplies => ?_⟩
      · exact Draws.supplies_append_iff.mpr ⟨d₁, hown, hall⟩
      · exact List.forall_mem_cons.mpr ⟨fun _ => hcount, hcounts⟩
      · rw [List.filter_cons_of_neg (by simp [hgone])] at hsupplies ⊢
        exact hkept q d₂ d₂' (hsame.symm.trans hagrees) hsupplies
    · obtain ⟨us, hown, hsteady⟩ := steady_applyEntry c e.1 e.2 hfirst
      refine ⟨⟨e, us⟩ :: taken, by simp [hentries], ?_, ?_, fun q d₂ d₂' hagrees hsupplies => ?_⟩
      · exact Draws.supplies_append_iff.mpr ⟨d₁, hown, hall⟩
      · exact List.forall_mem_cons.mpr ⟨fun hdel => absurd hdel hgone, hcounts⟩
      · rw [List.filter_cons_of_pos (by simp [hgone])] at hsupplies ⊢
        obtain ⟨d₃, hfront, hback⟩ := Draws.supplies_append_iff.mp hsupplies
        obtain ⟨q₁, hq₁, hagrees₁⟩ := hsteady hagrees hfront
        obtain ⟨q', hq', hagrees'⟩ := hkept q₁ d₃ d₂' hagrees₁ hback
        exact ⟨q', returns_bind_iff.mpr ⟨q₁, d₃, hq₁, hq'⟩, hagrees'⟩

/-- Progresses that agree still do so when their gains have been scaled. -/
theorem Progress.Agrees.scaleGains {state : Tree} {multiplier : Binary64} {amplify : Bool}
    {q : Progress} (h : p.Agrees q) (hp : scaleGains state multiplier amplify p = .ok p') :
    ∃ q', SurvivalRules.scaleGains state multiplier amplify q = .ok q' ∧ p'.Agrees q' := by
  obtain ⟨lines, -, hscale⟩ := exists_lines_of_scaleGains hp
  have hown := Except.ok.inj (hp.symm.trans (hscale p rfl))
  refine ⟨_, hscale q h.delta.symm, ⟨rfl, ?_, ?_⟩⟩
  · exact (congrArg Progress.logMessages hown).trans h.logMessages
  · exact (congrArg Progress.triggeredEvents hown).trans h.triggeredEvents

end

section

variable {c : Content} {id : String} {a : Action} {state : Tree} {amplify : Bool} {d d' : Draws}
  {r : Resolution}

/-- Delete every entry that the check reports from the effects that apply. Then the delta, the messages and
the events stay the same, with the draws that the other entries took. A deleted entry took no draw, or one if
it wasted it; and if none did, the draws are the same. -/
theorem resolve_withoutReported (ha : c.action? id = some a)
    (h : Returns (resolve c id state amplify) d r d') :
    ∃ tier, a.tier state = .ok tier ∧ ∀ effects, tier.effects = some effects →
      (∃ taken : List EntryDraws, taken.map EntryDraws.entry = effects ∧
        d.Supplies (drawsOf taken) d' ∧
        (∀ t ∈ taken, (Action.effectsBlock tier.level effects).reports t.entry = true →
          t.draws.length = if wastesDraw state t.entry then 1 else 0) ∧
        ∀ d₂ d₂', d₂.Supplies (drawsOf (taken.filter fun t =>
            !(Action.effectsBlock tier.level effects).reports t.entry)) d₂' →
          ∃ r', Returns (resolve (c.withoutReported id a tier.level effects) id state amplify) d₂ r' d₂' ∧
            r.Agrees r') ∧
      ((∀ e ∈ effects, (Action.effectsBlock tier.level effects).reports e = true →
          wastesDraw state e = false) →
        ∃ r', Returns (resolve (c.withoutReported id a tier.level effects) id state amplify) d r' d' ∧
          r.Agrees r') := by
  obtain ⟨tier, htier, -⟩ := Resolution.exists_tier_of_returns ha h
  refine ⟨tier, htier, fun effects heffects => ?_⟩
  have hreturns := (Resolution.returns_resolve_iff ha htier heffects).mp h
  obtain ⟨around, p, p', haround, hp, hscale, rfl⟩ := Resolution.returns_ofEffects_iff.mp hreturns
  obtain ⟨taken, hentries, hall, hcounts, hkept⟩ := applyEntries_filter
    (fun e => Action.Block.isMalformed_of_reports (b := Action.effectsBlock tier.level effects) rfl) hp
  rw [Resolution.state_of_circumstances haround] at hcounts
  have hdeletion : ∀ d₂ d₂', d₂.Supplies (drawsOf (taken.filter fun t =>
      !(Action.effectsBlock tier.level effects).reports t.entry)) d₂' →
      ∃ r', Returns (resolve (c.withoutReported id a tier.level effects) id state amplify) d₂ r' d₂' ∧
        (Resolution.ofProgress p').Agrees r' := by
    intro d₂ d₂' hsupplies
    obtain ⟨q, hq, hagrees⟩ := hkept _ d₂ d₂' (Progress.Agrees.refl _) hsupplies
    obtain ⟨q', hq', hscaled⟩ := hagrees.scaleGains hscale
    refine ⟨Resolution.ofProgress q', (Resolution.returns_resolve_withEffects ha htier).mpr ?_, ?_⟩
    · exact Resolution.returns_ofEffects_iff.mpr ⟨around, q, q', haround, hq, hq', rfl⟩
    · exact ⟨hscaled.delta, hscaled.logMessages, hscaled.triggeredEvents⟩
  refine ⟨⟨taken, hentries, hall, hcounts, hdeletion⟩, fun hnone => hdeletion d d' ?_⟩
  rw [drawsOf_filter]
  · exact hall
  · intro t ht hgone
    have hreported : (Action.effectsBlock tier.level effects).reports t.entry = true := by
      simpa using hgone
    have hmem : t.entry ∈ effects := hentries ▸ List.mem_map_of_mem ht
    have hcount := hcounts t ht hreported
    rw [hnone t.entry hmem hreported] at hcount
    exact List.eq_nil_of_length_eq_zero hcount

end

def threeQuarters : Value := .float (Binary64.nearest (3 / 4))

/-- Zero and three quarters by turns, after some were taken. -/
def byTurns (taken : Nat) : Draws := .replay ⟨[.int 0, threeQuarters], taken, by decide, by decide +kernel⟩

/-- The empty range of the quarry takes the draw that the stones get without it. -/
theorem quarry_changes_without_reported :
    (digging "quarry" quarryEffects).tier [] =
        .ok ⟨some 1, some [], some [], some quarryEffects, Binary64.zero⟩ ∧
      quarryEffects.filter (Action.effectsBlock (some 1) quarryEffects).reports =
        [("resources.gold", emptyGold)] ∧
      ∃ r r', Returns (resolve diggings "quarry" [] false) (byTurns 0) r (byTurns 2) ∧
        Returns (resolve (diggings.withoutReported "quarry" (digging "quarry" quarryEffects) (some 1)
          quarryEffects) "quarry" [] false) (byTurns 0) r' (byTurns 1) ∧
        r.delta = stones 4 ∧ r'.delta = stones 1 ∧ ¬ r.Agrees r' := by
  have hreported : quarryEffects.filter (Action.effectsBlock (some 1) quarryEffects).reports =
      [("resources.gold", emptyGold)] := by decide +kernel
  have hwith : Returns (resolve diggings "quarry" [] false) (byTurns 0)
      ⟨stones 4, [], [], [skipLine "resources.gold" "random range 'random(5,1)' has min > max",
        "[Effects] resources.stone: random(1,4) rolled 4"]⟩ (byTurns 2) := by decide +kernel
  have hwithout : Returns (resolve (diggings.withoutReported "quarry" (digging "quarry" quarryEffects)
      (some 1) quarryEffects) "quarry" [] false) (byTurns 0)
      ⟨stones 1, [], [], ["[Effects] resources.stone: random(1,4) rolled 1"]⟩ (byTurns 1) := by
    decide +kernel
  refine ⟨by decide +kernel, hreported, _, _, hwith, hwithout, rfl, rfl, fun hagrees => ?_⟩
  exact absurd hagrees.delta (by decide +kernel)

/-- A place that is none, a range that is empty, and stones. -/
def mineEffects : Tree := ("resources..gold", .int 1) :: quarryEffects

def mine : Action := digging "mine" mineEffects

def mines : Content := ⟨[("mine", mine)], [], [], []⟩

def mineResolution : Resolution :=
  ⟨stones 4, [], [], [skipLine "resources..gold" "invalid state path 'resources..gold' (bad segment '')",
    skipLine "resources.gold" "random range 'random(5,1)' has min > max",
    "[Effects] resources.stone: random(1,4) rolled 4"]⟩

theorem mine_without_reported :
    ∃ r, Returns (resolve (mines.withoutReported "mine" mine (some 1) mineEffects) "mine" [] false)
      (byTurns 1) r (byTurns 2) ∧ r.delta = stones 4 := by
  have hreturns : Returns (resolve mines "mine" [] false) (byTurns 0) mineResolution (byTurns 2) := by
    decide +kernel
  have hlevel : mine.tier [] = .ok ⟨some 1, some [], some [], some mineEffects, Binary64.zero⟩ := by
    decide +kernel
  have hbadPlace : (Action.effectsBlock (some 1) mineEffects).reports ("resources..gold", .int 1) = true :=
    by decide +kernel
  have hbadRange : (Action.effectsBlock (some 1) mineEffects).reports ("resources.gold", emptyGold) = true :=
    by decide +kernel
  have hgood : (Action.effectsBlock (some 1) mineEffects).reports
      ("resources.stone", .text "random(1,4)") = false := by decide +kernel
  obtain ⟨tier, htier, hdeletion⟩ := resolve_withoutReported rfl hreturns
  cases hlevel.symm.trans htier
  obtain ⟨⟨taken, hentries, hall, hcounts, hkept⟩, -⟩ := hdeletion _ rfl
  simp only [mineEffects, quarryEffects, shaftEffects, List.map_eq_cons_iff, List.map_eq_nil_iff]
    at hentries
  obtain ⟨⟨_, place⟩, _, rfl, rfl, ⟨_, range⟩, _, rfl, rfl, ⟨_, stone⟩, _, rfl, rfl, rfl⟩ := hentries
  obtain ⟨hplace, hothers⟩ := List.forall_mem_cons.mp hcounts
  obtain ⟨hrange, -⟩ := List.forall_mem_cons.mp hothers
  have hkeeps : ¬ wastesDraw [] ("resources..gold", .int 1) = true := by decide +kernel
  have hwastes : wastesDraw [] ("resources.gold", emptyGold) = true := by decide +kernel
  have hzero : place.length = 0 := (hplace hbadPlace).trans (if_neg hkeeps)
  have hone : range.length = 1 := (hrange hbadRange).trans (if_pos hwastes)
  cases List.eq_nil_of_length_eq_zero hzero
  obtain ⟨u, rfl⟩ := List.length_eq_one_iff.mp hone
  -- the empty range has taken the first draw, and the stones get the second one
  have hstone : (byTurns 1).Supplies (drawsOf [⟨_, stone⟩]) (byTurns 2) := hall.2
  obtain ⟨r, hr, hagrees⟩ := hkept (byTurns 1) (byTurns 2) (by
    simpa only [List.filter_cons, hbadPlace, hbadRange, hgood, Bool.not_true, Bool.not_false,
      Bool.false_eq_true, if_false, if_true, List.filter_nil] using hstone)
  exact ⟨r, hr, hagrees.delta.symm⟩

end SurvivalRules
