import SurvivalRules.Proofs.Resolve.Deletion

/-!
# How many draws a resolution takes

A random range takes one draw. A chance whose condition is met takes one for its roll, and another one when it
fires and its outcome is a range. No other entry takes any.
-/
namespace SurvivalRules

open Drawing

/-- Whether there is no condition, an empty one, or one that can be read and holds. -/
def Chance.isMet (k : Chance) (state : Tree) : Bool :=
  match k.condition with
  | none => true
  | some text => text.isEmpty || (Condition.read text).toOption.any fun condition =>
      (condition.holds state).toOption = some true

def Outcome.isRange : Outcome → Bool
  | .constant _ => false
  | .range _ => true

/-- The effect of an entry whose path can be read, too. -/
def readEffect? (e : String × Value) : Option Effect :=
  match StatePath.parse e.1 with
  | .ok _ => (Effect.ofValue e.2).toOption
  | .error _ => none

/-- Whether an entry is a random range without a chance. -/
def isPlainRange (e : String × Value) : Bool :=
  match readEffect? e with
  | some (.sure outcome) => outcome.isRange
  | _ => false

/-- The chance of an entry, if its condition is met. -/
def rolledChance? (state : Tree) (e : String × Value) : Option Chance :=
  match readEffect? e with
  | some (.chance k) => if k.isMet state then some k else none
  | _ => none

def rolls (state : Tree) (e : String × Value) : Bool := (rolledChance? state e).isSome

/-- Whether a roll is below the chance, with the bonus and the luck. -/
def Circumstances.isHit (c : Circumstances) (k : Chance) (roll : Amount) : Bool :=
  (adjustedProbability (.float (k.probability.add c.bonus.probabilityBonus)) c.luck).toOption.any (roll.lt ·)

def Chance.drawsOutcome (k : Chance) : Bool := k.outcome.toOption.any Outcome.isRange

namespace EntryDraws

/-- Whether an entry is a chance whose roll, the first of its draws, is a hit, and whose outcome is a range. -/
def hitsRange (c : Circumstances) (t : EntryDraws) : Bool :=
  match rolledChance? c.state t.entry, t.draws with
  | some k, roll :: _ => c.isHit k roll && k.drawsOutcome
  | _, _ => false

/-- How many draws an entry takes. -/
def due (c : Circumstances) (t : EntryDraws) : ℕ :=
  (isPlainRange t.entry).toNat + (rolls c.state t.entry).toNat + (t.hitsRange c).toNat

end EntryDraws

/-- An entry with a part that cannot be read before a roll, or a chance under a condition that does not hold. -/
inductive IsIdle (state : Tree) (e : String × Value) : Prop
  | path {cause : PathError} (hpath : StatePath.parse e.1 = .error cause)
  | effect {cause : EffectError} (hread : Effect.ofValue e.2 = .error cause)
  | condition {k : Chance} {text : String} {cause : ConditionError} (hread : Effect.ofValue e.2 = .ok (.chance k))
    (htext : k.condition = some text) (hne : text ≠ "") (hbad : Condition.read text = .error cause)
  | unmet {k : Chance} {text : String} {condition : Condition} (hread : Effect.ofValue e.2 = .ok (.chance k))
    (htext : k.condition = some text) (hne : text ≠ "") (hcondition : Condition.read text = .ok condition)
    (hfalse : condition.holds state = .ok false)

section

variable {c : Circumstances} {raw : String} {v : Value} {path : StatePath} {k : Chance} {state : Tree}
  {e : String × Value} {p p' : Progress} {d d' : Draws}

theorem Chance.answer_eq_met_iff : k.answer state = .ok .met ↔ k.isMet state = true := by
  unfold answer isMet
  cases k.condition with
  | none => exact iff_of_true rfl rfl
  | some text =>
    cases hempty : text.isEmpty with
    | true => simp only [Option.filter, hempty, Bool.not_true, Bool.false_eq_true, if_false, Bool.true_or]
    | false =>
      simp only [Option.filter, hempty, Bool.not_false, if_true, Bool.false_or]
      cases Condition.read text with
      | error cause => simp [Except.toOption]
      | ok condition =>
        cases hholds : condition.holds state with
        | error cause => simp [hholds, Except.toOption, bind, Except.bind]
        | ok b => cases b <;> simp [hholds, Except.toOption, bind, Except.bind, pure, Except.pure]

theorem readEffect?_of_ok {effect : Effect} (hpath : StatePath.parse e.1 = .ok path)
    (hread : Effect.ofValue e.2 = .ok effect) : readEffect? e = some effect := by
  simp only [readEffect?, hpath, hread, Except.toOption]

/-- What is read of an idle entry is nothing, or a chance whose condition is not met. -/
theorem readEffect?_of_isIdle (h : IsIdle state e) :
    readEffect? e = none ∨ ∃ k, readEffect? e = some (.chance k) ∧ k.isMet state = false := by
  have hchance : ∀ {k}, Effect.ofValue e.2 = .ok (.chance k) → k.isMet state = false →
      readEffect? e = none ∨ ∃ k, readEffect? e = some (.chance k) ∧ k.isMet state = false := by
    intro k hread hunmet
    cases hpath : StatePath.parse e.1 with
    | error cause => exact Or.inl (by simp only [readEffect?, hpath])
    | ok path => exact Or.inr ⟨k, readEffect?_of_ok hpath hread, hunmet⟩
  cases h with
  | path hpath => exact Or.inl (by simp only [readEffect?, hpath])
  | effect hread =>
    refine Or.inl ?_
    unfold readEffect?
    split
    · rw [hread]
      rfl
    · rfl
  | condition hread htext hne hbad => exact hchance hread (by simp [Chance.isMet, htext, hne, hbad, Except.toOption])
  | unmet hread htext hne hcondition hfalse =>
    exact hchance hread (by simp [Chance.isMet, htext, hne, hcondition, hfalse, Except.toOption])

theorem EntryDraws.due_of_readEffect? {t : EntryDraws} (h : readEffect? t.entry = none) : t.due c = 0 := by
  simp only [due, isPlainRange, rolls, hitsRange, rolledChance?, h]
  rfl

theorem EntryDraws.due_of_sure {t : EntryDraws} {outcome : Outcome} (h : readEffect? t.entry = some (.sure outcome)) :
    t.due c = outcome.isRange.toNat := by
  simp only [due, isPlainRange, rolls, hitsRange, rolledChance?, h]
  rfl

theorem EntryDraws.due_of_not_isMet {t : EntryDraws} (h : readEffect? t.entry = some (.chance k))
    (hunmet : k.isMet c.state = false) : t.due c = 0 := by
  simp only [due, isPlainRange, rolls, hitsRange, rolledChance?, h, hunmet]
  rfl

/-- A chance whose condition is met takes its roll, and another draw when this hits a range. -/
theorem EntryDraws.due_of_isMet {t : EntryDraws} {roll : Amount} {more : List Amount}
    (h : readEffect? t.entry = some (.chance k)) (hmet : k.isMet c.state = true) (hdraws : t.draws = roll :: more) :
    t.due c = 1 + (c.isHit k roll && k.drawsOutcome).toNat := by
  simp only [due, isPlainRange, rolls, hitsRange, rolledChance?, h, hmet, if_true, hdraws]
  rfl

theorem EntryDraws.due_of_isIdle {t : EntryDraws} (h : IsIdle c.state t.entry) : t.due c = 0 := by
  rcases readEffect?_of_isIdle h with hnone | ⟨k, hchance, hunmet⟩
  · exact due_of_readEffect? hnone
  · exact due_of_not_isMet hchance hunmet

/-- An outcome takes one draw when it is a range, and none when it is a constant. -/
theorem exists_draws_of_applyOutcome {o : Outcome} (h : Returns (applyOutcome c path o p) d p' d') :
    ∃ us, d.Supplies us d' ∧ us.length = o.isRange.toNat := by
  cases o with
  | constant k =>
    obtain ⟨-, rfl⟩ := returns_lift_iff.mp h
    exact ⟨[], rfl, rfl⟩
  | range r =>
    simp only [applyOutcome, applyRange, returns_bind_iff, returns_lift_iff, returns_draw_iff] at h
    obtain ⟨u, d₁, ⟨rfl, rfl⟩, n, d₂, ⟨-, rfl⟩, line, d₃, ⟨-, rfl⟩, a, d₄, ⟨-, rfl⟩, hlast⟩ := h
    refine ⟨[d.next.1], ⟨rfl, ?_⟩, rfl⟩
    split at hlast
    · exact (returns_lift_iff.mp hlast).2
    · exact (returns_pure_iff.mp hlast).2

/-- What a chance takes from the draws. -/
theorem exists_draws_of_chanceStep (hread : readEffect? (raw, v) = some (.chance k))
    (h : ChanceStep c raw path k p d p' d') :
    ∃ us, d.Supplies us d' ∧ us.length = (EntryDraws.mk (raw, v) us).due c := by
  -- without a roll the condition is not met, and with one the roll is the first of the draws
  have hidle : ∀ answer, k.answer c.state = .ok answer → answer ≠ .met → (EntryDraws.mk (raw, v) []).due c = 0 := by
    intro answer hanswer hne
    refine EntryDraws.due_of_not_isMet hread (Bool.eq_false_iff.mpr fun hmet => hne ?_)
    exact Except.ok.inj (hanswer.symm.trans (Chance.answer_eq_met_iff.mpr hmet))
  have hrolled : k.answer c.state = .ok .met → ∀ roll more, (EntryDraws.mk (raw, v) (roll :: more)).due c =
      1 + (c.isHit k roll && k.drawsOutcome).toNat :=
    fun hanswer _ _ => EntryDraws.due_of_isMet hread (Chance.answer_eq_met_iff.mp hanswer) rfl
  cases h with
  | unreadable hanswer => exact ⟨[], rfl, (hidle _ hanswer (by simp)).symm⟩
  | unmet hanswer => exact ⟨[], rfl, (hidle _ hanswer (by simp)).symm⟩
  | missed hanswer hlikely hroll =>
    refine ⟨[d.next.1], ⟨rfl, rfl⟩, ?_⟩
    simp [hrolled hanswer, Circumstances.isHit, hlikely, hroll, Except.toOption]
  | unreadableOutcome hanswer hlikely hroll houtcome =>
    refine ⟨[d.next.1], ⟨rfl, rfl⟩, ?_⟩
    simp [hrolled hanswer, Chance.drawsOutcome, houtcome, Except.toOption]
  | fired hanswer hlikely hroll houtcome _ _ happly =>
    obtain ⟨us, hus, hlength⟩ := exists_draws_of_applyOutcome happly
    refine ⟨d.next.1 :: us, ⟨rfl, hus⟩, ?_⟩
    simp [hrolled hanswer, Circumstances.isHit, Chance.drawsOutcome, hlikely, hroll, houtcome, hlength, Except.toOption,
      Nat.add_comm]

/-- What one entry takes from the draws. -/
theorem exists_draws_of_entryStep (h : EntryStep c raw v p d p' d') :
    ∃ us, d.Supplies us d' ∧ us.length = (EntryDraws.mk (raw, v) us).due c := by
  cases h with
  | unreadablePath hpath =>
    exact ⟨[], rfl, (EntryDraws.due_of_isIdle (t := ⟨(raw, v), []⟩) (.path hpath)).symm⟩
  | unreadableEffect hpath hread =>
    exact ⟨[], rfl, (EntryDraws.due_of_isIdle (t := ⟨(raw, v), []⟩) (.effect hread)).symm⟩
  | sure hpath hread happly =>
    obtain ⟨us, hus, hlength⟩ := exists_draws_of_applyOutcome happly
    exact ⟨us, hus, hlength.trans (EntryDraws.due_of_sure (t := ⟨(raw, v), us⟩) (readEffect?_of_ok hpath hread)).symm⟩
  | chance hpath hread hstep =>
    exact exists_draws_of_chanceStep (readEffect?_of_ok (e := (raw, v)) hpath hread) hstep

/-- Every entry takes the draws that are due to it, one entry after another. -/
theorem exists_draws_of_applyEntries {effects : Tree} (h : Returns (applyEntries c effects p) d p' d') :
    ∃ taken : List EntryDraws, taken.map EntryDraws.entry = effects ∧ d.Supplies (drawsOf taken) d' ∧
      ∀ t ∈ taken, t.draws.length = t.due c := by
  induction effects generalizing p d with
  | nil =>
    obtain ⟨-, rfl⟩ := returns_pure_iff.mp h
    exact ⟨[], rfl, rfl, by simp⟩
  | cons e rest ih =>
    obtain ⟨p₁, d₁, hfirst, hrest⟩ := returns_bind_iff.mp h
    obtain ⟨us, hown, hdue⟩ := exists_draws_of_entryStep (returns_applyEntry_iff.mp hfirst)
    obtain ⟨taken, hentries, hall, hothers⟩ := ih hrest
    refine ⟨⟨e, us⟩ :: taken, by simp [hentries], ?_, List.forall_mem_cons.mpr ⟨hdue, hothers⟩⟩
    exact Draws.supplies_append_iff.mpr ⟨d₁, hown, hall⟩

/-- The draws that are due are counted by kinds. -/
theorem length_drawsOf {taken : List EntryDraws} (h : ∀ t ∈ taken, t.draws.length = t.due c) :
    (drawsOf taken).length = (taken.map EntryDraws.entry).countP isPlainRange +
      (taken.map EntryDraws.entry).countP (rolls c.state) + taken.countP (EntryDraws.hitsRange c) := by
  induction taken with
  | nil => rfl
  | cons t rest ih =>
    obtain ⟨hfirst, hothers⟩ := List.forall_mem_cons.mp h
    have hsplit : (drawsOf (t :: rest)).length = t.due c + (drawsOf rest).length := by
      rw [drawsOf, List.flatMap_cons, List.length_append, hfirst, ← drawsOf]
    rw [hsplit, ih hothers, EntryDraws.due]
    simp only [List.map_cons, List.countP_cons, Bool.toNat, Bool.cond_eq_ite]
    omega

/-- A source of draws that counts them counts those that it supplies. -/
theorem Draws.calls?_of_supplies {us : List Amount} (h : d.Supplies us d') :
    d'.calls? = d.calls?.map (· + us.length) := by
  induction us generalizing d with
  | nil =>
    cases h
    simp
  | cons u us ih =>
    have hnext : d.next.2.calls? = d.calls?.map (· + 1) := by cases d <;> rfl
    rw [ih h.2, hnext, Option.map_map, List.length_cons]
    congr 1
    funext n
    simp only [Function.comp_apply]
    omega

end

/-- The draws of a resolution are accounted for: one for each random range, one for each chance whose condition
is met, and one more for each of these whose roll is a hit and whose outcome is a range. -/
theorem draws_of_resolve {c : Content} {id : String} {a : Action} {state effects : Tree} {tier : Tier}
    {amplify : Bool} {d d' : Draws} {r : Resolution} (ha : c.action? id = some a) (htier : a.tier state = .ok tier)
    (heffects : tier.effects = some effects) (h : Returns (resolve c id state amplify) d r d') :
    ∃ around taken, Resolution.circumstances c a state = .ok around ∧ taken.map EntryDraws.entry = effects ∧
      d.Supplies (drawsOf taken) d' ∧ d'.calls? = d.calls?.map (· + (drawsOf taken).length) ∧
      (drawsOf taken).length = effects.countP isPlainRange + effects.countP (rolls state) +
        taken.countP (EntryDraws.hitsRange around) ∧
      (∀ t ∈ taken, t.draws.length = t.due around) ∧ ∀ t ∈ taken, IsIdle state t.entry → t.draws = [] := by
  obtain ⟨around, p, p', haround, hp, -, rfl⟩ :=
    Resolution.returns_ofEffects_iff.mp ((Resolution.returns_resolve_iff ha htier heffects).mp h)
  obtain ⟨taken, hentries, hall, hdue⟩ := exists_draws_of_applyEntries hp
  have hstate := Resolution.state_of_circumstances haround
  have hcount := length_drawsOf hdue
  rw [hentries, hstate] at hcount
  refine ⟨around, taken, haround, hentries, hall, Draws.calls?_of_supplies hall, hcount, hdue, ?_⟩
  intro t ht hidle
  have hnone := (hdue t ht).trans (EntryDraws.due_of_isIdle (hstate ▸ hidle))
  exact List.eq_nil_of_length_eq_zero hnone

def unlikely (probability : Int) (more : Tree) : Value :=
  .mapping ([("probability", .int probability), ("value", .text "random(1,2)")] ++ more)

/-- Stones, a hit and a miss, a condition that cannot be read, and a place that is none. -/
def prospectEffects : Tree :=
  [("resources.stone", .text "random(1,4)"), ("resources.gold", unlikely 1 []), ("resources.gem", unlikely 0 []),
    ("resources.ore", unlikely 1 [("condition", .text " ")]), ("resources..coal", .text "random(1,2)")]

def prospects : Content := ⟨[("prospect", digging "prospect" prospectEffects)], [], [], []⟩

theorem prospect_takes_four_draws :
    prospectEffects.countP isPlainRange = 1 ∧ prospectEffects.countP (rolls []) = 2 ∧
      ∃ r around taken, Returns (resolve prospects "prospect" [] false) (byTurns 0) r (byTurns 4) ∧
        taken.map EntryDraws.entry = prospectEffects ∧ (byTurns 0).Supplies (drawsOf taken) (byTurns 4) ∧
        (drawsOf taken).length = 4 ∧ taken.countP (EntryDraws.hitsRange around) = 1 := by
  have hranges : prospectEffects.countP isPlainRange = 1 := by decide +kernel
  have hrolls : prospectEffects.countP (rolls []) = 2 := by decide +kernel
  have hreturns : Returns (resolve prospects "prospect" [] false) (byTurns 0)
      ⟨[("resources", .mapping [("stone", .int 1), ("gold", .int 1)])], [], [],
        ["[Effects] resources.stone: random(1,4) rolled 1",
          "[Effects] resources.gold: roll 0.7500 < chance 1.0000, fired",
          "[Effects] resources.gold: random(1,2) rolled 1",
          "[Effects] resources.gem: roll 0.7500 >= chance 0.0000, no effect",
          skipLine "resources.ore" "condition must be a non-empty string, got ' '",
          skipLine "resources..coal" "invalid state path 'resources..coal' (bad segment '')"]⟩ (byTurns 4) := by
    decide +kernel
  have htier : (digging "prospect" prospectEffects).tier [] =
      .ok ⟨some 1, some [], some [], some prospectEffects, Binary64.zero⟩ := by decide +kernel
  obtain ⟨around, taken, -, hentries, hall, hcalls, hcount, -, -⟩ := draws_of_resolve rfl htier rfl hreturns
  have hfour : (drawsOf taken).length = 4 := by
    have hsum : 4 = 0 + (drawsOf taken).length := Option.some.inj hcalls
    omega
  rw [hranges, hrolls, hfour] at hcount
  exact ⟨hranges, hrolls, _, around, taken, hreturns, hentries, hall, hfour, by omega⟩

end SurvivalRules
