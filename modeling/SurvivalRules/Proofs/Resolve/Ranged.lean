import SurvivalRules.Proofs.RandomRange
import SurvivalRules.Proofs.Resolve.Multiplied

/-!
# Random gains of a resource

An entry with a random range changes its resource by a number of the range and the bonus for the resource. Without
a multiplier and amplification this is what the whole resolution changes it by, if no other entry writes there.
-/
namespace SurvivalRules

open Drawing

/-- An entry that puts a text, read as a range that can be drawn from, to a resource. The bonus is a whole number
that can be written, since the trace names it. -/
structure RangeEntry (c : Circumstances) (raw s : String) (q : StatePath) (r : RandomRange) (bonus : ℤ) : Prop where
  parses : StatePath.parse raw = .ok q
  resource : q.resource?.isSome = true
  reads : Outcome.ofValue (.text s) = .ok (.range r)
  drawable : r.isDrawable = true
  bonus_eq : gainBonus c.bonus q = .int bonus
  writable : Numeric.isWritable bonus = true

section

variable {c : Circumstances} {raw s : String} {q : StatePath} {r : RandomRange} {bonus b : ℤ} {p p' : Progress}
  {d d' : Draws} {front back : Tree}

theorem Outcome.ofValue_text_iff : ofValue (.text s) = .ok (.range r) ↔ RandomRange.ofText s = .ok r := by
  have hmap : ofValue (.text s) = Outcome.range <$> RandomRange.ofText s := rfl
  rw [hmap]
  cases RandomRange.ofText s <;> simp

namespace RangeEntry

theorem accumulates (h : RangeEntry c raw s q r bonus) : q.accumulates = true := by
  obtain ⟨name, hname⟩ := Option.isSome_iff_exists.mp h.resource
  exact StatePath.accumulates_iff.mpr (StatePath.resource?_eq_some_iff.mp hname).1

theorem rest_ne_nil (h : RangeEntry c raw s q r bonus) : q.rest ≠ [] := by
  obtain ⟨name, hname⟩ := Option.isSome_iff_exists.mp h.resource
  rw [(StatePath.resource?_eq_some_iff.mp hname).2]
  exact List.cons_ne_nil _ _

/-- The entry takes one draw, and adds a number of the range and the bonus to what its resource holds by then. -/
theorem exists_returns (h : RangeEntry c raw s q r bonus) (p : Progress) (d : Draws)
    (hb : (Delta.current p.delta c.state q).amount?.getD .zero = .int b) :
    ∃ n p', Returns (applyEntry c raw (.text s) p) d p' d.next.2 ∧ r.low + bonus ≤ n ∧ n ≤ r.high + bonus ∧
      p'.delta = Delta.set p.delta c.state q (.int (b + n)) := by
  obtain ⟨n, hdraw, hlow, hhigh⟩ := RandomRange.isDrawable_iff.mp h.drawable _ d.isDraw_next
  obtain ⟨hlowWritten, hhighWritten⟩ := RandomRange.isWritable_of_ofText (Outcome.ofValue_text_iff.mp h.reads)
  have hread : Effect.ofValue (.text s) = .ok (.sure (.range r)) := by
    have hmap : Effect.ofValue (.text s) = Effect.sure <$> Outcome.ofValue (.text s) := rfl
    rw [hmap, h.reads]
    rfl
  obtain ⟨line, hreturns⟩ := exists_returns_applyRange h.accumulates hb hdraw
    (Numeric.isWritable_of_between hlowWritten hhighWritten hlow hhigh) h.bonus_eq h.writable
  refine ⟨n + bonus, (p.note line).write c q (.int (b + (n + bonus))), ?_, by omega, by omega, rfl⟩
  simpa only [applyEntry, h.parses, hread, applyOutcome] using hreturns

end RangeEntry

/-- Entries at other places leave a place as it is. -/
theorem Delta.Holds.applyEntries {effects : Tree} {v : Value}
    (hapart : ∀ e ∈ effects, ∀ q', StatePath.parse e.1 = .ok q' → ¬ q'.Comparable q)
    (h : Returns (SurvivalRules.applyEntries c effects p) d p' d') (hp : Delta.Holds p.delta c.state q v) :
    Delta.Holds p'.delta c.state q v :=
  applyEntries_induction (motive := fun delta => Delta.Holds delta c.state q v)
    (fun e he q' hq' w _ _ hholds => hholds.set w (hapart e he q' hq')) h hp

/-- Among entries at other places the entry changes its resource by a number of the range and the bonus. -/
theorem RangeEntry.exists_holds (h : RangeEntry c raw s q r bonus)
    (hapart : ∀ e ∈ front ++ back, ∀ q', StatePath.parse e.1 = .ok q' → ¬ q'.Comparable q)
    (hb : (c.state.get q).amount?.getD .zero = .int b)
    (hp : Returns (applyEntries c (front ++ (raw, .text s) :: back) Progress.start) d p d') :
    ∃ n, r.low + bonus ≤ n ∧ n ≤ r.high + bonus ∧ Delta.Holds p.delta c.state q (.int (b + n)) := by
  obtain ⟨hfront, hback⟩ := List.forall_mem_append.mp hapart
  obtain ⟨p₁, d₁, hbefore, hrest⟩ := returns_applyEntries_append.mp hp
  obtain ⟨p₂, d₂, hentry, hafter⟩ := returns_bind_iff.mp hrest
  have hstart : Delta.Holds p₁.delta c.state q (c.state.get q) :=
    (Delta.holds_nil c.state q).applyEntries hfront hbefore
  obtain ⟨n, p₃, hreturns, hlow, hhigh, hdelta⟩ := h.exists_returns p₁ d₁ (hstart.current_eq ▸ hb)
  obtain ⟨rfl, rfl⟩ := returns_unique hreturns hentry
  refine ⟨n, hlow, hhigh, Delta.Holds.applyEntries hback hafter ?_⟩
  rw [hdelta]
  exact Delta.holds_set_self p₁.delta c.state h.rest_ne_nil _

end

/-! ## Without a multiplier -/

section

variable {state : Tree} {m : Binary64} {name : String} {v w : Value} {new x : Amount} {t t' : Trace}
  {p p' : Progress}

/-- Without a multiplier and amplification a resource is only compared with what it was before. -/
theorem scaleGain_of_isOne (hone : Bonus.isOne m = true) :
    scaleGain state m false name new t = .ok (x, t') ↔
      x = new ∧ t' = t ∧ ∃ before gain, amountBefore state name = .ok before ∧ new.sub before = .ok gain := by
  simp only [scaleGain, multiplyGain, hone, if_true, bind_eq_ok_iff]
  constructor
  · rintro ⟨before, hbefore, gain, hgain, h⟩
    have hsame : (new, t) = (x, t') := by
      split at h
      · exact pure_eq_ok_iff.mp h
      · obtain ⟨_, hkept, hlast⟩ := bind_eq_ok_iff.mp h
        cases pure_eq_ok_iff.mp hkept
        exact pure_eq_ok_iff.mp hlast
    cases hsame
    exact ⟨rfl, rfl, before, gain, hbefore, hgain⟩
  · rintro ⟨rfl, rfl, before, gain, hbefore, hgain⟩
    refine ⟨before, hbefore, gain, hgain, ?_⟩
    split <;> rfl

theorem rescaled_of_isOne (hone : Bonus.isOne m = true) (h : rescaled state m false name v = .ok w) : w = v := by
  cases hv : v.amount? with
  | none =>
    cases (rescaled_of_none hv).symm.trans h
    rfl
  | some new =>
    obtain ⟨x, t', hx, rfl⟩ := (rescaled_eq_ok_iff hv (Trace.empty "Effects")).mp h
    obtain ⟨rfl, -⟩ := (scaleGain_of_isOne hone).mp hx
    cases v <;> cases hv <;> rfl

/-- Without a multiplier and amplification scaling leaves the delta as it is. -/
theorem delta_scaleGains_of_isOne (hone : Bonus.isOne m = true) (h : scaleGains state m false p = .ok p') :
    p'.delta = p.delta := by
  obtain ⟨hdelta, hall⟩ := delta_scaleGains h
  rw [hdelta]
  refine Tree.mapResources_of_fixed fun e he => ?_
  obtain ⟨w, hw⟩ := hall e he
  rw [rescale_of_ok hw]
  exact rescaled_of_isOne hone hw

theorem Amount.exists_sub_self (a : Amount) : ∃ gain, a.sub a = .ok gain := by
  cases a with
  | int n => exact ⟨_, rfl⟩
  | float x => exact ⟨_, rfl⟩

/-- What is alone in a delta, a whole number beside what the state holds, can be scaled. -/
theorem exists_scaleGains_of_alone {held : Tree} {q : StatePath} {b k : ℤ} (hone : Bonus.isOne m = true)
    (hheld : state.section? Section.resources.name = .ok held) (hd : state.DistinctAt Section.resources.name)
    (hq : q.resource? = some name) (hb : (state.get q).amount?.getD .zero = .int b)
    (hp : p.delta = Delta.set [] state q (.int k)) : ∃ p', scaleGains state m false p = .ok p' := by
  obtain ⟨hhead, hrest⟩ := StatePath.resource?_eq_some_iff.mp hq
  have hentries := Tree.entries_of_section?_eq_ok hheld
  have hbefore : ∀ key, amountBefore state key = .ok (((OrderedMap.get? key held).bind Value.amount?).getD .zero) :=
    fun _ => bind_eq_ok_iff.mpr ⟨held, hheld, rfl⟩
  have hlook : p.delta.lookup Section.resources.name = .mapping (OrderedMap.insert name (.int k) held) := by
    rw [hp, ← hhead, Delta.lookup_set_name hrest, Delta.base_of_not_mem (by simp), hhead, hentries]
  refine exists_scaleGains fun e he => ?_
  rw [hlook] at he
  cases hamount : e.2.amount? with
  | none => exact ⟨_, rescaled_of_none hamount⟩
  | some new =>
    obtain ⟨before, gain, hfound, hgain⟩ : ∃ before gain, amountBefore state e.1 = .ok before ∧
        new.sub before = .ok gain := by
      rcases OrderedMap.mem_insert he with rfl | hmem
      · cases hamount
        have hname := amountBefore_eq_ok hhead hrest (hbefore name)
        exact ⟨_, _, hbefore name, by rw [hname, hb]; rfl⟩
      · rw [Tree.DistinctAt, hentries] at hd
        obtain ⟨gain, hgain⟩ := new.exists_sub_self
        refine ⟨new, gain, ?_, hgain⟩
        rw [hbefore, OrderedMap.get?_of_mem hd hmem, Option.bind_some, hamount, Option.getD_some]
    exact ⟨_, (rescaled_eq_ok_iff hamount (Trace.empty "Effects")).mpr
      ⟨new, _, (scaleGain_of_isOne hone).mpr ⟨rfl, rfl, before, gain, hfound, hgain⟩, rfl⟩⟩

end

/-! ## The whole resolution -/

/-- An action that is resolved without a multiplier on an entry with the text `s` among entries at other places,
where the state holds `b` of the resource. -/
structure RangeAction (content : Content) (id : String) (c : Circumstances) (raw s : String) (q : StatePath)
    (b : ℤ) (front back : Tree) : Prop where
  exists_effects : ∃ a tier, content.action? id = some a ∧ a.tier c.state = .ok tier ∧
    tier.effects = some (front ++ (raw, .text s) :: back) ∧ Resolution.circumstances content a c.state = .ok c
  multiplier : Bonus.isOne c.bonus.resourceMultiplier = true
  distinct : c.state.DistinctAt Section.resources.name
  apart : ∀ e ∈ front ++ back, ∀ q', StatePath.parse e.1 = .ok q' → ¬ q'.Comparable q
  before : (c.state.get q).amount?.getD .zero = .int b

section

variable {content : Content} {id raw s : String} {c : Circumstances} {q : StatePath} {r : RandomRange} {bonus b : ℤ}
  {front back : Tree} {d d' : Draws} {res : Resolution}

theorem RangeAction.exists_get_merge (h : RangeAction content id c raw s q b front back)
    (he : RangeEntry c raw s q r bonus) (hres : Returns (resolve content id c.state false) d res d') :
    ∃ n, r.low + bonus ≤ n ∧ n ≤ r.high + bonus ∧ (Delta.merge c.state res.delta).get q = .int (b + n) := by
  obtain ⟨a, tier, ha, htier, heffects, haround⟩ := h.exists_effects
  obtain ⟨around, p, p', haround', hp, hscaled, rfl⟩ :=
    Resolution.returns_ofEffects_iff.mp ((Resolution.returns_resolve_iff ha htier heffects).mp hres)
  cases haround.symm.trans haround'
  obtain ⟨n, hlow, hhigh, hholds⟩ := he.exists_holds h.apart h.before hp
  have hdelta : (Resolution.ofProgress p').delta = p.delta := delta_scaleGains_of_isOne h.multiplier hscaled
  have htidy : Delta.TidyAt p.delta c.state q.head := by
    rw [← hdelta, StatePath.accumulates_iff.mp he.accumulates]
    exact tidyAt_resolve h.distinct hres
  exact ⟨n, hlow, hhigh, hdelta ▸ hholds.get_merge htidy⟩

/-- An entry that is alone in its action is resolved. -/
theorem RangeAction.exists_returns (h : RangeAction content id c raw s q b [] []) (he : RangeEntry c raw s q r bonus)
    {held : Tree} (hheld : c.state.section? Section.resources.name = .ok held) (d : Draws) :
    ∃ res, Returns (resolve content id c.state false) d res d.next.2 := by
  obtain ⟨a, tier, ha, htier, heffects, haround⟩ := h.exists_effects
  obtain ⟨name, hname⟩ := Option.isSome_iff_exists.mp he.resource
  obtain ⟨n, p, hp, -, -, hdelta⟩ := he.exists_returns Progress.start d h.before
  obtain ⟨p', hscaled⟩ := exists_scaleGains_of_alone h.multiplier hheld h.distinct hname h.before hdelta
  have hentries : Returns (applyEntries c [(raw, .text s)] Progress.start) d p d.next.2 :=
    returns_bind_iff.mpr ⟨p, _, hp, returns_pure_iff.mpr ⟨rfl, rfl⟩⟩
  exact ⟨_, (Resolution.returns_resolve_iff ha htier heffects).mpr
    (Resolution.returns_ofEffects_iff.mpr ⟨c, p, p', haround, hentries, hscaled, rfl⟩)⟩

end

/-- Ranges are read back from their texts, and draws and gains stay between their bounds.

A draw is multiplied by the number of numbers in the range, so every draw selects one of them exactly if binary64
can hold that number, as it always can with bounds below `2 ^ 1000`. -/
theorem ranges_read_draw_and_gain :
    (∀ r : RandomRange, r.low.natAbs < 2 ^ 1000 → r.high.natAbs < 2 ^ 1000 →
      Outcome.ofValue (.text r.toText) = .ok (.range r) ∧ r.isDrawable = true) ∧
    ∀ s r, Outcome.ofValue (.text s) = .ok (.range r) →
      r.low ≤ r.high ∧ Outcome.ofValue (.text r.toText) = .ok (.range r) ∧
      (r.isDrawable = true ↔ ∀ u, isDraw u = true → ∃ n, r.draw u = .ok n ∧ r.low ≤ n ∧ n ≤ r.high) ∧
      ∀ c raw q bonus, RangeEntry c raw s q r bonus →
        (∀ p d b, (Delta.current p.delta c.state q).amount?.getD .zero = .int b →
          ∃ n p', Returns (applyEntry c raw (.text s) p) d p' d.next.2 ∧ r.low + bonus ≤ n ∧ n ≤ r.high + bonus ∧
            p'.delta = Delta.set p.delta c.state q (.int (b + n))) ∧
        ∀ content id b,
          (∀ front back d res d', RangeAction content id c raw s q b front back →
            Returns (resolve content id c.state false) d res d' →
              ∃ n, r.low + bonus ≤ n ∧ n ≤ r.high + bonus ∧ (Delta.merge c.state res.delta).get q = .int (b + n)) ∧
          (RangeAction content id c raw s q b [] [] →
            (∃ held, c.state.section? Section.resources.name = .ok held) →
              ∀ d, ∃ res, Returns (resolve content id c.state false) d res d.next.2) := by
  constructor
  · intro r hlow hhigh
    have hsafe : 1000 ≤ safeExponent := by decide
    have hlowWritten := Numeric.isWritable_of_le_two_pow hlow.le hsafe
    have hhighWritten := Numeric.isWritable_of_le_two_pow hhigh.le hsafe
    exact ⟨Outcome.ofValue_text_iff.mpr (RandomRange.ofText_toText hlowWritten hhighWritten),
      RandomRange.isDrawable_of_lt hsafe hlow hhigh⟩
  · intro s r hread
    obtain ⟨hlow, hhigh⟩ := RandomRange.isWritable_of_ofText (Outcome.ofValue_text_iff.mp hread)
    have hreprinted := Outcome.ofValue_text_iff.mpr (RandomRange.ofText_toText hlow hhigh)
    refine ⟨r.low_le_high, hreprinted, RandomRange.isDrawable_iff, fun c raw q bonus he => ?_⟩
    refine ⟨fun p d b hb => he.exists_returns p d hb, fun content id b => ?_⟩
    exact ⟨fun _ _ _ _ _ h hres => h.exists_get_merge he hres, fun h ⟨_, hheld⟩ d => h.exists_returns he hheld d⟩

/-- A shovel with which two more stones are dug. -/
def shovel : Item where
  id := "shovel"
  name := "Shovel"
  description := ""
  slot := .relics
  actionBonuses := [("shaft", ⟨[("stone", .int 2)], Binary64.one, Binary64.zero, Binary64.zero⟩)]
  generalBonuses := GeneralBonuses.none

def shoveling : Content := ⟨[("shaft", digging "shaft" shaftEffects)], [("shovel", shovel)], [], []⟩

def shaftState : Tree := [("resources", .mapping [("stone", .int 3)]), ("relics", .mapping [("shovel", .bool true)])]

/-- What the shaft is dug under, with that bonus for stones. -/
def shaftAround (bonus : ℤ) : Circumstances :=
  ⟨shaftState, ⟨[("stone", .int bonus)], Binary64.one, Binary64.zero, Binary64.zero⟩,
    some (.float Binary64.zero), .int 0⟩

def stonePlace : StatePath := ⟨"resources.stone", "resources", ["stone"]⟩

def fewStones : RandomRange := ⟨1, 4, by decide⟩

theorem rangeEntry_shaft : RangeEntry (shaftAround 2) "resources.stone" "random(1,4)" stonePlace fewStones 2 where
  parses := by decide +kernel
  resource := by decide +kernel
  reads := by decide +kernel
  drawable := by decide +kernel
  bonus_eq := by decide +kernel
  writable := by decide +kernel

theorem rangeAction_shaft :
    RangeAction shoveling "shaft" (shaftAround 2) "resources.stone" "random(1,4)" stonePlace 3 [] [] where
  exists_effects := ⟨digging "shaft" shaftEffects, ⟨some 1, some [], some [], some shaftEffects, Binary64.zero⟩, rfl,
    by decide +kernel, rfl, by decide +kernel⟩
  multiplier := by decide +kernel
  distinct := Tree.distinct_of_forall_mem (by decide) _
  apart := by simp
  before := by decide +kernel

/-- With the shovel one to four stones are three to six, and these are what the shaft adds to the three there are. -/
theorem shovel_adds_to_the_range :
    Outcome.ofValue (.text "random(1,4)") = .ok (.range fewStones) ∧
      (∃ n, fewStones.draw (byTurns 1).next.1 = .ok n ∧ 1 ≤ n ∧ n ≤ 4) ∧
      (∃ n p', Returns (applyEntry (shaftAround 2) "resources.stone" (.text "random(1,4)") Progress.start)
        (byTurns 1) p' (byTurns 2) ∧ 3 ≤ n ∧ n ≤ 6 ∧ p'.delta = Delta.set [] shaftState stonePlace (.int (3 + n))) ∧
      ∃ res, Returns (resolve shoveling "shaft" shaftState false) (byTurns 1) res (byTurns 2) ∧
        ∃ n, 3 ≤ n ∧ n ≤ 6 ∧ (Delta.merge shaftState res.delta).get stonePlace = .int (3 + n) := by
  obtain ⟨hsmall, hranges⟩ := ranges_read_draw_and_gain
  have hread : Outcome.ofValue (.text "random(1,4)") = .ok (.range fewStones) :=
    (hsmall fewStones (by decide +kernel) (by decide +kernel)).1
  obtain ⟨-, -, hdraws, hgains⟩ := hranges "random(1,4)" _ hread
  obtain ⟨hentry, hactions⟩ := hgains _ _ _ _ rangeEntry_shaft
  obtain ⟨hchange, hreturns⟩ := hactions shoveling "shaft" 3
  obtain ⟨res, hres⟩ := hreturns rangeAction_shaft ⟨_, rfl⟩ (byTurns 1)
  exact ⟨hread, hdraws.mp rangeEntry_shaft.drawable _ (byTurns 1).isDraw_next,
    hentry Progress.start (byTurns 1) 3 (by decide +kernel), res, hres, hchange [] [] _ res _ rangeAction_shaft hres⟩

/-- More numbers than binary64 can hold. -/
def wideRange : RandomRange := ⟨0, 10 ^ 309, by positivity⟩

/-- Half of a range that is too wide cannot be taken, and a bonus that is too long cannot be traced. -/
theorem wide_range_and_long_bonus_fail :
    (Outcome.ofValue (.text wideRange.toText) = .ok (.range wideRange) ∧
      isDraw (.float (Binary64.nearest (1 / 2))) = true ∧
      wideRange.draw (.float (Binary64.nearest (1 / 2))) = .error .outOfRange) ∧
    ((applyEntry (shaftAround (10 ^ 4300)) "resources.stone" (.text "random(1,4)") Progress.start).runFrom
      (byTurns 1)).1 = .error .tooLong := by
  have hlow : Numeric.isWritable wideRange.low = true := by decide
  have hhigh : Numeric.isWritable wideRange.high = true := by decide +kernel
  have hwide : wideRange.isDrawable = false := by decide +kernel
  exact ⟨⟨Outcome.ofValue_text_iff.mpr (RandomRange.ofText_toText hlow hhigh), by decide +kernel,
    RandomRange.draw_float_of_not_isDrawable hwide _⟩, by decide +kernel⟩

end SurvivalRules
