import SurvivalRules.Proofs.Resolve.Malformed

/-!
# Entries behind other entries

What an entry does depends on the delta and on the draws that it takes, and on nothing else that came before.
So it does the same behind any progress with that delta, from any source that supplies those draws.
-/
namespace SurvivalRules

open Drawing

/-- The draws `us` are the next ones, and `d'` is what is left behind them. -/
def Draws.Supplies (d : Draws) : List Amount → Draws → Prop
  | [], d' => d = d'
  | u :: us, d' => d.next.1 = u ∧ d.next.2.Supplies us d'

theorem Draws.supplies_append_iff {d d' : Draws} {us vs : List Amount} :
    d.Supplies (us ++ vs) d' ↔ ∃ d₁, d.Supplies us d₁ ∧ d₁.Supplies vs d' := by
  induction us generalizing d with
  | nil => simp [Supplies]
  | cons u us ih => simp [Supplies, ih, and_assoc]

/-- A step that takes certain draws, and does the same to every progress that agrees. -/
def Steady (f : Progress → Drawing Progress) : Prop :=
  ∀ ⦃p d p' d'⦄, Returns (f p) d p' d' → ∃ us, d.Supplies us d' ∧
    ∀ ⦃q d₂ d₂'⦄, p.Agrees q → d₂.Supplies us d₂' → ∃ q', Returns (f q) d₂ q' d₂' ∧ p'.Agrees q'

section

variable {c : Circumstances} {raw : String} {path : StatePath} {p p' q : Progress} {a : Amount}

theorem Progress.Agrees.both_note (h : p.Agrees q) (line line' : String) :
    (p.note line).Agrees (q.note line') :=
  ⟨h.delta, h.logMessages, h.triggeredEvents⟩

theorem Progress.Agrees.write (h : p.Agrees q) (c : Circumstances) (path : StatePath) (v : Value) :
    (p.write c path v).Agrees (q.write c path v) :=
  ⟨congrArg (Delta.set · c.state path v) h.delta, h.logMessages, h.triggeredEvents⟩

theorem Progress.Agrees.addLog (h : p.Agrees q) (k : Chance) : (p.addLog k).Agrees (q.addLog k) :=
  ⟨h.delta, congrArg (· ++ _) h.logMessages, congrArg (· ++ _) h.triggeredEvents⟩

theorem Progress.Agrees.accumulate (h : p.Agrees q) (hp : p.accumulate c path a = .ok p') :
    ∃ q', q.accumulate c path a = .ok q' ∧ p'.Agrees q' := by
  obtain ⟨total, htotal, rfl⟩ := accumulate_eq_ok hp
  rw [h.delta] at htotal
  refine ⟨q.write c path (.ofAmount total), ?_, h.write c path _⟩
  simp only [Progress.accumulate, htotal, bind, Except.bind, pure, Except.pure]

theorem steady_lift {f : Progress → Except Fault Progress} (hf : ∀ ⦃p q p'⦄, p.Agrees q → f p = .ok p' →
    ∃ q', f q = .ok q' ∧ p'.Agrees q') : Steady fun p => liftM (f p) := by
  intro p d p' d' h
  obtain ⟨hp, rfl⟩ := returns_lift_iff.mp h
  refine ⟨[], rfl, fun q d₂ d₂' hagrees hsupplies => ?_⟩
  obtain ⟨q', hq, hagrees'⟩ := hf hagrees hp
  exact ⟨q', returns_lift_iff.mpr ⟨hq, hsupplies⟩, hagrees'⟩

theorem steady_applyConstant (c : Circumstances) (path : StatePath) (k : Constant) :
    Steady fun p => liftM (applyConstant c path k p) := by
  refine steady_lift fun p q p' hagrees h => ?_
  cases k with
  | truth b =>
    cases h
    exact ⟨_, rfl, hagrees.write c path _⟩
  | amount a =>
    simp only [applyConstant] at h ⊢
    split at h
    next hacc =>
      obtain ⟨paid, hpaid, hsum⟩ := bind_eq_ok_iff.mp h
      obtain ⟨q', hq, hagrees'⟩ := hagrees.accumulate hsum
      exact ⟨q', by simp only [if_pos hacc, hpaid, hq, bind, Except.bind], hagrees'⟩
    next hacc =>
      cases h
      exact ⟨_, by simp only [if_neg hacc], hagrees.write c path _⟩

theorem steady_applyRange (c : Circumstances) (path : StatePath) (r : RandomRange) :
    Steady (applyRange c path r) := by
  intro p d p' d' h
  simp only [applyRange, returns_bind_iff, returns_lift_iff, returns_draw_iff] at h
  obtain ⟨u, d₁, ⟨rfl, rfl⟩, n, d₂, ⟨hn, rfl⟩, line, d₃, ⟨hline, rfl⟩, a, d₄, ⟨ha, rfl⟩, hlast⟩ := h
  refine ⟨[d.next.1], ?_, fun q e e' hagrees hsupplies => ?_⟩
  · refine ⟨rfl, ?_⟩
    split at hlast
    · exact (returns_lift_iff.mp hlast).2
    · exact (returns_pure_iff.mp hlast).2
  obtain ⟨hnext, hleft⟩ := hsupplies
  have hnoted := hagrees.both_note line line
  simp only [applyRange, returns_bind_iff, returns_lift_iff, returns_draw_iff]
  split at hlast
  next hacc =>
    obtain ⟨q', hq, hagrees'⟩ := hnoted.accumulate (returns_lift_iff.mp hlast).1
    refine ⟨q', ⟨_, _, ⟨hnext, rfl⟩, n, _, ⟨hn, rfl⟩, line, _, ⟨hline, rfl⟩, a, _, ⟨ha, rfl⟩, ?_⟩,
      hagrees'⟩
    rw [if_pos hacc]
    exact returns_lift_iff.mpr ⟨hq, hleft⟩
  next hacc =>
    obtain ⟨rfl, -⟩ := returns_pure_iff.mp hlast
    refine ⟨_, ⟨_, _, ⟨hnext, rfl⟩, n, _, ⟨hn, rfl⟩, line, _, ⟨hline, rfl⟩, a, _, ⟨ha, rfl⟩, ?_⟩,
      hnoted.write c path _⟩
    rw [if_neg hacc]
    exact returns_pure_iff.mpr ⟨rfl, hleft⟩

theorem steady_applyOutcome (c : Circumstances) (path : StatePath) (o : Outcome) :
    Steady (applyOutcome c path o) := by
  cases o with
  | constant k => exact steady_applyConstant c path k
  | range r => exact steady_applyRange c path r

theorem steady_applyChance (c : Circumstances) (raw : String) (path : StatePath) (k : Chance) :
    Steady (applyChance c raw path k) := by
  intro p d p' d' h
  simp only [returns_applyChance_iff]
  cases returns_applyChance_iff.mp h with
  | unreadable hanswer =>
    refine ⟨[], rfl, fun q e e' hagrees hsupplies => ?_⟩
    cases hsupplies
    exact ⟨_, .unreadable hanswer, hagrees.both_note _ _⟩
  | unmet hanswer =>
    refine ⟨[], rfl, fun q e e' hagrees hsupplies => ?_⟩
    cases hsupplies
    exact ⟨_, .unmet hanswer, hagrees.both_note _ _⟩
  | missed hanswer hchance hroll hfirst hsecond =>
    refine ⟨[d.next.1], ⟨rfl, rfl⟩, fun q e e' hagrees hsupplies => ?_⟩
    obtain ⟨hnext, rfl⟩ := hsupplies
    rw [← hnext] at hroll hfirst
    exact ⟨_, .missed hanswer hchance hroll hfirst hsecond, hagrees.both_note _ _⟩
  | unreadableOutcome hanswer hchance hroll houtcome htold =>
    refine ⟨[d.next.1], ⟨rfl, rfl⟩, fun q e e' hagrees hsupplies => ?_⟩
    obtain ⟨hnext, rfl⟩ := hsupplies
    rw [← hnext] at hroll
    exact ⟨_, .unreadableOutcome hanswer hchance hroll houtcome htold, hagrees.both_note _ _⟩
  | fired hanswer hchance hroll houtcome hfirst hsecond happly =>
    obtain ⟨us, hus, hsteady⟩ := steady_applyOutcome c path _ happly
    refine ⟨d.next.1 :: us, ⟨rfl, hus⟩, fun q e e' hagrees hsupplies => ?_⟩
    obtain ⟨hnext, hrest⟩ := hsupplies
    obtain ⟨q', hq, hagrees'⟩ := hsteady (hagrees.both_note _ _) hrest
    rw [← hnext] at hroll hfirst
    exact ⟨_, .fired hanswer hchance hroll houtcome hfirst hsecond hq, hagrees'.addLog k⟩

/-- An entry does the same to every progress that agrees, with the draws that it takes. -/
theorem steady_applyEntry (c : Circumstances) (raw : String) (v : Value) : Steady (applyEntry c raw v) := by
  intro p d p' d' h
  simp only [returns_applyEntry_iff]
  cases returns_applyEntry_iff.mp h with
  | unreadablePath hpath =>
    refine ⟨[], rfl, fun q e e' hagrees hsupplies => ?_⟩
    cases hsupplies
    exact ⟨_, .unreadablePath hpath, hagrees.both_note _ _⟩
  | unreadableEffect hpath hread htold =>
    refine ⟨[], rfl, fun q e e' hagrees hsupplies => ?_⟩
    cases hsupplies
    exact ⟨_, .unreadableEffect hpath hread htold, hagrees.both_note _ _⟩
  | sure hpath hread happly =>
    obtain ⟨us, hus, hsteady⟩ := steady_applyOutcome c _ _ happly
    refine ⟨us, hus, fun q e e' hagrees hsupplies => ?_⟩
    obtain ⟨q', hq, hagrees'⟩ := hsteady hagrees hsupplies
    exact ⟨q', .sure hpath hread hq, hagrees'⟩
  | chance hpath hread hstep =>
    obtain ⟨us, hus, hsteady⟩ := steady_applyChance c raw _ _ (returns_applyChance_iff.mpr hstep)
    refine ⟨us, hus, fun q e e' hagrees hsupplies => ?_⟩
    obtain ⟨q', hq, hagrees'⟩ := hsteady hagrees hsupplies
    exact ⟨q', .chance hpath hread (returns_applyChance_iff.mp hq), hagrees'⟩

end

end SurvivalRules
