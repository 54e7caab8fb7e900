import SurvivalRules.Proofs.Resolve.Lines

/-!
# Malformed entries

An entry with a part that cannot be read writes nothing and tells nothing, whatever the draws are; and an
entry is left out only if it is malformed.
-/
namespace SurvivalRules

open Drawing

/-- An entry of the effects with a part that cannot be read. -/
inductive IsMalformed (raw : String) (v : Value) : Prop
  | path {cause : PathError} (hpath : StatePath.parse raw = .error cause)
  | effect {cause : EffectError} (hread : Effect.ofValue v = .error cause)
  | outcome {k : Chance} {cause : EffectError} (hread : Effect.ofValue v = .ok (.chance k))
    (houtcome : k.outcome = .error cause)
  | condition {k : Chance} {text : String} {cause : ConditionError}
    (hread : Effect.ofValue v = .ok (.chance k)) (htext : k.condition.filter (!·.isEmpty) = some text)
    (hcondition : Condition.read text = .error cause)

/-- Two progresses that differ at most in their traces. -/
structure Progress.Agrees (p q : Progress) : Prop where
  delta : p.delta = q.delta
  logMessages : p.logMessages = q.logMessages
  triggeredEvents : p.triggeredEvents = q.triggeredEvents

namespace Progress.Agrees

variable {p q r : Progress}

theorem refl (p : Progress) : p.Agrees p := ⟨rfl, rfl, rfl⟩

theorem symm (h : p.Agrees q) : q.Agrees p := ⟨h.delta.symm, h.logMessages.symm, h.triggeredEvents.symm⟩

theorem trans (h : p.Agrees q) (h' : q.Agrees r) : p.Agrees r :=
  ⟨h.delta.trans h'.delta, h.logMessages.trans h'.logMessages,
    h.triggeredEvents.trans h'.triggeredEvents⟩

theorem note (h : p.Agrees q) (line : String) : p.Agrees (q.note line) :=
  ⟨h.delta, h.logMessages, h.triggeredEvents⟩

theorem skip (h : p.Agrees q) (path reason : String) : p.Agrees (q.skip path reason) := h.note _

end Progress.Agrees

/-- The line of a trace that tells that an entry was left out, and why. -/
def skipLine (path reason : String) : String := Trace.mark "Effects" s!"skip {path}: {reason}"

/-- A trace of effects in which no entry is left out. -/
structure Trace.Unskipped (t : Trace) : Prop where
  tag : t.tag = "Effects"
  lines : ∀ path reason, skipLine path reason ∉ t.lines

theorem Trace.mark_injective (tag : String) : Function.Injective (Trace.mark tag) := by
  intro line line' h
  unfold Trace.mark at h
  split at h
  · exact h
  · have hlines : toString line = toString line' := by simpa using h
    exact hlines

namespace Trace.Unskipped

variable {t : Trace}

theorem empty : (Trace.empty "Effects").Unskipped := ⟨rfl, fun _ _ h => nomatch h⟩

theorem add (h : t.Unskipped) {line : String}
    (hline : ∀ path reason : String, line ≠ s!"skip {path}: {reason}") : (t.add line).Unskipped := by
  refine ⟨h.tag, fun path reason hmem => ?_⟩
  rcases List.mem_append.mp hmem with hmem | hmem
  · exact h.lines path reason hmem
  · rw [List.mem_singleton, h.tag] at hmem
    exact hline path reason (Trace.mark_injective "Effects" hmem).symm

/-- Lines about a path start with it, and a path has no blank where `skip` has one. -/
theorem add_of_path (h : t.Unskipped) {raw line : String} {path : StatePath}
    (hraw : StatePath.parse raw = .ok path) (hline : (raw ++ ":").toList <+: line.toList) :
    (t.add line).Unskipped := by
  refine h.add fun other reason he => ?_
  obtain ⟨rest, hrest⟩ := hline
  have hblank : ' ' ∉ raw.toList := StatePath.blank_not_mem_of_parse hraw
  have hchars : raw.toList ++ ':' :: rest =
      "skip".toList ++ ' ' :: (other ++ ": " ++ reason).toList := by
    have hskip := hrest.trans (congrArg String.toList he)
    simpa [toString] using hskip
  exact absurd (Text.mark_eq_of_append_eq hchars (by decide) hblank) (by decide)

theorem add_of_resource (h : t.Unskipped) (rest : String) : (t.add ("resources." ++ rest)).Unskipped := by
  refine h.add fun path reason he => ?_
  have hchars := congrArg String.toList he
  simp [toString] at hchars

theorem extend (h : t.Unskipped) {lines : List String}
    (habout : ∀ line ∈ lines, ∃ rest, line = "resources." ++ rest) : (t.extend lines).Unskipped := by
  induction lines generalizing t with
  | nil => exact h
  | cons line rest ih =>
    obtain ⟨⟨text, rfl⟩, hrest⟩ := List.forall_mem_cons.mp habout
    exact ih (h.add_of_resource text) hrest

end Trace.Unskipped

section

variable {c : Circumstances} {raw : String} {v : Value} {k : Chance} {path : StatePath} {state : Tree}
  {p p' : Progress} {d d' : Draws}

theorem Chance.answer_eq_unreadable_iff {cause : ConditionError} :
    k.answer state = .ok (.unreadable cause) ↔
      ∃ text, k.condition.filter (!·.isEmpty) = some text ∧ Condition.read text = .error cause := by
  unfold Chance.answer
  cases k.condition.filter (!·.isEmpty) with
  | none => simp
  | some text =>
    cases hread : Condition.read text with
    | error cause' => simp [hread]
    | ok condition =>
      simp only [Option.some.injEq, exists_eq_left', hread, reduceCtorEq, iff_false, bind_eq_ok_iff,
        pure_eq_ok_iff, not_exists, not_and]
      intro held _
      cases held <;> simp

theorem IsMalformed.not_sure {outcome : Outcome} (h : IsMalformed raw v)
    (hpath : StatePath.parse raw = .ok path) (hread : Effect.ofValue v = .ok (.sure outcome)) : False := by
  cases h with
  | path hbad => cases hpath.symm.trans hbad
  | effect hbad => cases hread.symm.trans hbad
  | outcome hchance => cases hread.symm.trans hchance
  | condition hchance => cases hread.symm.trans hchance

/-- A chance whose path and condition have been read is malformed by its outcome. -/
theorem IsMalformed.exists_outcome_error (h : IsMalformed raw v)
    (hpath : StatePath.parse raw = .ok path) (hread : Effect.ofValue v = .ok (.chance k))
    (hanswer : k.answer state = .ok .met) : ∃ cause, k.outcome = .error cause := by
  cases h with
  | path hbad => cases hpath.symm.trans hbad
  | effect hbad => cases hread.symm.trans hbad
  | outcome hsame hbad =>
    cases hread.symm.trans hsame
    exact ⟨_, hbad⟩
  | condition hsame htext hbad =>
    cases hread.symm.trans hsame
    cases hanswer.symm.trans (Chance.answer_eq_unreadable_iff.mpr ⟨_, htext, hbad⟩)

/-- A malformed entry writes nothing and tells nothing. -/
theorem agrees_of_isMalformed (hmalformed : IsMalformed raw v) (h : EntryStep c raw v p d p' d') :
    p.Agrees p' := by
  cases h with
  | unreadablePath hpath => exact (Progress.Agrees.refl p).skip _ _
  | unreadableEffect hpath hread htold => exact (Progress.Agrees.refl p).skip _ _
  | sure hpath hread happly => exact (hmalformed.not_sure hpath hread).elim
  | chance hpath hread hstep =>
    cases hstep with
    | unreadable hanswer => exact (Progress.Agrees.refl p).skip _ _
    | unmet hanswer => exact (Progress.Agrees.refl p).note _
    | missed => exact (Progress.Agrees.refl p).note _
    | unreadableOutcome => exact (Progress.Agrees.refl p).skip _ _
    | fired hanswer hchance hroll houtcome =>
      obtain ⟨cause, hbad⟩ := hmalformed.exists_outcome_error hpath hread hanswer
      cases houtcome.symm.trans hbad

theorem unskipped_of_applyConstant {o : Constant} (h : applyConstant c path o p = .ok p')
    (hp : p.trace.Unskipped) : p'.trace.Unskipped := by
  cases o with
  | truth b =>
    cases h
    exact hp
  | amount a =>
    simp only [applyConstant] at h
    split at h
    · obtain ⟨paid, -, hacc⟩ := bind_eq_ok_iff.mp h
      obtain ⟨total, -, rfl⟩ := Progress.accumulate_eq_ok hacc
      exact hp
    · cases h
      exact hp

theorem unskipped_of_applyRange {r : RandomRange} (hpath : StatePath.parse raw = .ok path)
    (h : Returns (applyRange c path r p) d p' d') (hp : p.trace.Unskipped) : p'.trace.Unskipped := by
  simp only [applyRange, returns_bind_iff, returns_lift_iff] at h
  obtain ⟨u, d₁, -, n, d₂, -, line, d₃, ⟨hline, -⟩, a, d₄, -, hlast⟩ := h
  have hnoted : (p.note line).trace.Unskipped := by
    obtain ⟨written, -, hrest⟩ := bind_eq_ok_iff.mp hline
    obtain ⟨bonus, -, hlast⟩ := bind_eq_ok_iff.mp hrest
    cases pure_eq_ok_iff.mp hlast
    refine hp.add_of_path hpath ?_
    rw [(StatePath.parse_eq_ok_iff.mp hpath).1]
    simp
  split at hlast
  · obtain ⟨total, -, rfl⟩ := Progress.accumulate_eq_ok (returns_lift_iff.mp hlast).1
    exact hnoted
  · obtain ⟨rfl, -⟩ := returns_pure_iff.mp hlast
    exact hnoted

theorem unskipped_of_applyOutcome {o : Outcome} (hpath : StatePath.parse raw = .ok path)
    (h : Returns (applyOutcome c path o p) d p' d') (hp : p.trace.Unskipped) : p'.trace.Unskipped := by
  cases o with
  | constant k => exact unskipped_of_applyConstant (returns_lift_iff.mp h).1 hp
  | range r => exact unskipped_of_applyRange hpath h hp

/-- An entry that is not malformed is not left out. -/
theorem unskipped_of_not_isMalformed (hreadable : ¬ IsMalformed raw v) (h : EntryStep c raw v p d p' d')
    (hp : p.trace.Unskipped) : p'.trace.Unskipped := by
  cases h with
  | unreadablePath hpath => exact absurd (.path hpath) hreadable
  | unreadableEffect hpath hread htold => exact absurd (.effect hread) hreadable
  | sure hpath hread happly => exact unskipped_of_applyOutcome hpath happly hp
  | chance hpath hread hstep =>
    cases hstep with
    | unreadable hanswer =>
      obtain ⟨text, htext, hcondition⟩ := Chance.answer_eq_unreadable_iff.mp hanswer
      exact absurd (.condition hread htext hcondition) hreadable
    | unmet hanswer =>
      refine hp.add_of_path hpath ?_
      simp [toString]
    | missed =>
      refine hp.add_of_path hpath ?_
      simp [rollText, toString]
    | unreadableOutcome hanswer hchance hroll houtcome => exact absurd (.outcome hread houtcome) hreadable
    | fired hanswer hchance hroll houtcome hfirst hsecond happly =>
      have hfired := unskipped_of_applyOutcome hpath happly (hp.add_of_path hpath (by
        simp [rollText, toString]))
      exact hfired

theorem unskipped_of_applyEntries {effects : Tree} (hreadable : ∀ e ∈ effects, ¬ IsMalformed e.1 e.2)
    (h : Returns (applyEntries c effects p) d p' d') (hp : p.trace.Unskipped) : p'.trace.Unskipped := by
  induction effects generalizing p d with
  | nil =>
    obtain ⟨rfl, -⟩ := returns_pure_iff.mp h
    exact hp
  | cons e rest ih =>
    obtain ⟨p₁, d₁, hfirst, hrest⟩ := returns_bind_iff.mp h
    have hone := unskipped_of_not_isMalformed (hreadable e List.mem_cons_self)
      (returns_applyEntry_iff.mp hfirst) hp
    exact ih (fun u hu => hreadable u (List.mem_cons_of_mem e hu)) hrest hone

theorem unskipped_of_scaleGains {multiplier : Binary64} {amplify : Bool}
    (h : scaleGains state multiplier amplify p = .ok p') (hp : p.trace.Unskipped) :
    p'.trace.Unskipped := by
  obtain ⟨lines, habout, hscale⟩ := exists_lines_of_scaleGains h
  have hsame := Except.ok.inj (h.symm.trans (hscale p rfl))
  rw [hsame]
  exact hp.extend habout

/-- Where no entry is malformed, none is left out. -/
theorem Resolution.skipLine_not_mem {content : Content} {a : Action} {amplify : Bool} {effects : Tree}
    {r : Resolution} (hreadable : ∀ e ∈ effects, ¬ IsMalformed e.1 e.2)
    (h : Returns (ofEffects content a state amplify effects) d r d') (path reason : String) :
    skipLine path reason ∉ r.trace := by
  obtain ⟨around, p, p', -, hp, hp', rfl⟩ := returns_ofEffects_iff.mp h
  have hentries := unskipped_of_applyEntries hreadable hp Trace.Unskipped.empty
  exact (unskipped_of_scaleGains hp' hentries).lines path reason

end

end SurvivalRules
