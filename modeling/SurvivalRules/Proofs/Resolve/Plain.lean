import SurvivalRules.Proofs.Resolve.Lines
import SurvivalRules.Proofs.State.Resources
import SurvivalRules.Store

/-!
# Plain effects

Whole numbers and truth values directly below the resources or the flags are resolved without draws. Each of
them settles at a value that depends on its own place and on the bonuses only, and to resolve and commit such
effects is to write these values.
-/
namespace SurvivalRules

open Drawing

/-- A whole number or a truth value. -/
def Value.IsConstant (v : Value) : Prop := (∃ n, v = .int n) ∨ ∃ b, v = .bool b

/-- An entry that puts a whole number or a truth value directly below the resources or the flags. -/
structure PlainEntry (raw : String) (v : Value) (q : StatePath) : Prop where
  parses : StatePath.parse raw = .ok q
  head : q.head = Section.resources.name ∨ q.head = Section.flags.name
  rest : ∃ name, q.rest = [name]
  constant : (∃ n, v = .int n) ∨ ∃ b, v = .bool b

/-- Effects of which every entry is plain. -/
structure Tree.IsPlain (effects : Tree) : Prop where
  nodup : (OrderedMap.keys effects).Nodup
  plain : ∀ e ∈ effects, ∃ q, PlainEntry e.1 e.2 q

/-- What a plain entry writes at a place that no entry before it wrote. -/
def addedUp (c : Circumstances) (q : StatePath) (v : Value) : Except Fault Value :=
  match v.amount? with
  | none => .ok v
  | some a =>
    if q.accumulates then do
      return .ofAmount (← ((c.state.get q).amount?.getD .zero).add (← payment c.reduction a))
    else .ok v

/-- The value that scaling leaves of a resource. -/
def rescaled (state : Tree) (multiplier : Binary64) (amplify : Bool) (name : String) (v : Value) :
    Except Fault Value :=
  match v.amount? with
  | none => .ok v
  | some new => do
    let (scaled, _) ← scaleGain state multiplier amplify name new (Trace.empty "Effects")
    return .ofAmount scaled

section

variable {c : Circumstances} {raw : String} {v : Value} {q : StatePath} {p p' : Progress} {d d' : Draws}

theorem PlainEntry.rest_ne_nil (h : PlainEntry raw v q) : q.rest ≠ [] := by
  obtain ⟨name, hname⟩ := h.rest
  simp [hname]

/-- An entry at no place is skipped, without any draw. -/
theorem returns_applyEntry_iff_of_error {cause : PathError} (hpath : StatePath.parse raw = .error cause) :
    Returns (applyEntry c raw v p) d p' d' ↔ p' = p.skip raw cause.message ∧ d' = d := by
  simp only [applyEntry, hpath, returns_pure_iff, eq_comm]

/-- A constant at a place that reads as in the state writes its value, without any draw. -/
theorem Value.IsConstant.returns_applyEntry_iff (h : v.IsConstant) (hpath : StatePath.parse raw = .ok q)
    (hcurrent : Delta.current p.delta c.state q = c.state.get q) :
    Returns (applyEntry c raw v p) d p' d' ↔
      d' = d ∧ ∃ w, addedUp c q v = .ok w ∧ p' = p.write c q w := by
  rcases h with ⟨n, rfl⟩ | ⟨b, rfl⟩
  · have hread : Effect.ofValue (.int n) = .ok (.sure (.constant (.amount (.int n)))) := rfl
    simp only [applyEntry, hpath, hread, applyOutcome, applyConstant, returns_lift_iff, addedUp,
      Value.amount?]
    split
    next =>
      simp only [Progress.accumulate, hcurrent, bind_eq_ok_iff, pure_eq_ok_iff]
      constructor
      · rintro ⟨⟨paid, hpaid, total, htotal, rfl⟩, rfl⟩
        exact ⟨rfl, _, ⟨paid, hpaid, total, htotal, rfl⟩, rfl⟩
      · rintro ⟨rfl, w, ⟨paid, hpaid, total, htotal, rfl⟩, rfl⟩
        exact ⟨⟨paid, hpaid, total, htotal, rfl⟩, rfl⟩
    next =>
      simp only [Except.ok.injEq, exists_eq_left', Constant.value, Value.ofAmount]
      exact ⟨fun h => ⟨h.2.symm, h.1.symm⟩, fun h => ⟨h.2.symm, h.1.symm⟩⟩
  · have hread : Effect.ofValue (.bool b) = .ok (.sure (.constant (.truth b))) := rfl
    simp only [applyEntry, hpath, hread, applyOutcome, applyConstant, returns_lift_iff, addedUp,
      Value.amount?, Except.ok.injEq, exists_eq_left', Constant.value]
    exact ⟨fun h => ⟨h.2.symm, h.1.symm⟩, fun h => ⟨h.2.symm, h.1.symm⟩⟩

theorem PlainEntry.not_comparable {raw' : String} {v' : Value} {q' : StatePath}
    (h : PlainEntry raw v q) (h' : PlainEntry raw' v' q') (hne : raw ≠ raw') : ¬ q.Comparable q' := by
  obtain ⟨name, hname⟩ := h.rest
  obtain ⟨name', hname'⟩ := h'.rest
  have hlength : q.keys.length = q'.keys.length := by simp [StatePath.keys, hname, hname']
  rintro (hp | hp)
  · exact hne (StatePath.raw_eq_of_keys_eq h.parses h'.parses (hp.eq_of_length hlength))
  · exact hne (StatePath.raw_eq_of_keys_eq h.parses h'.parses (hp.eq_of_length hlength.symm).symm)

/-- The writes that come of plain effects while they are resolved. -/
def Adds (c : Circumstances) (effects : Tree) (writes : List (StatePath × Value)) : Prop :=
  List.Forall₂ (fun e w => PlainEntry e.1 e.2 w.1 ∧ addedUp c w.1 e.2 = .ok w.2) effects writes

theorem returns_applyEntries_iff {effects : Tree} (hplain : effects.IsPlain)
    (hholds : ∀ e ∈ effects, ∀ q, StatePath.parse e.1 = .ok q →
      Delta.Holds p.delta c.state q (c.state.get q)) :
    Returns (applyEntries c effects p) d p' d' ↔
      d' = d ∧ ∃ writes, Adds c effects writes ∧
        p' = { p with delta := Delta.setAll p.delta c.state writes } := by
  induction effects generalizing p d with
  | nil =>
    simp only [applyEntries, returns_pure_iff]
    constructor
    · rintro ⟨rfl, rfl⟩
      exact ⟨rfl, [], .nil, rfl⟩
    · rintro ⟨rfl, writes, hadds, rfl⟩
      cases hadds
      exact ⟨rfl, rfl⟩
  | cons e rest ih =>
    obtain ⟨q, hq⟩ := hplain.plain e List.mem_cons_self
    have hnodup := hplain.nodup
    simp only [OrderedMap.keys_cons, List.nodup_cons] at hnodup
    have hrest : Tree.IsPlain rest := ⟨hnodup.2, fun u hu => hplain.plain u (List.mem_cons_of_mem e hu)⟩
    have hlater : ∀ w, ∀ u ∈ rest, ∀ r, StatePath.parse u.1 = .ok r →
        Delta.Holds (p.write c q w).delta c.state r (c.state.get r) := by
      intro w u hu r hr
      obtain ⟨r', hr'⟩ := hrest.plain u hu
      cases hr.symm.trans hr'.parses
      have hne : e.1 ≠ u.1 := fun he => hnodup.1 (he ▸ List.mem_map_of_mem hu)
      exact (hholds u (List.mem_cons_of_mem e hu) r hr).set w (hq.not_comparable hr' hne)
    have hcurrent := (hholds e List.mem_cons_self q hq.parses).current_eq
    have hconstant : e.2.IsConstant := hq.constant
    simp only [applyEntries, returns_bind_iff, hconstant.returns_applyEntry_iff hq.parses hcurrent]
    constructor
    · rintro ⟨p₁, d₁, ⟨rfl, w, hw, rfl⟩, hreturns⟩
      obtain ⟨rfl, writes, hadds, rfl⟩ := (ih hrest (hlater w)).mp hreturns
      exact ⟨rfl, (q, w) :: writes, .cons ⟨hq, hw⟩ hadds, rfl⟩
    · rintro ⟨rfl, writes, hadds, rfl⟩
      obtain ⟨w, others, ⟨hq', hw⟩, hothers, rfl⟩ := List.forall₂_cons_left_iff.mp hadds
      obtain ⟨path, value⟩ := w
      cases hq.parses.symm.trans hq'.parses
      exact ⟨_, _, ⟨rfl, value, hw, rfl⟩, (ih hrest (hlater value)).mpr ⟨rfl, others, hothers, rfl⟩⟩

end

/-- The numbers among the resources are natural numbers. -/
def Tree.NaturalResources (state : Tree) : Prop :=
  ∀ e ∈ (state.lookup Section.resources.name).entries, ∀ a, e.2.amount? = some a →
    ∃ n : ℕ, a = .int n

/-- As `rescaled`; a value that cannot be scaled is left as it is. -/
def rescale (state : Tree) (multiplier : Binary64) (amplify : Bool) (name : String) (v : Value) : Value :=
  (rescaled state multiplier amplify name v).toOption.getD v

section

variable {state : Tree} {multiplier : Binary64} {amplify : Bool} {name : String} {v w : Value}

theorem rescale_of_ok (h : rescaled state multiplier amplify name v = .ok w) :
    rescale state multiplier amplify name v = w := by
  simp [rescale, h, Except.toOption]

theorem rescaled_of_none (h : v.amount? = none) : rescaled state multiplier amplify name v = .ok v := by
  simp [rescaled, h]

/-- What scaling makes of a number does not depend on what was told before. -/
theorem rescaled_eq_ok_iff {new : Amount} (hv : v.amount? = some new) (t : Trace) :
    rescaled state multiplier amplify name v = .ok w ↔
      ∃ scaled t', scaleGain state multiplier amplify name new t = .ok (scaled, t') ∧
        w = .ofAmount scaled := by
  simp only [rescaled, hv, bind_eq_ok_iff, pure_eq_ok_iff]
  constructor
  · rintro ⟨⟨scaled, t'⟩, hscaled, rfl⟩
    obtain ⟨lines, htells⟩ := exists_tells_scaleGain hscaled
    exact ⟨scaled, _, htells.eq_ok t, rfl⟩
  · rintro ⟨scaled, t', hscaled, rfl⟩
    obtain ⟨lines, htells⟩ := exists_tells_scaleGain hscaled
    exact ⟨⟨scaled, _⟩, htells.eq_ok _, rfl⟩

/-- Scaling goes through exactly when it goes through for each resource by itself. -/
theorem exists_scaleEntries_iff {entries scaled : Tree} (t : Trace) :
    (∃ t', scaleEntries state multiplier amplify entries t = .ok (scaled, t')) ↔
      (∀ e ∈ entries, ∃ w, rescaled state multiplier amplify e.1 e.2 = .ok w) ∧
        scaled = entries.map fun e => (e.1, rescale state multiplier amplify e.1 e.2) := by
  induction entries generalizing scaled t with
  | nil =>
    constructor
    · rintro ⟨t', h⟩
      cases h
      exact ⟨by simp, rfl⟩
    · rintro ⟨-, rfl⟩
      exact ⟨t, rfl⟩
  | cons e rest ih =>
    obtain ⟨key, v⟩ := e
    constructor
    · rintro ⟨t', h⟩
      obtain ⟨w, more, t₁, hfirst, hrest, rfl⟩ := scaleEntries_cons h
      obtain ⟨hall, rfl⟩ := (ih t₁).mp ⟨t', hrest⟩
      have hw : rescaled state multiplier amplify key v = .ok w := by
        rcases hfirst with ⟨hnone, rfl⟩ | ⟨new, t₂, scaled, t₃, hnew, hgain, rfl⟩
        · exact rescaled_of_none hnone
        · exact (rescaled_eq_ok_iff hnew t₂).mpr ⟨scaled, t₃, hgain, rfl⟩
      exact ⟨List.forall_mem_cons.mpr ⟨⟨w, hw⟩, hall⟩, by rw [List.map_cons, rescale_of_ok hw]⟩
    · rintro ⟨hall, rfl⟩
      obtain ⟨⟨w, hw⟩, hrest⟩ := List.forall_mem_cons.mp hall
      have hfirst : ∃ t₁, (match v.amount? with
          | none => pure (v, t)
          | some new => do
            let (scaled, t) ← scaleGain state multiplier amplify key new t
            pure (Value.ofAmount scaled, t)) = (.ok (w, t₁) : Except Fault (Value × Trace)) := by
        cases hamount : v.amount? with
        | none =>
          rw [rescaled_of_none hamount] at hw
          cases hw
          exact ⟨t, rfl⟩
        | some new =>
          obtain ⟨scaled, t₁, hgain, rfl⟩ := (rescaled_eq_ok_iff hamount t).mp hw
          exact ⟨t₁, by simp only [hgain]; rfl⟩
      obtain ⟨t₁, ht₁⟩ := hfirst
      obtain ⟨t', ht'⟩ := (ih t₁).mpr ⟨hrest, rfl⟩
      refine ⟨t', ?_⟩
      unfold scaleEntries
      rw [List.map_cons, rescale_of_ok hw]
      exact bind_eq_ok_iff.mpr ⟨_, ht₁, bind_eq_ok_iff.mpr ⟨_, ht', rfl⟩⟩

theorem delta_scaleGains {p p' : Progress} (h : scaleGains state multiplier amplify p = .ok p') :
    p'.delta = Tree.mapResources (rescale state multiplier amplify) p.delta ∧
      ∀ e ∈ (p.delta.lookup Section.resources.name).entries,
        ∃ w, rescaled state multiplier amplify e.1 e.2 = .ok w := by
  unfold scaleGains at h
  split at h
  next entries hentries =>
    obtain ⟨⟨scaled, t'⟩, hscaled, hp⟩ := bind_eq_ok_iff.mp h
    cases pure_eq_ok_iff.mp hp
    obtain ⟨hall, rfl⟩ := (exists_scaleEntries_iff p.trace).mp ⟨t', hscaled⟩
    exact ⟨(Tree.mapResources_of_mapping hentries).symm, by rwa [hentries]⟩
  next hother =>
    cases h
    refine ⟨(Tree.mapResources_of_not_mapping hother).symm, fun e he => ?_⟩
    cases hlook : p.delta.lookup Section.resources.name with
    | mapping held => exact absurd hlook (hother held)
    | _ => rw [hlook] at he; cases he

theorem exists_scaleGains {p : Progress} (h : ∀ e ∈ (p.delta.lookup Section.resources.name).entries,
    ∃ w, rescaled state multiplier amplify e.1 e.2 = .ok w) :
    ∃ p', scaleGains state multiplier amplify p = .ok p' := by
  unfold scaleGains
  split
  next entries hentries =>
    rw [hentries] at h
    obtain ⟨t', ht'⟩ := (exists_scaleEntries_iff p.trace).mpr ⟨h, rfl⟩
    exact ⟨_, bind_eq_ok_iff.mpr ⟨_, ht', rfl⟩⟩
  next => exact ⟨p, rfl⟩

/-- Scaling keeps the natural numbers that are there. -/
theorem rescaled_of_natural (hd : state.DistinctAt Section.resources.name) (hnat : state.NaturalResources)
    {e : String × Value} (he : e ∈ (state.lookup Section.resources.name).entries) :
    rescaled state multiplier amplify e.1 e.2 = .ok e.2 := by
  cases hamount : e.2.amount? with
  | none => exact rescaled_of_none hamount
  | some a =>
    obtain ⟨n, rfl⟩ := hnat e he a hamount
    have hvalue : e.2 = .int n := by
      cases hv : e.2 <;> simp_all [Value.amount?]
    obtain ⟨held, hheld⟩ : ∃ held, state.lookup Section.resources.name = .mapping held := by
      cases hlook : state.lookup Section.resources.name with
      | mapping held => exact ⟨held, rfl⟩
      | _ => rw [hlook] at he; cases he
    have hbefore : amountBefore state e.1 = .ok (.int n) := by
      rw [Tree.DistinctAt, hheld] at hd
      rw [hheld] at he
      have hget : OrderedMap.get? e.1 held = some e.2 := OrderedMap.get?_of_mem hd he
      simp only [amountBefore, Tree.section?_of_lookup hheld, hget, Option.bind_some, hamount,
        Option.getD_some, bind, Except.bind, pure, Except.pure]
    rw [rescaled_eq_ok_iff hamount (Trace.empty "Effects")]
    refine ⟨.int n, Trace.empty "Effects", ?_, hvalue⟩
    have hle : (Amount.int ((n : ℤ) - n)).le .zero = true := by
      rw [Amount.zero, Amount.le_int_iff, sub_self]
    simp only [scaleGain, hbefore, Amount.sub_int, bind, Except.bind, if_pos hle, pure, Except.pure]

end

end SurvivalRules
