import SurvivalRules.Proofs.Resolve.Steps
import SurvivalRules.Proofs.State.Delta

/-!
# What the entries of an action write

Every entry writes at most once, at its own path, and what it writes is a number or a truth value. So a
property of the delta that such writes keep is kept by all entries together.
-/
namespace SurvivalRules

open Drawing

/-- Between two deltas an entry wrote at the path `raw`, or not at all. -/
def WroteAt (raw : String) (state delta delta' : Tree) : Prop :=
  delta' = delta ∨ ∃ q v, StatePath.parse raw = .ok q ∧ v.mapping? = none ∧
    delta' = Delta.set delta state q v

@[simp] theorem Value.mapping?_ofAmount (a : Amount) : (Value.ofAmount a).mapping? = none := by
  cases a <;> rfl

@[simp] theorem Constant.mapping?_value (k : Constant) : k.value.mapping? = none := by
  cases k with
  | truth b => rfl
  | amount a => exact Value.mapping?_ofAmount a

namespace Progress

theorem accumulate_eq_ok {p p' : Progress} {c : Circumstances} {path : StatePath} {a : Amount}
    (h : p.accumulate c path a = .ok p') :
    ∃ total, (((Delta.current p.delta c.state path).amount?.getD .zero).add a) = .ok total ∧
      p' = p.write c path (.ofAmount total) := by
  simp only [accumulate, bind_eq_ok_iff, pure_eq_ok_iff] at h
  obtain ⟨total, htotal, hp⟩ := h
  exact ⟨total, htotal, hp.symm⟩

end Progress

section

variable {c : Circumstances} {raw : String} {path : StatePath} {p p' : Progress} {d d' : Draws}

theorem wroteAt_write (hpath : StatePath.parse raw = .ok path) {v : Value} (hv : v.mapping? = none)
    (p : Progress) : WroteAt raw c.state p.delta (p.write c path v).delta :=
  Or.inr ⟨path, v, hpath, hv, rfl⟩

theorem wroteAt_accumulate (hpath : StatePath.parse raw = .ok path) {a : Amount}
    (h : p.accumulate c path a = .ok p') : WroteAt raw c.state p.delta p'.delta := by
  obtain ⟨total, -, rfl⟩ := Progress.accumulate_eq_ok h
  exact wroteAt_write hpath (Value.mapping?_ofAmount total) p

theorem wroteAt_applyConstant (hpath : StatePath.parse raw = .ok path) {k : Constant}
    (h : applyConstant c path k p = .ok p') : WroteAt raw c.state p.delta p'.delta := by
  cases k with
  | truth b =>
    cases h
    exact wroteAt_write hpath rfl p
  | amount a =>
    simp only [applyConstant] at h
    split at h
    · obtain ⟨paid, -, hacc⟩ := bind_eq_ok_iff.mp h
      exact wroteAt_accumulate hpath hacc
    · cases h
      exact wroteAt_write hpath (Constant.mapping?_value _) p

theorem wroteAt_applyRange (hpath : StatePath.parse raw = .ok path) {r : RandomRange}
    (h : Returns (applyRange c path r p) d p' d') : WroteAt raw c.state p.delta p'.delta := by
  simp only [applyRange, returns_bind_iff, returns_lift_iff] at h
  obtain ⟨u, d₁, -, n, d₂, -, line, d₃, -, a, d₄, -, hlast⟩ := h
  split at hlast
  · exact wroteAt_accumulate (p := p.note line) hpath (returns_lift_iff.mp hlast).1
  · obtain ⟨rfl, -⟩ := returns_pure_iff.mp hlast
    exact wroteAt_write hpath (Value.mapping?_ofAmount a) (p.note line)

theorem wroteAt_applyOutcome (hpath : StatePath.parse raw = .ok path) {o : Outcome}
    (h : Returns (applyOutcome c path o p) d p' d') : WroteAt raw c.state p.delta p'.delta := by
  cases o with
  | constant k => exact wroteAt_applyConstant hpath (returns_lift_iff.mp h).1
  | range r => exact wroteAt_applyRange hpath h

theorem wroteAt_chanceStep (hpath : StatePath.parse raw = .ok path) {k : Chance}
    (h : ChanceStep c raw path k p d p' d') : WroteAt raw c.state p.delta p'.delta := by
  cases h with
  | fired hanswer hchance hroll houtcome hfirst hsecond happly =>
    have hwrote := wroteAt_applyOutcome hpath happly
    exact hwrote
  | _ => exact Or.inl rfl

theorem wroteAt_applyEntry {v : Value} (h : Returns (applyEntry c raw v p) d p' d') :
    WroteAt raw c.state p.delta p'.delta := by
  cases returns_applyEntry_iff.mp h with
  | unreadablePath => exact Or.inl rfl
  | unreadableEffect => exact Or.inl rfl
  | sure hpath hread happly => exact wroteAt_applyOutcome hpath happly
  | chance hpath hread hstep => exact wroteAt_chanceStep hpath hstep

/-- A number on a resource is added, as far as it is paid, to what the place holds by then. -/
theorem exists_total_of_applyEntry {a : Amount} (hpath : StatePath.parse raw = .ok path)
    (hacc : path.accumulates = true) (h : Returns (applyEntry c raw (.ofAmount a) p) d p' d') :
    ∃ paid total, payment c.reduction a = .ok paid ∧
      ((Delta.current p.delta c.state path).amount?.getD .zero).add paid = .ok total ∧
      p'.delta = Delta.set p.delta c.state path (.ofAmount total) := by
  have hread : Effect.ofValue (.ofAmount a) = .ok (.sure (.constant (.amount a))) := by
    cases a <;> rfl
  simp only [applyEntry, hpath, hread, applyOutcome, applyConstant, hacc, if_true] at h
  obtain ⟨paid, hpaid, hp⟩ := bind_eq_ok_iff.mp (returns_lift_iff.mp h).1
  obtain ⟨total, htotal, rfl⟩ := Progress.accumulate_eq_ok hp
  exact ⟨paid, total, hpaid, htotal, rfl⟩

theorem exists_rangeLine {r : RandomRange} {n bonus : ℤ} (hn : Numeric.isWritable n = true)
    (hbonus : Numeric.isWritable bonus = true) : ∃ line, rangeLine path r n (.int bonus) = .ok line := by
  have htext : ∃ text, bonusText (.int bonus) = .ok text := by
    unfold bonusText
    split
    · exact ⟨"", rfl⟩
    · exact ⟨_, bind_eq_ok_iff.mpr ⟨_, Amount.written_of_isWritable hbonus, rfl⟩⟩
  obtain ⟨text, htext⟩ := htext
  exact ⟨_, bind_eq_ok_iff.mpr ⟨_, Amount.written_of_isWritable hn, bind_eq_ok_iff.mpr ⟨text, htext, rfl⟩⟩⟩

/-- A range on a resource adds the number that is drawn, and the bonus, to what the place holds by then. -/
theorem exists_returns_applyRange {r : RandomRange} {base n bonus : ℤ} (hacc : path.accumulates = true)
    (hbase : (Delta.current p.delta c.state path).amount?.getD .zero = .int base) (hdraw : r.draw d.next.1 = .ok n)
    (hn : Numeric.isWritable n = true) (hbonus : gainBonus c.bonus path = .int bonus)
    (hwritten : Numeric.isWritable bonus = true) :
    ∃ line, Returns (applyRange c path r p) d ((p.note line).write c path (.int (base + (n + bonus)))) d.next.2 := by
  obtain ⟨line, hline⟩ : ∃ line, rangeLine path r n (.int bonus) = .ok line := exists_rangeLine hn hwritten
  have htotal : (p.note line).accumulate c path (.int (n + bonus)) =
      .ok ((p.note line).write c path (.int (base + (n + bonus)))) := by
    have hnoted : (Delta.current (p.note line).delta c.state path).amount?.getD .zero = .int base := hbase
    simp only [Progress.accumulate, hnoted, Amount.add_int]
    rfl
  refine ⟨line, ?_⟩
  simp only [applyRange, hbonus, hacc, if_true, returns_bind_iff, returns_lift_iff, returns_draw_iff]
  exact ⟨_, _, ⟨rfl, rfl⟩, n, _, ⟨hdraw, rfl⟩, line, _, ⟨hline, rfl⟩, _, _, ⟨rfl, rfl⟩, htotal, rfl⟩

/-- What every write of an entry keeps is kept by all of them. -/
theorem applyEntries_induction {motive : Tree → Prop} {effects : Tree}
    (hstep : ∀ e ∈ effects, ∀ q, StatePath.parse e.1 = .ok q → ∀ v, v.mapping? = none →
      ∀ delta, motive delta → motive (Delta.set delta c.state q v))
    (h : Returns (applyEntries c effects p) d p' d') (hp : motive p.delta) : motive p'.delta := by
  induction effects generalizing p d with
  | nil =>
    obtain ⟨rfl, -⟩ := returns_pure_iff.mp h
    exact hp
  | cons e rest ih =>
    obtain ⟨p₁, d₁, hfirst, hrest⟩ := returns_bind_iff.mp h
    refine ih (fun u hu => hstep u (List.mem_cons_of_mem e hu)) hrest ?_
    rcases wroteAt_applyEntry hfirst with he | ⟨q, v, hq, hv, he⟩
    · rwa [he]
    · rw [he]
      exact hstep e List.mem_cons_self q hq v hv p.delta hp

theorem returns_applyEntries_append {front back : Tree} :
    Returns (applyEntries c (front ++ back) p) d p' d' ↔
      ∃ p₁ d₁, Returns (applyEntries c front p) d p₁ d₁ ∧ Returns (applyEntries c back p₁) d₁ p' d' := by
  induction front generalizing p d with
  | nil => simp [applyEntries, returns_pure_iff]
  | cons e rest ih =>
    simp only [List.cons_append, applyEntries, returns_bind_iff, ih]
    constructor
    · rintro ⟨p₁, d₁, hfirst, p₂, d₂, hrest, hback⟩
      exact ⟨p₂, d₂, ⟨p₁, d₁, hfirst, hrest⟩, hback⟩
    · rintro ⟨p₂, d₂, ⟨p₁, d₁, hfirst, hrest⟩, hback⟩
      exact ⟨p₁, d₁, hfirst, p₂, d₂, hrest, hback⟩

end

end SurvivalRules
