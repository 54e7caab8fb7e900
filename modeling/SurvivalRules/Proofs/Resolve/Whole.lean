import SurvivalRules.Proofs.Resolve.Scaling

/-!
# Whole numbers stay whole

Discounts and multipliers are binary64 numbers, but what is paid and what is gained in the end is rounded
down to whole numbers: resources that are whole stay so through a payment, a scaled gain and an amplified one.
-/
namespace SurvivalRules

namespace Amount

def IsWhole (a : Amount) : Prop := ∃ n : ℤ, a = .int n

theorem isWhole_zero : zero.IsWhole := ⟨0, rfl⟩

variable {a b x : Amount}

theorem IsWhole.add (ha : a.IsWhole) (hb : b.IsWhole) (h : a.add b = .ok x) : x.IsWhole := by
  obtain ⟨m, rfl⟩ := ha
  obtain ⟨n, rfl⟩ := hb
  cases h
  exact ⟨m + n, rfl⟩

theorem IsWhole.sub (ha : a.IsWhole) (hb : b.IsWhole) (h : a.sub b = .ok x) : x.IsWhole := by
  obtain ⟨m, rfl⟩ := ha
  obtain ⟨n, rfl⟩ := hb
  cases h
  exact ⟨m - n, rfl⟩

theorem IsWhole.mul (ha : a.IsWhole) (hb : b.IsWhole) (h : a.mul b = .ok x) : x.IsWhole := by
  obtain ⟨m, rfl⟩ := ha
  obtain ⟨n, rfl⟩ := hb
  cases h
  exact ⟨m * n, rfl⟩

end Amount

/-- The value holds no number but a whole one. -/
def Value.IsWhole (v : Value) : Prop := ∀ a, v.amount? = some a → a.IsWhole

theorem Value.isWhole_ofAmount {a : Amount} (h : a.IsWhole) : (Value.ofAmount a).IsWhole := by
  intro b hb
  rw [Value.amount?_ofAmount] at hb
  cases hb
  exact h

theorem Value.IsWhole.getD_zero {v : Value} (h : v.IsWhole) : (v.amount?.getD .zero).IsWhole := by
  cases hv : v.amount? with
  | none => exact Amount.isWhole_zero
  | some a => exact h a hv

/-- The numbers among the resources are whole. -/
def Tree.WholeResources (t : Tree) : Prop :=
  ∀ e ∈ (t.lookup Section.resources.name).entries, e.2.IsWhole

theorem Tree.WholeResources.lookup {t : Tree} (h : t.WholeResources) (name : String) :
    (Tree.lookup (t.lookup Section.resources.name).entries name).IsWhole := by
  unfold Tree.lookup
  cases hv : OrderedMap.get? name (OrderedMap.get? Section.resources.name t |>.getD .null).entries with
  | none => exact fun a ha => absurd ha (by simp [Value.amount?])
  | some v => exact h (name, v) (OrderedMap.mem_of_get? hv)

theorem Tree.WholeResources.get {t : Tree} (h : t.WholeResources) {q : StatePath} {name : String}
    (hq : q.resource? = some name) : (t.get q).IsWhole := by
  obtain ⟨hhead, hrest⟩ := StatePath.resource?_eq_some_iff.mp hq
  rw [Tree.get_cons hrest, hhead, Value.descend_nil]
  exact h.lookup name

section

variable {a x new : Amount} {reduction : Option Amount} {multiplier : Binary64} {amplify : Bool}
  {name : String} {state : Tree} {t t' : Trace}

theorem isWhole_payment (ha : a.IsWhole) (h : payment reduction a = .ok x) : x.IsWhole := by
  unfold payment at h
  split at h
  · unfold adjustedCost at h
    split at h
    · cases h
      exact ha
    · obtain ⟨r, -, h⟩ := bind_eq_ok_iff.mp h
      obtain ⟨y, -, h⟩ := bind_eq_ok_iff.mp h
      obtain ⟨n, -, h⟩ := bind_eq_ok_iff.mp h
      cases pure_eq_ok_iff.mp h
      exact ⟨n, rfl⟩
  · cases h
    exact ha

theorem isWhole_multiplyGain {gain : Amount} (hnew : new.IsWhole)
    (h : multiplyGain multiplier name new gain t = .ok (x, t')) : x.IsWhole := by
  unfold multiplyGain at h
  split at h
  · cases h
    exact hnew
  obtain ⟨extra, -, h⟩ := bind_eq_ok_iff.mp h
  split at h
  · cases h
    exact hnew
  obtain ⟨more, hmore, h⟩ := bind_eq_ok_iff.mp h
  obtain ⟨line, -, h⟩ := bind_eq_ok_iff.mp h
  cases pure_eq_ok_iff.mp h
  exact hnew.add ⟨extra, rfl⟩ hmore

theorem isWhole_amplifyGain {before : Amount} (hbefore : before.IsWhole) (hnew : new.IsWhole)
    (h : amplifyGain name before new t = .ok (x, t')) : x.IsWhole := by
  obtain ⟨gain, hgain, h⟩ := bind_eq_ok_iff.mp h
  obtain ⟨more, hmore, h⟩ := bind_eq_ok_iff.mp h
  obtain ⟨total, htotal, h⟩ := bind_eq_ok_iff.mp h
  obtain ⟨shown, -, h⟩ := bind_eq_ok_iff.mp h
  obtain ⟨line, -, h⟩ := bind_eq_ok_iff.mp h
  cases pure_eq_ok_iff.mp h
  exact hbefore.add ((hnew.sub hbefore hgain).mul ⟨amplifyFactor, rfl⟩ hmore) htotal

theorem isWhole_amountBefore (hstate : state.WholeResources) (h : amountBefore state name = .ok x) :
    x.IsWhole := by
  obtain ⟨held, hheld, h⟩ := bind_eq_ok_iff.mp h
  cases pure_eq_ok_iff.mp h
  have hwhole := (hstate.lookup name).getD_zero
  rw [Tree.entries_of_section?_eq_ok hheld, Tree.lookup] at hwhole
  cases hv : OrderedMap.get? name held with
  | none => exact Amount.isWhole_zero
  | some v =>
    rw [hv] at hwhole
    exact hwhole

theorem isWhole_scaleGain (hstate : state.WholeResources) (hnew : new.IsWhole)
    (h : scaleGain state multiplier amplify name new t = .ok (x, t')) : x.IsWhole := by
  obtain ⟨before, hbefore, h⟩ := bind_eq_ok_iff.mp h
  obtain ⟨gain, hgain, h⟩ := bind_eq_ok_iff.mp h
  split at h
  · cases h
    exact hnew
  obtain ⟨⟨more, t₁⟩, hmore, h⟩ := bind_eq_ok_iff.mp h
  have hwhole := isWhole_multiplyGain hnew hmore
  dsimp only at h
  split at h
  · exact isWhole_amplifyGain (isWhole_amountBefore hstate hbefore) hwhole h
  · cases h
    exact hwhole

end

end SurvivalRules
