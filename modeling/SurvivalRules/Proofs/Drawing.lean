import Mathlib
import SurvivalRules.Resolve

/-!
# Steps that return

A chain of steps returns when each of its steps does, with the draws handed on from one to the next.
-/
namespace SurvivalRules

theorem bind_eq_ok_iff {ε α β : Type} {x : Except ε α} {f : α → Except ε β} {b : β} :
    (x >>= f) = .ok b ↔ ∃ a, x = .ok a ∧ f a = .ok b := by
  cases x <;> simp [bind, Except.bind]

theorem pure_eq_ok_iff {ε α : Type} {a b : α} : (pure a : Except ε α) = .ok b ↔ a = b := by
  simp [pure, Except.pure]

theorem exists_of_isSome_toOption {ε α : Type} {x : Except ε α} (h : x.toOption.isSome = true) : ∃ a, x = .ok a := by
  cases x with
  | error cause => cases h
  | ok a => exact ⟨a, rfl⟩

theorem exists_of_mem_forall₂ {α β : Type} {R : α → β → Prop} {l : List α} {m : List β}
    (h : List.Forall₂ R l m) {b : β} (hb : b ∈ m) : ∃ a ∈ l, R a b := by
  induction h with
  | nil => cases hb
  | cons hfirst _ ih =>
    rcases List.mem_cons.mp hb with rfl | hrest
    · exact ⟨_, List.mem_cons_self, hfirst⟩
    · obtain ⟨a, ha, hab⟩ := ih hrest
      exact ⟨a, List.mem_cons_of_mem _ ha, hab⟩

namespace Drawing

variable {α β : Type}

/-- The outcome of a step that starts with the draws `d`, and the draws that it leaves. -/
def runFrom (m : Drawing α) (d : Draws) : Except Fault α × Draws := m.run.run d

def Returns (m : Drawing α) (d : Draws) (a : α) (d' : Draws) : Prop := m.runFrom d = (.ok a, d')

instance [DecidableEq α] (m : Drawing α) (d : Draws) (a : α) (d' : Draws) :
    Decidable (Returns m d a d') :=
  inferInstanceAs (Decidable (_ = _))

theorem returns_unique {m : Drawing α} {d d₁ d₂ : Draws} {a b : α} (h : Returns m d a d₁)
    (h' : Returns m d b d₂) : a = b ∧ d₁ = d₂ := by
  have he : (Except.ok a, d₁) = (.ok b, d₂) := h.symm.trans h'
  cases he
  exact ⟨rfl, rfl⟩

theorem runFrom_bind (m : Drawing α) (f : α → Drawing β) (d : Draws) :
    runFrom (m >>= f) d = match runFrom m d with
      | (.ok a, d') => runFrom (f a) d'
      | (.error cause, d') => (.error cause, d') := by
  have h : runFrom (m >>= f) d = StateT.run (ExceptT.bindCont f (runFrom m d).1) (runFrom m d).2 := rfl
  rw [h]
  rcases runFrom m d with ⟨x, d'⟩
  cases x <;> rfl

theorem returns_pure_iff {a b : α} {d d' : Draws} :
    Returns (pure a) d b d' ↔ a = b ∧ d = d' := by
  have h : runFrom (pure a) d = (.ok a, d) := rfl
  simp [Returns, h]

theorem returns_bind_iff {m : Drawing α} {f : α → Drawing β} {d d' : Draws} {b : β} :
    Returns (m >>= f) d b d' ↔ ∃ a d₁, Returns m d a d₁ ∧ Returns (f a) d₁ b d' := by
  simp only [Returns, runFrom_bind]
  rcases runFrom m d with ⟨x, d₁⟩
  cases x with
  | error cause => simp
  | ok a =>
    constructor
    · exact fun hf => ⟨a, d₁, rfl, hf⟩
    · rintro ⟨c, d₂, hm, hf⟩
      cases hm
      exact hf

theorem returns_lift_iff {x : Except Fault α} {a : α} {d d' : Draws} :
    Returns (liftM x) d a d' ↔ x = .ok a ∧ d = d' := by
  have h : runFrom (liftM x) d = (x, d) := by
    cases x <;> rfl
  simp [Returns, h]

theorem returns_draw_iff {u : Amount} {d d' : Draws} :
    Returns draw d u d' ↔ d.next.1 = u ∧ d.next.2 = d' := by
  have h : runFrom draw d = (.ok d.next.1, d.next.2) := rfl
  simp [Returns, h]

end Drawing

/-- Draws that are zero over and over. -/
def zeroDraws : Draws := .replay ⟨[.int 0], 0, by decide, by decide⟩

end SurvivalRules
