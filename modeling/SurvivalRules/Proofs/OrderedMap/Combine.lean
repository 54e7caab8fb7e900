import SurvivalRules.Proofs.OrderedMap

/-!
# Combining maps

The entries of a map are written into another one, each combined with what is there under its key. Laying one map
over another is the case in which nothing is kept of what is there. Where combining values repeats without effect,
or is associative, combining maps is so, too, down to the order of the keys.
-/
namespace SurvivalRules.OrderedMap

variable {κ α : Type} [DecidableEq κ] {f : Option α → α → α} {k j : κ} {a : α} {base top m : OrderedMap κ α}

/-- Writes the entries of `top` into `base`, each combined with what is there. -/
def combine (f : Option α → α → α) (base top : OrderedMap κ α) : OrderedMap κ α :=
  top.foldl (fun m e => insert e.1 (f (get? e.1 m) e.2) m) base

theorem overlay_eq_combine (base top : OrderedMap κ α) : overlay base top = combine (fun _ a => a) base top := rfl

@[simp] theorem combine_nil (base : OrderedMap κ α) : combine f base [] = base := rfl

theorem combine_cons (base : OrderedMap κ α) (k : κ) (a : α) (top : OrderedMap κ α) :
    combine f base ((k, a) :: top) = combine f (insert k (f (get? k base) a) base) top := rfl

/-! ## Reading and writing -/

theorem get?_combine_of_not_mem (h : k ∉ keys top) : get? k (combine f base top) = get? k base := by
  induction top generalizing base with
  | nil => rfl
  | cons e rest ih =>
    obtain ⟨j, b⟩ := e
    simp only [keys_cons, List.mem_cons, not_or] at h
    rw [combine_cons, ih h.2, get?_insert_of_ne (Ne.symm h.1)]

/-- A key of the upper map reads as its value combined with what was there. -/
theorem get?_combine_of_get? (hnodup : (keys top).Nodup) (h : get? k top = some a) :
    get? k (combine f base top) = some (f (get? k base) a) := by
  induction top generalizing base with
  | nil => cases h
  | cons e rest ih =>
    obtain ⟨j, b⟩ := e
    simp only [keys_cons, List.nodup_cons] at hnodup
    rw [combine_cons]
    by_cases hjk : j = k
    · subst hjk
      simp only [get?, if_true, Option.some.injEq] at h
      rw [get?_combine_of_not_mem hnodup.1, get?_insert_self, h]
    · simp only [get?, hjk, if_false] at h
      rw [ih hnodup.2 h, get?_insert_of_ne hjk]

theorem combine_insert_of_not_mem (a : α) (hk : k ∈ keys base) (htop : k ∉ keys top) :
    combine f (insert k a base) top = insert k a (combine f base top) := by
  induction top generalizing base with
  | nil => rfl
  | cons e rest ih =>
    obtain ⟨j, b⟩ := e
    simp only [keys_cons, List.mem_cons, not_or] at htop
    have hmem := mem_keys_insert (a := f (get? j base) b).mpr (Or.inr hk : k = j ∨ k ∈ keys base)
    rw [combine_cons, combine_cons, get?_insert_of_ne htop.1, ← insert_comm_of_mem htop.1 hk, ih hmem htop.2]

/-- Writing to the upper map before is the same as writing the combined value behind. -/
theorem combine_insert (hnodup : (keys top).Nodup) (base : OrderedMap κ α) (k : κ) (a : α) :
    combine f base (insert k a top) = insert k (f (get? k base) a) (combine f base top) := by
  induction top generalizing base with
  | nil => rfl
  | cons e rest ih =>
    obtain ⟨j, b⟩ := e
    simp only [keys_cons, List.nodup_cons] at hnodup
    by_cases hjk : j = k
    · subst hjk
      have hmem := mem_keys_insert (k := j) (a := f (get? j base) b) (m := base).mpr (Or.inl rfl)
      have hins : insert j a ((j, b) :: rest) = (j, a) :: rest := by simp [insert]
      rw [hins, combine_cons, combine_cons, ← combine_insert_of_not_mem _ hmem hnodup.1, insert_insert_self]
    · have hins : insert k a ((j, b) :: rest) = (j, b) :: insert k a rest := by simp [insert, hjk]
      rw [hins, combine_cons, combine_cons, ih hnodup.2, get?_insert_of_ne hjk]

theorem nodup_keys_combine (h : (keys base).Nodup) (top : OrderedMap κ α) :
    (keys (combine f base top)).Nodup := by
  induction top generalizing base with
  | nil => exact h
  | cons e rest ih => exact ih (nodup_keys_insert h e.1 _)

/-- Entries under new keys go to the end. -/
theorem combine_of_apart (hnodup : (keys top).Nodup) (hapart : ∀ k ∈ keys top, k ∉ keys base) :
    combine f base top = base ++ mapValues (f none) top := by
  induction top generalizing base with
  | nil => simp [mapValues]
  | cons e rest ih =>
    obtain ⟨k, a⟩ := e
    simp only [keys_cons, List.nodup_cons] at hnodup
    have hk : k ∉ keys base := hapart k (by simp)
    have hnext : ∀ j ∈ keys rest, j ∉ keys (base ++ [(k, f none a)]) := by
      intro j hj
      have hjk : j ≠ k := fun he => hnodup.1 (he ▸ hj)
      simp [hapart j (List.mem_cons_of_mem _ hj), hjk]
    have hinsert : insert k (f none a) base = base ++ [(k, f none a)] := by
      have hend := insert_append_of_not_mem hk (f none a) []
      rwa [List.append_nil] at hend
    rw [combine_cons, get?_eq_none_iff.mpr hk, hinsert, ih hnodup.2 hnext]
    simp [mapValues]

/-! ## Repetition and composition -/

theorem combine_eq_self (h : ∀ e ∈ top, ∃ c, get? e.1 m = some c ∧ f (some c) e.2 = c) : combine f m top = m := by
  induction top with
  | nil => rfl
  | cons e rest ih =>
    obtain ⟨k, a⟩ := e
    obtain ⟨⟨c, hget, hsame⟩, hrest⟩ := List.forall_mem_cons.mp h
    rw [combine_cons, hget, hsame, insert_of_get? hget]
    exact ih hrest

/-- A map that has been combined is there already. -/
theorem combine_combine_self (hnodup : (keys top).Nodup)
    (hf : ∀ e ∈ top, ∀ c, f (some (f c e.2)) e.2 = f c e.2) (base : OrderedMap κ α) :
    combine f (combine f base top) top = combine f base top :=
  combine_eq_self fun e he => ⟨_, get?_combine_of_get? hnodup (get?_of_mem hnodup he), hf e he _⟩

/-- What combining values has to meet, as long as both are as `P` says, for combining maps to be associative. -/
structure Composes (f : Option α → α → α) (P : α → Prop) : Prop where
  closed : ∀ {a b}, P a → P b → P (f (some a) b)
  fresh : ∀ {a}, P a → P (f none a)
  assoc : ∀ {a b}, P a → P b → ∀ c, f (some (f c a)) b = f c (f (some a) b)
  unit : ∀ {b}, P b → ∀ c, f c (f none b) = f c b

namespace Composes

variable {P : α → Prop} {lower upper : OrderedMap κ α}

theorem insert (h : Composes f P) (hlower : ∀ e ∈ lower, P e.2) (ha : P a) (k : κ) :
    ∀ e ∈ OrderedMap.insert k (f (get? k lower) a) lower, P e.2 := by
  intro e he
  rcases mem_insert he with rfl | hmem
  · cases hget : get? k lower with
    | none => exact h.fresh ha
    | some b => exact h.closed (hlower _ (mem_of_get? hget)) ha
  · exact hlower e hmem

theorem combine (h : Composes f P) (hlower : ∀ e ∈ lower, P e.2) (hupper : ∀ e ∈ upper, P e.2) :
    ∀ e ∈ combine f lower upper, P e.2 := by
  induction upper generalizing lower with
  | nil => exact hlower
  | cons e rest ih =>
    obtain ⟨hfirst, hrest⟩ := List.forall_mem_cons.mp hupper
    exact ih (h.insert hlower hfirst e.1) hrest

/-- Combining with two maps one after the other is combining with their combination. -/
theorem combine_combine (h : Composes f P) (hnodup : (keys lower).Nodup) (hlower : ∀ e ∈ lower, P e.2)
    (hupper : ∀ e ∈ upper, P e.2) (base : OrderedMap κ α) :
    OrderedMap.combine f (OrderedMap.combine f base lower) upper =
      OrderedMap.combine f base (OrderedMap.combine f lower upper) := by
  -- the lower map takes up the entries of the upper one, one after another
  induction upper generalizing lower with
  | nil => rfl
  | cons e rest ih =>
    obtain ⟨k, b⟩ := e
    obtain ⟨hb, hrest⟩ := List.forall_mem_cons.mp hupper
    have hvalue : f (get? k (OrderedMap.combine f base lower)) b = f (get? k base) (f (get? k lower) b) := by
      cases hget : get? k lower with
      | none => rw [get?_combine_of_not_mem (get?_eq_none_iff.mp hget), h.unit hb]
      | some a => rw [get?_combine_of_get? hnodup hget, h.assoc (hlower _ (mem_of_get? hget)) hb]
    rw [combine_cons, combine_cons, hvalue, ← combine_insert hnodup]
    exact ih (nodup_keys_insert hnodup k _) (h.insert hlower hb k) hrest

end Composes

theorem composes_overlay : Composes (fun _ a => a : Option α → α → α) fun _ => True :=
  ⟨fun _ _ => trivial, fun _ => trivial, fun _ _ _ => rfl, fun _ _ => rfl⟩

theorem overlay_overlay_self (hnodup : (keys top).Nodup) (base : OrderedMap κ α) :
    overlay (overlay base top) top = overlay base top := by
  simp only [overlay_eq_combine]
  exact combine_combine_self hnodup (fun _ _ _ => rfl) base

theorem overlay_overlay {lower : OrderedMap κ α} (hnodup : (keys lower).Nodup) (base upper : OrderedMap κ α) :
    overlay (overlay base lower) upper = overlay base (overlay lower upper) := by
  simp only [overlay_eq_combine]
  exact composes_overlay.combine_combine hnodup (fun _ _ => trivial) (fun _ _ => trivial) base

end SurvivalRules.OrderedMap
