import Mathlib
import SurvivalRules.OrderedMap

/-!
# Laws of insertion-ordered maps

Which keys a map has after a write, when writes commute, and what it reads after another map is laid over
it. A map that starts with the keys of another is that map laid over the other.
-/
namespace SurvivalRules.OrderedMap

variable {κ α β : Type}

@[simp] theorem keys_nil : keys ([] : OrderedMap κ α) = [] := rfl

@[simp] theorem keys_cons (e : κ × α) (m : OrderedMap κ α) : keys (e :: m) = e.1 :: keys m := rfl

@[simp] theorem keys_append (m l : OrderedMap κ α) : keys (m ++ l) = keys m ++ keys l :=
  List.map_append

@[simp] theorem keys_mapValues (f : α → β) (m : OrderedMap κ α) : keys (mapValues f m) = keys m := by
  simp [keys, mapValues]

variable [DecidableEq κ]

theorem get?_eq_none_iff {k : κ} {m : OrderedMap κ α} : get? k m = none ↔ k ∉ keys m := by
  rw [← contains_iff_mem_keys, contains]
  simp

theorem mem_keys_of_get? {k : κ} {a : α} {m : OrderedMap κ α} (h : get? k m = some a) :
    k ∈ keys m := by
  by_contra hk
  rw [get?_eq_none_iff.mpr hk] at h
  simp at h

theorem exists_get?_of_mem_keys {k : κ} {m : OrderedMap κ α} (h : k ∈ keys m) :
    ∃ a, get? k m = some a := by
  cases hget : get? k m with
  | some a => exact ⟨a, rfl⟩
  | none => exact absurd h (get?_eq_none_iff.mp hget)

theorem mem_of_get? {k : κ} {a : α} {m : OrderedMap κ α} (h : get? k m = some a) : (k, a) ∈ m := by
  induction m with
  | nil => simp at h
  | cons e rest ih =>
    obtain ⟨key, b⟩ := e
    by_cases hk : key = k
    · subst hk
      simp only [get?, ↓reduceIte, Option.some.injEq] at h
      simp [h]
    · simp only [get?, hk, ↓reduceIte] at h
      exact List.mem_cons_of_mem _ (ih h)

theorem get?_of_mem {m : OrderedMap κ α} (hnodup : (keys m).Nodup) {e : κ × α} (h : e ∈ m) :
    get? e.1 m = some e.2 := by
  induction m with
  | nil => cases h
  | cons f rest ih =>
    obtain ⟨key, b⟩ := f
    simp only [keys_cons, List.nodup_cons] at hnodup
    rcases List.mem_cons.mp h with rfl | hrest
    · simp [get?]
    · have hne : key ≠ e.1 := fun he => hnodup.1 (he ▸ List.mem_map_of_mem hrest)
      simp only [get?, hne, if_false]
      exact ih hnodup.2 hrest

theorem keys_insert (k : κ) (a : α) (m : OrderedMap κ α) :
    keys (insert k a m) = if k ∈ keys m then keys m else keys m ++ [k] := by
  induction m with
  | nil => simp [insert]
  | cons e rest ih =>
    obtain ⟨key, b⟩ := e
    by_cases h : key = k
    · simp [insert, h]
    · have hne : k ≠ key := fun he => h he.symm
      simp only [insert, keys_cons, h, hne, ↓reduceIte, List.mem_cons, false_or, ih]
      split <;> simp

theorem mem_keys_insert {k j : κ} {a : α} {m : OrderedMap κ α} :
    j ∈ keys (insert k a m) ↔ j = k ∨ j ∈ keys m := by
  rw [keys_insert]
  split
  next h =>
    constructor
    · exact Or.inr
    · rintro (rfl | hj)
      · exact h
      · exact hj
  next => simp [or_comm]

theorem nodup_keys_insert {m : OrderedMap κ α} (h : (keys m).Nodup) (k : κ) (a : α) :
    (keys (insert k a m)).Nodup := by
  rw [keys_insert]
  split
  · exact h
  next hk =>
    rw [← List.concat_eq_append]
    exact h.concat hk

theorem keys_prefix_insert (k : κ) (a : α) (m : OrderedMap κ α) :
    keys m <+: keys (insert k a m) := by
  rw [keys_insert]
  split
  · exact List.prefix_rfl
  · exact List.prefix_append _ _

theorem insert_insert_self (k : κ) (a b : α) (m : OrderedMap κ α) :
    insert k a (insert k b m) = insert k a m := by
  induction m with
  | nil => simp [insert]
  | cons e rest ih =>
    obtain ⟨key, c⟩ := e
    by_cases h : key = k <;> simp [insert, h, ih]

theorem insert_append_of_not_mem {k : κ} {m : OrderedMap κ α} (h : k ∉ keys m) (a : α)
    (l : OrderedMap κ α) : insert k a (m ++ l) = m ++ insert k a l := by
  induction m with
  | nil => rfl
  | cons e rest ih =>
    obtain ⟨key, b⟩ := e
    simp only [keys_cons, List.mem_cons, not_or] at h
    have hne : ¬ key = k := fun he => h.1 he.symm
    simp [insert, hne, ih h.2]

theorem erase_append_cons {k : κ} {m l : OrderedMap κ α} (hm : k ∉ keys m) (hl : k ∉ keys l) (a : α) :
    erase k (m ++ (k, a) :: l) = m ++ l := by
  have hkept : ∀ {n : OrderedMap κ α}, k ∉ keys n → erase k n = n := by
    intro n hn
    refine List.filter_eq_self.mpr fun e he => decide_eq_true fun heq => hn ?_
    exact heq ▸ List.mem_map_of_mem he
  have hsplit : erase k (m ++ (k, a) :: l) = erase k m ++ erase k l := by simp [erase]
  rw [hsplit, hkept hm, hkept hl]

/-- A write to a key that is there does not move it, so it commutes with a write to another key. -/
theorem insert_comm_of_mem {k j : κ} {m : OrderedMap κ α} (hne : k ≠ j) (hk : k ∈ keys m)
    (a b : α) : insert k a (insert j b m) = insert j b (insert k a m) := by
  induction m with
  | nil => simp at hk
  | cons e rest ih =>
    obtain ⟨key, c⟩ := e
    by_cases hkey : key = k
    · subst hkey
      simp [insert, hne]
    · have hrest : k ∈ keys rest := by
        simp only [keys_cons, List.mem_cons] at hk
        exact hk.resolve_left fun he => hkey he.symm
      by_cases hj : key = j <;> simp [insert, hkey, hj, ih hrest, hne.symm]

@[simp] theorem overlay_nil (m : OrderedMap κ α) : overlay m [] = m := rfl

theorem overlay_cons (m : OrderedMap κ α) (k : κ) (a : α) (top : OrderedMap κ α) :
    overlay m ((k, a) :: top) = overlay (insert k a m) top := rfl

/-- Writing the entries of `top` one after another turns the keys it shares with `base` into its own
entries; `done` is what has been written so far. -/
theorem overlay_append_of_prefix (done : OrderedMap κ α) {base top : OrderedMap κ α}
    (hpre : keys base <+: keys top) (hnodup : (keys top).Nodup) (hdone : ∀ k ∈ keys top, k ∉ keys done) :
    overlay (done ++ base) top = done ++ top := by
  induction top generalizing done base with
  | nil =>
    have hbase : base = [] := by simpa [keys] using hpre
    simp [hbase]
  | cons e rest ih =>
    obtain ⟨k, a⟩ := e
    simp only [keys_cons, List.nodup_cons] at hnodup
    have hk : k ∉ keys done := hdone k (by simp)
    have hnext : ∀ j ∈ keys rest, j ∉ keys (done ++ [(k, a)]) := by
      intro j hj
      have hjd := hdone j (List.mem_cons_of_mem _ hj)
      have hjk : j ≠ k := fun he => hnodup.1 (he ▸ hj)
      simp [hjd, hjk]
    rw [overlay_cons]
    cases base with
    | nil =>
      rw [List.append_nil, ← List.append_nil done, insert_append_of_not_mem hk]
      have hnil : keys ([] : OrderedMap κ α) <+: keys rest := List.nil_prefix
      have h := ih (done ++ [(k, a)]) hnil hnodup.2 hnext
      simpa [insert] using h
    | cons e' more =>
      obtain ⟨k', b⟩ := e'
      simp only [keys_cons, List.cons_prefix_cons] at hpre
      obtain ⟨rfl, hmore⟩ := hpre
      rw [insert_append_of_not_mem hk]
      have h := ih (done ++ [(k', a)]) hmore hnodup.2 hnext
      simpa [insert] using h

theorem overlay_eq_of_prefix {base top : OrderedMap κ α} (hpre : keys base <+: keys top)
    (hnodup : (keys top).Nodup) : overlay base top = top :=
  overlay_append_of_prefix [] hpre hnodup (by simp)

theorem mem_insert {e : κ × α} {k : κ} {a : α} {m : OrderedMap κ α} (h : e ∈ insert k a m) :
    e = (k, a) ∨ e ∈ m := by
  induction m with
  | nil => exact Or.inl (by simpa [insert] using h)
  | cons f rest ih =>
    obtain ⟨key, b⟩ := f
    by_cases hk : key = k
    · subst hk
      simp only [insert, ↓reduceIte, List.mem_cons] at h
      exact h.imp_right fun hrest => by simp [hrest]
    · simp only [insert, hk, ↓reduceIte, List.mem_cons] at h
      rcases h with rfl | hrest
      · exact Or.inr (by simp)
      · exact (ih hrest).imp_right fun hmem => by simp [hmem]

theorem mem_overlay {e : κ × α} {base top : OrderedMap κ α} (h : e ∈ overlay base top) :
    e ∈ base ∨ e ∈ top := by
  induction top generalizing base with
  | nil => exact Or.inl h
  | cons f rest ih =>
    rcases ih h with hbase | hrest
    · rcases mem_insert hbase with rfl | hmem
      · exact Or.inr (by simp)
      · exact Or.inl hmem
    · exact Or.inr (by simp [hrest])

theorem mem_keys_overlay {k : κ} {base top : OrderedMap κ α} :
    k ∈ keys (overlay base top) ↔ k ∈ keys base ∨ k ∈ keys top := by
  induction top generalizing base with
  | nil => simp
  | cons e rest ih =>
    have hrest : k ∈ keys (overlay (insert e.1 e.2 base) rest) ↔ k ∈ keys (insert e.1 e.2 base) ∨ k ∈ keys rest := ih
    rw [mem_keys_insert, or_comm (a := k = e.1), or_assoc] at hrest
    rw [keys_cons, List.mem_cons]
    exact hrest

theorem nodup_keys_overlay {base : OrderedMap κ α} (h : (keys base).Nodup) (top : OrderedMap κ α) :
    (keys (overlay base top)).Nodup := by
  induction top generalizing base with
  | nil => exact h
  | cons e rest ih => exact ih (nodup_keys_insert h e.1 e.2)

theorem nodup_keys_ofList (entries : List (κ × α)) : (keys (ofList entries)).Nodup :=
  nodup_keys_overlay (by simp) entries

@[simp] theorem get?_mapValues (f : α → β) (k : κ) (m : OrderedMap κ α) :
    get? k (mapValues f m) = (get? k m).map f := by
  induction m with
  | nil => rfl
  | cons e rest ih =>
    obtain ⟨key, a⟩ := e
    simp only [mapValues] at ih
    by_cases h : key = k <;> simp [mapValues, get?, h, ih]

theorem insert_of_get? {k : κ} {a : α} {m : OrderedMap κ α} (h : get? k m = some a) :
    insert k a m = m := by
  induction m with
  | nil => cases h
  | cons e rest ih =>
    obtain ⟨key, b⟩ := e
    by_cases hk : key = k
    · simp only [get?, hk, if_true, Option.some.injEq] at h
      simp [insert, hk, h]
    · simp only [get?, hk, if_false] at h
      simp [insert, hk, ih h]

theorem mapValues_insert (f : α → β) (k : κ) (a : α) (m : OrderedMap κ α) :
    mapValues f (insert k a m) = insert k (f a) (mapValues f m) := by
  induction m with
  | nil => rfl
  | cons e rest ih =>
    obtain ⟨key, b⟩ := e
    by_cases hk : key = k
    · simp [insert, mapValues, hk]
    · simpa [insert, mapValues, hk] using ih

theorem mapValues_overlay (f : α → β) (base top : OrderedMap κ α) :
    mapValues f (overlay base top) = overlay (mapValues f base) (mapValues f top) := by
  induction top generalizing base with
  | nil => rfl
  | cons e rest ih =>
    obtain ⟨key, b⟩ := e
    have hrest := ih (insert key b base)
    rw [mapValues_insert] at hrest
    exact hrest

end SurvivalRules.OrderedMap
