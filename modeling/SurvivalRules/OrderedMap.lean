/-!
# Insertion-ordered maps

An association list read from the front. Writing to a key keeps its place, a new key goes to the end.
-/
namespace SurvivalRules

abbrev OrderedMap (κ α : Type) := List (κ × α)

namespace OrderedMap

variable {κ α β : Type} [DecidableEq κ]

def get? (k : κ) : OrderedMap κ α → Option α
  | [] => none
  | (key, a) :: rest => if key = k then some a else get? k rest

def insert (k : κ) (a : α) : OrderedMap κ α → OrderedMap κ α
  | [] => [(k, a)]
  | (key, b) :: rest => if key = k then (key, a) :: rest else (key, b) :: insert k a rest

def erase (k : κ) (m : OrderedMap κ α) : OrderedMap κ α := m.filter fun e => e.1 ≠ k

def contains (k : κ) (m : OrderedMap κ α) : Bool := (get? k m).isSome

def keys (m : OrderedMap κ α) : List κ := m.map Prod.fst

def values (m : OrderedMap κ α) : List α := m.map Prod.snd

/-- Writes the entries of `top` into `base` one after another. -/
def overlay (base top : OrderedMap κ α) : OrderedMap κ α :=
  top.foldl (fun m e => insert e.1 e.2 m) base

/-- A later entry of a list replaces the value of an earlier one with the same key. -/
def ofList (entries : List (κ × α)) : OrderedMap κ α := overlay [] entries

def mapValues (f : α → β) (m : OrderedMap κ α) : OrderedMap κ β := m.map fun e => (e.1, f e.2)

@[simp] theorem get?_nil (k : κ) : get? k ([] : OrderedMap κ α) = none := rfl

@[simp] theorem get?_insert_self (k : κ) (a : α) (m : OrderedMap κ α) :
    get? k (insert k a m) = some a := by
  induction m with
  | nil => simp [insert, get?]
  | cons e rest ih =>
    obtain ⟨key, b⟩ := e
    by_cases h : key = k <;> simp [insert, get?, h, ih]

theorem get?_insert_of_ne {k j : κ} (h : k ≠ j) (a : α) (m : OrderedMap κ α) :
    get? j (insert k a m) = get? j m := by
  induction m with
  | nil => simp [insert, get?, h]
  | cons e rest ih =>
    obtain ⟨key, b⟩ := e
    by_cases hk : key = k
    · subst hk
      simp [insert, get?, h]
    · by_cases hj : key = j
      · subst hj
        simp [insert, get?, hk]
      · simp [insert, get?, hk, hj, ih]

theorem get?_insert (k j : κ) (a : α) (m : OrderedMap κ α) :
    get? j (insert k a m) = if k = j then some a else get? j m := by
  by_cases h : k = j
  · subst h
    simp
  · simp [h, get?_insert_of_ne h]

theorem get?_erase_self (k : κ) (m : OrderedMap κ α) : get? k (erase k m) = none := by
  induction m with
  | nil => rfl
  | cons e rest ih =>
    obtain ⟨key, b⟩ := e
    by_cases h : key = k
    · simpa [erase, h] using ih
    · simpa [erase, h, get?] using ih

theorem get?_erase_of_ne {k j : κ} (h : k ≠ j) (m : OrderedMap κ α) :
    get? j (erase k m) = get? j m := by
  induction m with
  | nil => rfl
  | cons e rest ih =>
    obtain ⟨key, b⟩ := e
    by_cases hk : key = k
    · subst hk
      simpa [erase, get?, h] using ih
    · by_cases hj : key = j
      · subst hj
        simp [erase, hk, get?]
      · simpa [erase, hk, get?, hj] using ih

theorem contains_iff_mem_keys (k : κ) (m : OrderedMap κ α) : contains k m ↔ k ∈ keys m := by
  induction m with
  | nil => simp [contains, keys]
  | cons e rest ih =>
    obtain ⟨key, b⟩ := e
    by_cases h : key = k
    · simp [contains, get?, keys, h]
    · have hne : k ≠ key := fun he => h he.symm
      simpa [contains, get?, keys, h, hne] using ih

end OrderedMap

end SurvivalRules
