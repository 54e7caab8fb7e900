import SurvivalRules.Proofs.State.Delta

/-!
# Deltas act on states

Merging a delta that has been merged changes nothing. Deltas whose sections are mappings make up a monoid under
merging, and merging two of them one after the other is merging what they make up together, whatever the sections
of the state are. Trees agree here down to the order of their keys.
-/
namespace SurvivalRules

/-- Every section has a name of its own, and so has every entry of a section that is a mapping. -/
structure Tree.NamesOnce (t : Tree) : Prop where
  sections : (OrderedMap.keys t).Nodup
  entries : t.Distinct

/-- A mapping that names each of its entries once. -/
def Value.IsSection (v : Value) : Prop := ∃ es, v = .mapping es ∧ (OrderedMap.keys es).Nodup

instance : DecidablePred Value.IsSection
  | .mapping es => decidable_of_iff (OrderedMap.keys es).Nodup (by simp [Value.IsSection])
  | .null | .bool _ | .int _ | .float _ | .text _ | .list _ => isFalse (by simp [Value.IsSection])

/-- A delta that holds mappings only. -/
structure Tree.IsSectioned (t : Tree) : Prop extends t.NamesOnce where
  mappings : ∀ e ∈ t, ∃ es, e.2 = .mapping es

namespace Tree

variable {t : Tree}

theorem lookup_of_mem (hnodup : (OrderedMap.keys t).Nodup) {e : String × Value} (he : e ∈ t) :
    t.lookup e.1 = e.2 := by
  rw [lookup, OrderedMap.get?_of_mem hnodup he, Option.getD_some]

theorem NamesOnce.nodup_of_mem (h : t.NamesOnce) {e : String × Value} (he : e ∈ t) :
    (OrderedMap.keys e.2.entries).Nodup :=
  lookup_of_mem h.sections he ▸ h.entries e.1

theorem IsSectioned.isSection_of_mem (h : t.IsSectioned) : ∀ e ∈ t, e.2.IsSection := by
  intro e he
  obtain ⟨es, hes⟩ := h.mappings e he
  have hnodup := h.nodup_of_mem he
  rw [hes] at hnodup
  exact ⟨es, hes, hnodup⟩

theorem isSectioned_iff : t.IsSectioned ↔ (OrderedMap.keys t).Nodup ∧ ∀ e ∈ t, e.2.IsSection := by
  constructor
  · exact fun h => ⟨h.sections, h.isSection_of_mem⟩
  · rintro ⟨hsections, hentries⟩
    refine ⟨⟨hsections, distinct_of_forall_mem fun e he => ?_⟩, fun e he => ?_⟩
    · obtain ⟨es, hes, hnodup⟩ := hentries e he
      rw [hes]
      exact hnodup
    · obtain ⟨es, hes, -⟩ := hentries e he
      exact ⟨es, hes⟩

end Tree

namespace Delta

/-! ## One section -/

theorem mergeSection_mergeSection_self {v : Value} (hnodup : (OrderedMap.keys v.entries).Nodup) (x : Value) :
    mergeSection (mergeSection x v) v = mergeSection x v := by
  cases v with
  | mapping fs =>
    cases x with
    | mapping es => exact congrArg Value.mapping (OrderedMap.overlay_overlay_self hnodup es)
    | _ => exact congrArg Value.mapping (OrderedMap.overlay_eq_of_prefix List.prefix_rfl hnodup)
  | _ => cases x <;> rfl

theorem mergeSection_assoc {v w : Value} (hv : v.IsSection) (hw : w.IsSection) (x : Value) :
    mergeSection (mergeSection x v) w = mergeSection x (mergeSection v w) := by
  obtain ⟨es, rfl, hes⟩ := hv
  obtain ⟨fs, rfl, -⟩ := hw
  cases x with
  | mapping ds => exact congrArg Value.mapping (OrderedMap.overlay_overlay hes ds fs)
  | _ => rfl

@[simp] theorem mergeSection_null (v : Value) : mergeSection .null v = v := by cases v <;> rfl

theorem isSection_mergeSection {v w : Value} (hv : v.IsSection) (hw : w.IsSection) :
    (mergeSection v w).IsSection := by
  obtain ⟨es, rfl, hes⟩ := hv
  obtain ⟨fs, rfl, -⟩ := hw
  exact ⟨_, rfl, OrderedMap.nodup_keys_overlay hes fs⟩

theorem composes_replaced : OrderedMap.Composes replaced Value.IsSection where
  closed := isSection_mergeSection
  fresh ha := by simpa [replaced] using ha
  assoc ha hb c := mergeSection_assoc ha hb (c.getD .null)
  unit _ c := by simp [replaced]

/-! ## Whole deltas -/

theorem merge_merge_self {delta : Tree} (h : delta.NamesOnce) (state : Tree) :
    merge (merge state delta) delta = merge state delta :=
  OrderedMap.combine_combine_self (f := replaced) h.sections
    (fun _ he c => mergeSection_mergeSection_self (h.nodup_of_mem he) (c.getD .null)) state

theorem nil_merge {delta : Tree} (h : (OrderedMap.keys delta).Nodup) : merge [] delta = delta := by
  have hkept : replaced none = id := funext mergeSection_null
  rw [merge_eq_combine, OrderedMap.combine_of_apart h (by simp), hkept]
  simp [OrderedMap.mapValues]

theorem isSectioned_merge {d₁ d₂ : Tree} (h₁ : d₁.IsSectioned) (h₂ : d₂.IsSectioned) : (merge d₁ d₂).IsSectioned := by
  refine Tree.isSectioned_iff.mpr ⟨?_, composes_replaced.combine h₁.isSection_of_mem h₂.isSection_of_mem⟩
  exact OrderedMap.nodup_keys_combine (f := replaced) h₁.sections d₂

theorem merge_merge {d₁ d₂ : Tree} (h₁ : d₁.IsSectioned) (h₂ : d₂.IsSectioned) (state : Tree) :
    merge (merge state d₁) d₂ = merge state (merge d₁ d₂) :=
  composes_replaced.combine_combine h₁.sections h₁.isSection_of_mem h₂.isSection_of_mem state

/-- Nothing to merge leaves every state as it is, and merging again what has been merged changes nothing. Deltas
with mappings for sections are closed under merging, the empty one is neutral, and merging two of them one after
the other is merging their merge, into every state. -/
theorem deltas_act_on_states (state : Tree) :
    merge state [] = state ∧
      (∀ delta : Tree, delta.NamesOnce → merge (merge state delta) delta = merge state delta) ∧
      ∀ d₁ d₂ : Tree, d₁.IsSectioned → d₂.IsSectioned →
        merge (merge state d₁) d₂ = merge state (merge d₁ d₂) ∧
          (merge d₁ d₂).IsSectioned ∧ merge [] d₁ = d₁ :=
  ⟨merge_nil state, fun _ h => merge_merge_self h state,
    fun _ _ h₁ h₂ => ⟨merge_merge h₁ h₂ state, isSectioned_merge h₁ h₂, nil_merge h₁.sections⟩⟩

def dayDelta : Tree :=
  [("resources", .mapping [("wood", .int 5)]), ("story", .mapping [("day", .int 1), ("hut", .bool true)])]

def nightDelta : Tree := [("story", .mapping [("night", .int 1), ("day", .int 2)]), ("flags", .mapping [])]

/-- A story that is no mapping is replaced by the first delta, and the second one is laid over it. -/
theorem day_and_night_merged :
    (dayDelta.IsSectioned ∧ nightDelta.IsSectioned) ∧
      merge (merge sampleState dayDelta) dayDelta = merge sampleState dayDelta ∧
      merge (merge sampleState dayDelta) nightDelta = merge sampleState (merge dayDelta nightDelta) ∧
      merge sampleState (merge dayDelta nightDelta) =
        [("resources", .mapping [("wood", .int 5)]),
          ("story", .mapping [("day", .int 2), ("hut", .bool true), ("night", .int 1)]), ("flags", .mapping [])] := by
  have hday : dayDelta.IsSectioned := Tree.isSectioned_iff.mpr (by decide)
  have hnight : nightDelta.IsSectioned := Tree.isSectioned_iff.mpr (by decide)
  obtain ⟨-, hagain, hboth⟩ := deltas_act_on_states sampleState
  exact ⟨⟨hday, hnight⟩, hagain dayDelta hday.toNamesOnce, (hboth dayDelta nightDelta hday hnight).1, by decide⟩

end Delta

end SurvivalRules
