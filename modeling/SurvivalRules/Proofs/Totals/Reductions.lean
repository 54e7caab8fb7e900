import SurvivalRules.Proofs.Content.Loaded
import SurvivalRules.Proofs.Discount
import SurvivalRules.Proofs.Totals.Overflow

/-!
# The range of the reductions

No total reduction is above the whole price. None is below zero in any state if and only if no building declares
one below zero: the reductions of items are checked, those of buildings are not, and one building alone brings
its reduction into the totals.
-/
namespace SurvivalRules

open Binary64

/-- A total reduction in the range of shares, by which no price becomes negative and none that binary64 holds
becomes higher. -/
def IsDiscount (x : Binary64) : Prop :=
  GeneralBonuses.isShare x = true ∧ ∀ listPrice price, Amount.zero.le listPrice = true →
    adjustedCost listPrice (some (.float x)) = .ok price → Amount.zero.le price = true ∧
      ∀ y, listPrice.toBinary64 = .ok y → listPrice.same (.float y) = true → price.le listPrice = true

theorem isDiscount_iff {x : Binary64} : IsDiscount x ↔ GeneralBonuses.isShare x = true :=
  ⟨fun h => h.1, fun h => ⟨h, fun _ _ => adjustedCost_bounds h⟩⟩

namespace Binary64

variable {x y : Binary64}

/-- A number that is not below zero, or not-a-number. -/
def NotBelowZero (x : Binary64) : Prop := (Amount.float x).lt .zero = false

instance (x : Binary64) : Decidable x.NotBelowZero := inferInstanceAs (Decidable (_ = false))

theorem notBelowZero_iff : x.NotBelowZero ↔ x = .nan ∨ x.NonNegative := by
  cases hnan : x.isNaN with
  | true =>
    cases x with
    | nan => exact ⟨fun _ => Or.inl rfl, fun _ => rfl⟩
    | _ => cases hnan
  | false =>
    obtain ⟨p, hp⟩ := Amount.exists_point? hnan
    have hne : x ≠ .nan := by
      rintro rfl
      cases hnan
    simp [NotBelowZero, NonNegative, Amount.lt, Amount.le, hp, Amount.point?_zero, hne]

theorem notBelowZero_add (hx : x.NotBelowZero) (hy : y.NotBelowZero) : (x.add y).NotBelowZero := by
  rw [notBelowZero_iff] at *
  rcases hx with rfl | hx
  · exact Or.inl (nan_add y)
  · rcases hy with rfl | hy
    · exact Or.inl (add_nan x)
    · exact Or.inr (nonNegative_add hx hy)

theorem below_zero_cases (h : ¬ x.NotBelowZero) :
    x = .infinity true ∨ ∃ q, ∃ hq : OnGrid q, x = .finite q hq ∧ q < 0 := by
  cases x with
  | nan => exact absurd rfl h
  | infinity negative =>
    cases negative with
    | true => exact Or.inl rfl
    | false => exact absurd rfl h
  | negativeZero => exact absurd (by decide) h
  | finite q hq =>
    refine Or.inr ⟨q, hq, rfl, ?_⟩
    rw [NotBelowZero, Bool.not_eq_false, Amount.zero,
      Amount.lt_iff_of_point? (Amount.point?_float rfl) (Amount.point?_int 0)] at h
    exact_mod_cast h

theorem zero_add_of_below_zero (h : ¬ x.NotBelowZero) : zero.add x = x := by
  rcases below_zero_cases h with rfl | ⟨q, hq, rfl, hneg⟩
  · rfl
  · have hzeros : ¬ (zero = .negativeZero ∧ Binary64.finite q hq = .negativeZero) := by simp
    rw [add_eq_nearest (x := zero) rfl rfl hzeros, zero_add, nearest_eq_finite hq hneg.ne]

theorem notBelowZero_of_zero_add (h : (zero.add x).NotBelowZero) : x.NotBelowZero := by
  by_contra hbelow
  rw [zero_add_of_below_zero hbelow] at h
  exact hbelow h

theorem notBelowZero_of_isShare (h : GeneralBonuses.isShare x = true) : x.NotBelowZero :=
  notBelowZero_iff.mpr (Or.inr (nonNegative_of_isShare h))

end Binary64

namespace Amount

theorem exists_zero_add (a : Amount) : ∃ b, Amount.zero.add a = .ok b := by
  cases a with
  | int n => exact ⟨_, rfl⟩
  | float x =>
    have hzero : Amount.zero.toBinary64 = .ok (Binary64.ofInt 0) := toBinary64_int (by decide)
    exact ⟨_, bind_eq_ok_iff.mpr ⟨_, hzero, rfl⟩⟩

theorem exists_sub_zero (a : Amount) : ∃ b, a.sub .zero = .ok b := by
  cases a with
  | int n => exact ⟨_, rfl⟩
  | float x =>
    have hzero : Amount.zero.toBinary64 = .ok (Binary64.ofInt 0) := toBinary64_int (by decide)
    exact ⟨_, bind_eq_ok_iff.mpr ⟨x, rfl, bind_eq_ok_iff.mpr ⟨_, hzero, rfl⟩⟩⟩

end Amount

namespace Totals

variable {c : Content} {state : Tree} {t : Totals}

/-- A sum is capped to a share unless it is below zero, where it is left as it is. -/
theorem isShare_capped_iff {x : Binary64} : GeneralBonuses.isShare (capped x) = true ↔ x.NotBelowZero := by
  constructor
  · intro h
    by_contra hbelow
    have hcapped : capped x = x := by
      rcases below_zero_cases hbelow with rfl | ⟨q, hq, rfl, hneg⟩
      · rfl
      · have hlt : (Amount.float (.finite q hq)).lt (.int 1) = true := by
          rw [Amount.lt_iff_of_point? (Amount.point?_float rfl) (Amount.point?_int 1)]
          push_cast
          linarith
        rw [capped, if_pos hlt]
    rw [hcapped] at h
    exact hbelow (notBelowZero_of_isShare h)
  · intro h
    rcases notBelowZero_iff.mp h with rfl | hnonneg
    · decide +kernel
    · exact isShare_capped hnonneg

/-- Statistics that are zero can be raised once each. -/
theorem exists_addStats {amounts : OrderedMap Stat Amount} (hzero : ∀ e ∈ amounts, t.stat e.1 = .zero)
    (hnodup : (OrderedMap.keys amounts).Nodup) : ∃ t', t.addStats amounts = .ok t' := by
  induction amounts generalizing t with
  | nil => exact ⟨t, rfl⟩
  | cons e rest ih =>
    obtain ⟨s, a⟩ := e
    obtain ⟨hfirst, hrest⟩ := List.forall_mem_cons.mp hzero
    obtain ⟨hnew, hnodup⟩ := List.nodup_cons.mp hnodup
    obtain ⟨total, htotal⟩ := Amount.exists_zero_add a
    have hothers : ∀ e ∈ rest, ({ t with stats := OrderedMap.insert s total t.stats } : Totals).stat e.1 = .zero := by
      intro e he
      have hmem : e.1 ∈ OrderedMap.keys rest := List.mem_map_of_mem he
      have hne : s ≠ e.1 := fun heq => hnew (heq ▸ hmem)
      rw [stat, OrderedMap.get?_insert_of_ne hne]
      exact hrest e he
    obtain ⟨t', ht'⟩ := ih hothers hnodup
    refine ⟨t', bind_eq_ok_iff.mpr ⟨_, bind_eq_ok_iff.mpr ⟨total, ?_, rfl⟩, ht'⟩⟩
    rwa [hfirst]

/-- Where one building alone is built, its reductions are the totals. -/
theorem exists_ofState_oneOfEach (hc : c.IsFiled) {e : String × Action × TieredPlan} (he : e ∈ c.buildingActions)
    (hdescribed : e.2.1.Described) : ∃ t, ofState c (Content.oneOfEach [e.1]) = .ok t ∧
      t.reductions = (capped (Binary64.zero.add e.2.1.craftingCostReduction),
        capped (Binary64.zero.add e.2.1.buildingCostReduction)) := by
  have hstanding := Content.standingBuildings_oneOfEach he
  have howned : c.ownedItems (Content.oneOfEach [e.1]) = [] := rfl
  have hzero : ∀ s, (start (Content.oneOfEach [e.1])).stat s = .zero := fun s => by cases s <;> rfl
  obtain ⟨text, htext⟩ := hdescribed
  obtain ⟨t₁, ht₁⟩ := exists_addStats (fun f _ => hzero f.1) 
    (hc.nodup_statsEffects (Content.mem_values_of_mem_buildingActions he))
  obtain ⟨t₂, ht₂⟩ : ∃ t₂, (start (Content.oneOfEach [e.1])).addBuilding e.1 e.2.1 = .ok t₂ := by
    rw [addBuilding_eq]
    exact exists_contribute ht₁ htext
  obtain ⟨madness, hmadness⟩ := Amount.exists_sub_zero (t₂.stat .madness)
  have hreturns : ∃ t, ofState c (Content.oneOfEach [e.1]) = .ok t :=
    ⟨_, bind_eq_ok_iff.mpr ⟨(_, _), rfl, bind_eq_ok_iff.mpr ⟨_, hstanding, bind_eq_ok_iff.mpr
      ⟨t₂, bind_eq_ok_iff.mpr ⟨t₂, ht₂, rfl⟩, bind_eq_ok_iff.mpr ⟨madness, hmadness, rfl⟩⟩⟩⟩⟩
  obtain ⟨t, ht⟩ := hreturns
  obtain ⟨standing, hstanding', hsum⟩ := reductions_ofState ht
  cases hstanding.symm.trans hstanding'
  rw [howned] at hsum
  exact ⟨t, ht, hsum⟩

/-- No total reduction of accepted content is above the whole price, and one is a discount if and only if the sum of
what is declared is not below zero. So the totals of all states are discounts if and only if no building that can be
described declares a reduction below zero. -/
theorem reductions_are_discounts_iff {actions items families : List Value}
    (hc : Content.ofRecords actions items families = .ok c) :
    (∀ state t standing, ofState c state = .ok t → c.standingBuildings state = .ok standing →
      ((Amount.float t.craftingCostReduction).le (.int 1) = true ∧
        (Amount.float t.buildingCostReduction).le (.int 1) = true) ∧
      (IsDiscount t.craftingCostReduction ↔ (summedReductions (c.ownedItems state) standing).1.NotBelowZero) ∧
      (IsDiscount t.buildingCostReduction ↔ (summedReductions (c.ownedItems state) standing).2.NotBelowZero)) ∧
    ((∀ state t, ofState c state = .ok t → IsDiscount t.craftingCostReduction ∧ IsDiscount t.buildingCostReduction) ↔
      ∀ e ∈ c.buildingActions, e.2.1.Described →
        e.2.1.craftingCostReduction.NotBelowZero ∧ e.2.1.buildingCostReduction.NotBelowZero) := by
  have hfiled := Content.isFiled_ofRecords hc
  have hstates : ∀ state t standing, ofState c state = .ok t → c.standingBuildings state = .ok standing →
      t.craftingCostReduction = capped (summedReductions (c.ownedItems state) standing).1 ∧
        t.buildingCostReduction = capped (summedReductions (c.ownedItems state) standing).2 := by
    intro state t standing ht hstanding
    obtain ⟨standing', hstanding', hsum⟩ := reductions_ofState ht
    cases hstanding.symm.trans hstanding'
    exact Prod.mk.inj hsum
  refine ⟨fun state t standing ht hstanding => ?_, fun h e he hdescribed => ?_, fun h state t ht => ?_⟩
  · obtain ⟨hcrafting, hbuilding⟩ := hstates state t standing ht hstanding
    rw [hcrafting, hbuilding, isDiscount_iff, isDiscount_iff]
    exact ⟨⟨capped_le_one _, capped_le_one _⟩, isShare_capped_iff, isShare_capped_iff⟩
  -- a building alone brings its own reductions into the totals
  · obtain ⟨t, ht, hreductions⟩ := exists_ofState_oneOfEach hfiled he hdescribed
    obtain ⟨hcrafting, hbuilding⟩ := Prod.mk.inj hreductions
    obtain ⟨hshare, hshare'⟩ := h _ t ht
    rw [hcrafting, isDiscount_iff, isShare_capped_iff] at hshare
    rw [hbuilding, isDiscount_iff, isShare_capped_iff] at hshare'
    exact ⟨notBelowZero_of_zero_add hshare, notBelowZero_of_zero_add hshare'⟩
  -- what stands where totals are computed has been described
  · obtain ⟨standing, hstanding, -⟩ := reductions_ofState ht
    obtain ⟨hcrafting, hbuilding⟩ := hstates state t standing ht hstanding
    rw [hcrafting, hbuilding, isDiscount_iff, isDiscount_iff, isShare_capped_iff, isShare_capped_iff]
    refine foldl_addPair_induction (fun _ _ => notBelowZero_add) (fun r hr => ?_) (by decide +kernel)
    rcases List.mem_append.mp hr with hitem | hraised
    · obtain ⟨i, hi, rfl⟩ := List.mem_map.mp hitem
      have hshares := (hfiled.itemsChecked i (Content.item_mem_values_of_mem_ownedItems hi)).shares
      exact hshares.imp notBelowZero_of_isShare notBelowZero_of_isShare
    · obtain ⟨b, hb, rfl⟩ := List.mem_map.mp hraised
      obtain ⟨p, hp⟩ := Content.mem_of_standingAmong hstanding hb
      exact h (b.1, b.2, p) hp ((describes_of_ofState hstanding ht).buildings b hb)

/-- A building with a crafting reduction. -/
def toll (reduction : Binary64) : Action :=
  ⟨"buildToll", "Toll", "", none, [], reduction, Binary64.zero, .tiered ⟨"toll", [], [], [], .fixed Binary64.zero⟩⟩

def tollRoad (reduction : Binary64) : Content := ⟨[("buildToll", toll reduction)], [], [], []⟩

def half : Binary64 := Binary64.nearest (1 / 2)

theorem half_toll_is_discount : Content.ofRecords [(toll half).toValue] [] [] = .ok (tollRoad half) ∧
    (fun t => t.craftingCostReduction) <$> ofState (tollRoad half) (Content.oneOfEach ["toll"]) = .ok half ∧
    ∀ state t, ofState (tollRoad half) state = .ok t →
      IsDiscount t.craftingCostReduction ∧ IsDiscount t.buildingCostReduction := by
  have hload : Content.ofRecords [(toll half).toValue] [] [] = .ok (tollRoad half) := by decide +kernel
  have hdeclared : ∀ e ∈ (tollRoad half).buildingActions,
      e.2.1.craftingCostReduction.NotBelowZero ∧ e.2.1.buildingCostReduction.NotBelowZero := by decide +kernel
  exact ⟨hload, by decide +kernel, (reductions_are_discounts_iff hload).2.mpr fun e he _ => hdeclared e he⟩

/-- A reduction below zero is accepted and makes crafting dearer. Apart from that, a price that binary64 does not hold
can be rounded up. -/
theorem negative_toll_raises_price :
    Content.ofRecords [(toll half.neg).toValue] [] [] = .ok (tollRoad half.neg) ∧
      (fun t => t.craftingCostReduction) <$> ofState (tollRoad half.neg) (Content.oneOfEach ["toll"]) =
        .ok half.neg ∧
      GeneralBonuses.isShare half.neg = false ∧
      adjustedCost (.int 10) (some (.float half.neg)) = .ok (.int 15) ∧
      adjustedCost (.int (2 ^ 53 + 3)) (some (.float Binary64.zero)) = .ok (.int (2 ^ 53 + 4)) := by
  refine ⟨?_, ?_, ?_, ?_, ?_⟩ <;> decide +kernel

end Totals

end SurvivalRules
