import SurvivalRules.Proofs.Gate.Affordability
import SurvivalRules.Proofs.Payment
import SurvivalRules.Proofs.Reasons

/-!
# Holdings of any size

Without a discount a price is compared as it is written, but what is held is converted to a binary64 number before.
So whole numbers are compared exactly where the number that is held is one of the format, as all up to `2 ^ 53` are.
A larger one is rounded, and one beyond the range is not compared at all.
-/
namespace SurvivalRules

open Binary64

namespace Gate

variable {c : Content} {id : String} {a : Action} {state cost : Tree} {tier : Tier} {e : String × Value}
  {need held : ℤ}

/-- The whole number that is held, rounded, is in the range of binary64 and at least what is needed. -/
def Covers (held need : ℤ) : Prop :=
  |roundedValue held| < (2 : ℚ) ^ (1024 : ℤ) ∧ (need : ℚ) ≤ roundedValue held

theorem covers_iff : Covers held need ↔
    ∃ x, (Amount.int held).toBinary64 = .ok x ∧ (Amount.int need).le (.float x) = true := by
  constructor
  · rintro ⟨hrange, hle⟩
    have hheld : (ofInt held).toRat? = some (roundedValue held) := toRat?_nearest hrange
    refine ⟨ofInt held, Amount.toBinary64_of_toRat? hheld, ?_⟩
    rwa [Amount.le_iff_of_point? (Amount.point?_int need) (Amount.point?_float hheld)]
  · rintro ⟨x, hx, hle⟩
    have hrange : |roundedValue held| < (2 : ℚ) ^ (1024 : ℤ) := by
      by_contra hbeyond
      simp only [Amount.toBinary64, ofInt, nearest_of_beyond hbeyond] at hx
      cases hx
    have hheld : (ofInt held).toRat? = some (roundedValue held) := toRat?_nearest hrange
    cases hx.symm.trans (Amount.toBinary64_of_toRat? hheld)
    rw [Amount.le_iff_of_point? (Amount.point?_int need) (Amount.point?_float hheld)] at hle
    exact ⟨hrange, hle⟩

/-- A number of the format covers exactly what is not above it, and no other number does. -/
theorem covers_iff_le_iff_onGrid : (∀ need, Covers held need ↔ need ≤ held) ↔ OnGrid (held : ℚ) := by
  constructor
  · intro hexact
    obtain ⟨hrange, hle⟩ := (hexact held).mpr le_rfl
    obtain ⟨m, hm⟩ := exists_roundedValue_intCast held
    have hge : m ≤ held := (hexact m).mp ⟨hrange, hm.ge⟩
    have hround : roundedValue held = held := by
      rw [hm] at hle ⊢
      exact_mod_cast le_antisymm hge (by exact_mod_cast hle)
    rw [← Numeric.magnitude_eq_abs] at hrange
    exact hround ▸ onGrid_roundedValue hrange
  · intro hgrid need
    have hrange : |(held : ℚ)| < (2 : ℚ) ^ (1024 : ℤ) := Numeric.magnitude_eq_abs held ▸ hgrid.1
    rw [Covers, roundedValue_of_onGrid hgrid]
    exact ⟨fun h => by exact_mod_cast h.2, fun h => ⟨hrange, by exact_mod_cast h⟩⟩

/-- An entry of a cost that asks for a whole amount of a resource, of which a whole amount or none is held. -/
structure Asks (state : Tree) (e : String × Value) (need held : ℤ) : Prop where
  amount : e.2 = .int need
  resource : ∃ p, StatePath.parse e.1 = .ok p ∧ p.accumulates = true ∧ HoldsAmount (state.get p) held

/-- Without a discount a resource can be paid when the holding covers the need. -/
theorem costFailure_iff_covers {reduction : Except Fault (Option Amount)} (h : Asks state e need held)
    (hreduction : ∀ share, reduction = .ok share → share = none) :
    costFailure reduction state e.1 e.2 = .ok none ↔ (∃ share, reduction = .ok share) ∧ Covers held need := by
  obtain ⟨p, hp, hacc, hheld⟩ := h.resource
  have hamount : e.2.amount? = some (.int need) := by rw [h.amount]; rfl
  rw [covers_iff, costFailure_eq_none_iff hamount hp hacc, hheld.orZero_eq]
  constructor
  · rintro ⟨share, price, x, hshare, hprice, hx, hle⟩
    cases hreduction share hshare
    cases hprice
    exact ⟨⟨none, hshare⟩, x, hx, hle⟩
  · rintro ⟨⟨share, hshare⟩, x, hx, hle⟩
    cases hreduction share hshare
    exact ⟨none, .int need, x, hshare, rfl, hx, hle⟩

theorem gateReduction_of_not_isCrafting (c : Content) (state : Tree) (hcraft : a.isCrafting = false) :
    (∀ share, gateReduction c a state = .ok share → share = none) ∧
      ((∃ share, gateReduction c a state = .ok share) ↔ ∃ t, Totals.ofState c state = .ok t) := by
  have hnone : ∀ t, a.gateReduction t = none := fun t => by simp [Action.gateReduction, hcraft]
  simp only [gateReduction, hnone, bind_eq_ok_iff, pure_eq_ok_iff]
  refine ⟨?_, ?_, ?_⟩
  · rintro share ⟨t, -, rfl⟩
    rfl
  · rintro ⟨share, t, ht, -⟩
    exact ⟨t, ht⟩
  · rintro ⟨t, ht⟩
    exact ⟨none, t, ht, rfl⟩

/-- An action that asks for whole amounts of resources, and only for these, without a discount. -/
structure AsksPlainly (c : Content) (id : String) (state : Tree) (cost : Tree) : Prop where
  action : ∃ a tier, c.action? id = some a ∧ a.isCrafting = false ∧ a.tier state = .ok tier ∧ tier.cost = some cost
  ready : isCoolingDown id state = .ok false
  asks : ∀ e ∈ cost, ∃ need held, Asks state e need held

/-- Such an action can be done if the bonuses can be computed, where anything is asked for at all, and every holding
covers its need. -/
theorem isExecutable_iff_covers (h : AsksPlainly c id state cost) :
    isExecutable c id state = .ok true ↔ (cost = [] ∨ ∃ t, Totals.ofState c state = .ok t) ∧
      ∀ e ∈ cost, ∀ need held, Asks state e need held → Covers held need := by
  obtain ⟨a, tier, ha, hcraft, htier, hcost⟩ := h.action
  obtain ⟨hnone, hreturns⟩ := gateReduction_of_not_isCrafting c state hcraft
  rw [isExecutable_eq_true_iff ha htier, and_iff_right h.ready, hcost]
  simp only [Option.some.injEq, exists_eq_left', canPay_eq_true_iff]
  constructor
  · intro hpays
    refine ⟨?_, fun e he need held hasks => ((costFailure_iff_covers hasks hnone).mp (hpays e he)).2⟩
    rcases cost with _ | ⟨e, rest⟩
    · exact Or.inl rfl
    · obtain ⟨need, held, hasks⟩ := h.asks e List.mem_cons_self
      obtain ⟨hshare, -⟩ := (costFailure_iff_covers hasks hnone).mp (hpays e List.mem_cons_self)
      exact Or.inr (hreturns.mp hshare)
  · rintro ⟨hbonuses, hcovers⟩ e he
    obtain ⟨need, held, hasks⟩ := h.asks e he
    rcases hbonuses with rfl | hbonuses
    · cases he
    · exact (costFailure_iff_covers hasks hnone).mpr ⟨hreturns.mpr hbonuses, hcovers e he need held hasks⟩

end Gate

/-- One thing to buy at a price in gold. -/
def market (price : ℤ) : Content := ⟨[("buy", pricedAt "buy" [("resources.gold", .int price)])], [], [], []⟩

def purse (gold : ℤ) : Tree := [("resources", .mapping [("gold", .int gold)])]

namespace Gate

variable {c : Content} {id : String} {state cost : Tree} {need held : ℤ}

theorem asks_purse_iff {price gold : ℤ} :
    Asks (purse gold) ("resources.gold", .int price) need held ↔ need = price ∧ held = gold := by
  have hparse : StatePath.parse "resources.gold" = .ok ⟨"resources.gold", "resources", ["gold"]⟩ := by decide +kernel
  have hget : (purse gold).get ⟨"resources.gold", "resources", ["gold"]⟩ = .int gold := rfl
  constructor
  · rintro ⟨hamount, p, hp, -, hheld⟩
    cases hamount
    cases hparse.symm.trans hp
    rw [hget] at hheld
    rcases hheld with hheld | ⟨hheld, -⟩
    · cases hheld
      exact ⟨rfl, rfl⟩
    · cases hheld
  · rintro ⟨rfl, rfl⟩
    exact ⟨rfl, _, hparse, rfl, Or.inl hget⟩

theorem asksPlainly_market (price gold : ℤ) :
    AsksPlainly (market price) "buy" (purse gold) [("resources.gold", .int price)] where
  action := by
    have hcraft : (pricedAt "buy" [("resources.gold", .int price)]).isCrafting = false := by
      simp [Action.isCrafting, pricedAt, List.isPrefixOf]
    exact ⟨_, _, rfl, hcraft, rfl, rfl⟩
  ready := rfl
  asks e he := by
    cases List.mem_singleton.mp he
    exact ⟨price, gold, asks_purse_iff.mpr ⟨rfl, rfl⟩⟩

theorem isExecutable_market_iff (price gold : ℤ) :
    isExecutable (market price) "buy" (purse gold) = .ok true ↔ Covers gold price := by
  have hbonuses : ∃ t, Totals.ofState (market price) (purse gold) = .ok t := ⟨_, rfl⟩
  rw [isExecutable_iff_covers (asksPlainly_market price gold)]
  simp [hbonuses, asks_purse_iff]

/-- When nothing but whole amounts of resources are asked for, without a discount, the gate compares each need with
what is held after this has been rounded to binary64. This is exact where all that is held is a number of the format;
of any other holding there is a need that is judged wrongly. -/
theorem holdings_are_rounded (h : AsksPlainly c id state cost) :
    (isExecutable c id state = .ok true ↔ (cost = [] ∨ ∃ t, Totals.ofState c state = .ok t) ∧
      ∀ e ∈ cost, ∀ need held, Asks state e need held → Covers held need) ∧
    ((∀ e ∈ cost, ∀ need held, Asks state e need held → OnGrid (held : ℚ)) →
      (isExecutable c id state = .ok true ↔ (cost = [] ∨ ∃ t, Totals.ofState c state = .ok t) ∧
        ∀ e ∈ cost, ∀ need held, Asks state e need held → need ≤ held)) ∧
    ∀ gold : ℤ, (∀ price, isExecutable (market price) "buy" (purse gold) = .ok true ↔ price ≤ gold) ↔
      OnGrid (gold : ℚ) := by
  refine ⟨isExecutable_iff_covers h, fun hgrid => ?_, fun gold => ?_⟩
  · rw [isExecutable_iff_covers h]
    refine and_congr_right fun _ => forall₄_congr fun e he need held => forall_congr' fun hasks => ?_
    exact covers_iff_le_iff_onGrid.mpr (hgrid e he need held hasks) need
  · simp only [isExecutable_market_iff, covers_iff_le_iff_onGrid]

theorem full_purse_buys : OnGrid ((2 ^ 60 : ℤ) : ℚ) ∧ isExecutable (market (2 ^ 60)) "buy" (purse (2 ^ 60)) = .ok true ∧
    isExecutable (market (2 ^ 60 + 1)) "buy" (purse (2 ^ 60)) ≠ .ok true := by
  have hgrid : OnGrid ((2 ^ 60 : ℤ) : ℚ) := ⟨by decide +kernel, 1, 60, by decide, by decide, by decide +kernel⟩
  have hholding : ∀ price, ∀ e ∈ [("resources.gold", Value.int price)], ∀ need held,
      Asks (purse (2 ^ 60)) e need held → OnGrid (held : ℚ) := by
    intro price e he need held hasks
    cases List.mem_singleton.mp he
    rwa [(asks_purse_iff.mp hasks).2]
  have hexact := fun price =>
    (holdings_are_rounded (asksPlainly_market price (2 ^ 60))).2.1 (hholding price)
  refine ⟨hgrid, (hexact _).mpr ⟨Or.inr ⟨_, rfl⟩, ?_⟩, fun hbuys => ?_⟩
  · simp [asks_purse_iff]
  · have hle := ((hexact _).mp hbuys).2 _ List.mem_cons_self _ _ (asks_purse_iff.mpr ⟨rfl, rfl⟩)
    omega

/-- Of `2 ^ 53 + 1` all are held, and one too many is asked for. -/
theorem odd_purse_is_misjudged :
    Content.ofRecords [(pricedAt "buy" [("resources.gold", .int (2 ^ 53 + 1))]).toValue] [] [] =
        .ok (market (2 ^ 53 + 1)) ∧
      isExecutable (market (2 ^ 53 + 1)) "buy" (purse (2 ^ 53 + 1)) = .ok false ∧
      isExecutable (market (2 ^ 53 + 4)) "buy" (purse (2 ^ 53 + 3)) = .ok true ∧
      isExecutable (market 0) "buy" (purse (10 ^ 309)) = .error .outOfRange := by
  refine ⟨?_, ?_, ?_, ?_⟩ <;> decide +kernel

end Gate

end SurvivalRules
