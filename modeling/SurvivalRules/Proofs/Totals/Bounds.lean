import SurvivalRules.Proofs.Numeric.Small
import SurvivalRules.Proofs.State.Tree
import SurvivalRules.Proofs.Totals

/-!
# Bounded totals

When items and actions declare whole numbers of moderate size, the totals of every state with each item
listed once per section can be computed, and are bounded by how much can be owned and built.
-/
namespace SurvivalRules

/-- The largest magnitude of an amount that is declared. -/
def largestDeclared : ℕ := 1000

/-- A whole number of magnitude at most `n`. -/
def Amount.Within (a : Amount) (n : ℕ) : Prop := ∃ k : ℤ, a = .int k ∧ k.natAbs ≤ n

/-- As `Amount.Within`, for values. -/
def Value.Within (v : Value) (n : ℕ) : Prop := ∃ k : ℤ, v = .int k ∧ k.natAbs ≤ n

instance (a : Amount) (n : ℕ) : Decidable (a.Within n) :=
  match a with
  | .int k => decidable_of_iff (k.natAbs ≤ n) (by simp [Amount.Within])
  | .float x => isFalse (by simp [Amount.Within])

instance (v : Value) (n : ℕ) : Decidable (v.Within n) :=
  match v with
  | .int k => decidable_of_iff (k.natAbs ≤ n) (by simp [Value.Within])
  | .null | .bool _ | .float _ | .text _ | .list _ | .mapping _ => isFalse (by simp [Value.Within])

/-- A list of steps that return can be taken one after another. -/
theorem exists_mapM {α β : Type} {f : α → Except Fault β} {l : List α}
    (h : ∀ a ∈ l, ∃ b, f a = .ok b) : ∃ bs, l.mapM f = .ok bs := by
  induction l with
  | nil => exact ⟨[], rfl⟩
  | cons a rest ih =>
    obtain ⟨⟨b, hb⟩, hrest⟩ := List.forall_mem_cons.mp h
    obtain ⟨bs, hbs⟩ := ih hrest
    exact ⟨b :: bs, by rw [List.mapM_cons, hb, hbs]; rfl⟩

namespace Amount

variable {a b : Amount} {m n : ℕ}

theorem within_zero (n : ℕ) : zero.Within n := ⟨0, rfl, Nat.zero_le n⟩

theorem Within.mono (h : a.Within m) (hmn : m ≤ n) : a.Within n := by
  obtain ⟨k, rfl, hk⟩ := h
  exact ⟨k, rfl, hk.trans hmn⟩

theorem Within.exists_add (ha : a.Within m) (hb : b.Within n) :
    ∃ c, a.add b = .ok c ∧ c.Within (m + n) := by
  obtain ⟨j, rfl, hj⟩ := ha
  obtain ⟨k, rfl, hk⟩ := hb
  exact ⟨.int (j + k), rfl, j + k, rfl, by omega⟩

theorem Within.exists_sub (ha : a.Within m) (hb : b.Within n) :
    ∃ c, a.sub b = .ok c ∧ c.Within (m + n) := by
  obtain ⟨j, rfl, hj⟩ := ha
  obtain ⟨k, rfl, hk⟩ := hb
  exact ⟨.int (j - k), rfl, j - k, rfl, by omega⟩

theorem Within.max (ha : a.Within n) (hb : b.Within n) : (Amount.max a b).Within n := by
  unfold Amount.max
  split
  · exact hb
  · exact ha

theorem Within.exists_written (h : a.Within n) (hn : n ≤ significandBound) :
    ∃ text, a.written = .ok text := by
  obtain ⟨k, rfl, hk⟩ := h
  exact ⟨_, written_of_isWritable (Numeric.isWritable_of_le (hk.trans hn))⟩

theorem Within.exists_brief (h : a.Within n) (hn : n ≤ significandBound) :
    ∃ text, briefAmount a = .ok text := by
  obtain ⟨text, htext⟩ := h.exists_written hn
  obtain ⟨k, rfl, -⟩ := h
  exact ⟨text, htext⟩

end Amount

theorem exists_listAmounts {m : OrderedMap String Amount}
    (h : ∀ e ∈ m, ∃ text, briefAmount e.2 = .ok text) : ∃ text, listAmounts m = .ok text := by
  have hlines : ∃ lines, (m.mapM fun e => do return e.1 ++ "=" ++ (← briefAmount e.2)) = .ok lines := by
    refine exists_mapM fun e he => ?_
    obtain ⟨text, htext⟩ := h e he
    exact ⟨_, bind_eq_ok_iff.mpr ⟨text, htext, rfl⟩⟩
  obtain ⟨lines, hlines⟩ := hlines
  exact ⟨_, bind_eq_ok_iff.mpr ⟨lines, hlines, rfl⟩⟩

namespace Bonus

/-- The size of what `n` bonuses of declared size come to: gains add up and multipliers compound. -/
structure Within (b : Bonus) (n : ℕ) : Prop where
  distinct : (OrderedMap.keys b.resourceBonus).Nodup
  gains : ∀ e ∈ b.resourceBonus, e.2.Within (n * largestDeclared)
  multiplier : b.resourceMultiplier.Below n

instance (b : Bonus) (n : ℕ) : Decidable (b.Within n) :=
  decidable_of_iff ((OrderedMap.keys b.resourceBonus).Nodup ∧
      (∀ e ∈ b.resourceBonus, e.2.Within (n * largestDeclared)) ∧ b.resourceMultiplier.Below n)
    ⟨fun ⟨h₁, h₂, h₃⟩ => ⟨h₁, h₂, h₃⟩, fun h => ⟨h.distinct, h.gains, h.multiplier⟩⟩

variable {b b' : Bonus} {m n : ℕ}

theorem within_neutral : neutral.Within 0 where
  distinct := List.nodup_nil
  gains := by simp [neutral]
  multiplier := by decide +kernel

theorem Within.mono (h : b.Within m) (hmn : m ≤ n) : b.Within n where
  distinct := h.distinct
  gains := fun e he => (h.gains e he).mono (Nat.mul_le_mul_right _ hmn)
  multiplier := h.multiplier.mono hmn

theorem Within.gain (h : b.Within n) (name : String) :
    ((OrderedMap.get? name b.resourceBonus).getD .zero).Within (n * largestDeclared) := by
  cases hget : OrderedMap.get? name b.resourceBonus with
  | none => exact Amount.within_zero _
  | some a => exact h.gains (name, a) (OrderedMap.mem_of_get? hget)

/-- Each counter takes at most one of the gains, which have different names; counters whose name is still to
come have not taken any. -/
theorem exists_addAll {counters gains : OrderedMap String Amount}
    (hcounters : (OrderedMap.keys counters).Nodup) (hgains : (OrderedMap.keys gains).Nodup)
    (hm : ∀ e ∈ counters, e.2.Within (m + n) ∧ (e.1 ∈ OrderedMap.keys gains → e.2.Within m))
    (hn : ∀ e ∈ gains, e.2.Within n) :
    ∃ out, addAll counters gains = .ok out ∧ (OrderedMap.keys out).Nodup ∧
      ∀ e ∈ out, e.2.Within (m + n) := by
  induction gains generalizing counters with
  | nil => exact ⟨counters, rfl, hcounters, fun e he => (hm e he).1⟩
  | cons g rest ih =>
    obtain ⟨name, a⟩ := g
    obtain ⟨hfirst, hrest⟩ := List.forall_mem_cons.mp hn
    obtain ⟨hnot, hnodup⟩ := List.nodup_cons.mp hgains
    have hheld : ((OrderedMap.get? name counters).getD .zero).Within m := by
      cases hget : OrderedMap.get? name counters with
      | none => exact Amount.within_zero _
      | some held => exact (hm (name, held) (OrderedMap.mem_of_get? hget)).2 List.mem_cons_self
    obtain ⟨total, htotal, hwithin⟩ := hheld.exists_add hfirst
    have hnext : ∀ e ∈ OrderedMap.insert name total counters,
        e.2.Within (m + n) ∧ (e.1 ∈ OrderedMap.keys rest → e.2.Within m) := by
      intro e he
      rcases OrderedMap.mem_insert he with rfl | hmem
      · exact ⟨hwithin, fun hin => absurd hin hnot⟩
      · exact ⟨(hm e hmem).1, fun hin => (hm e hmem).2 (List.mem_cons_of_mem _ hin)⟩
    obtain ⟨out, hout, hspec⟩ := ih (OrderedMap.nodup_keys_insert hcounters name total) hnodup hnext hrest
    have hadd : addTo counters name a = .ok (OrderedMap.insert name total counters) :=
      bind_eq_ok_iff.mpr ⟨total, htotal, rfl⟩
    exact ⟨out, bind_eq_ok_iff.mpr ⟨_, hadd, hout⟩, hspec⟩

theorem Within.exists_combine (h : b.Within m) (h' : b'.Within n) (hmn : m + n ≤ safeExponent) :
    ∃ c, b.combine b' = .ok c ∧ c.Within (m + n) := by
  have hstart : ∀ e ∈ b.resourceBonus, e.2.Within (m * largestDeclared + n * largestDeclared) ∧
      (e.1 ∈ OrderedMap.keys b'.resourceBonus → e.2.Within (m * largestDeclared)) :=
    fun e he => ⟨(h.gains e he).mono (Nat.le_add_right _ _), fun _ => h.gains e he⟩
  obtain ⟨gains, hgains, hdistinct, hwithin⟩ := exists_addAll h.distinct h'.distinct hstart h'.gains
  refine ⟨_, bind_eq_ok_iff.mpr ⟨gains, hgains, rfl⟩, hdistinct, fun e he => ?_,
    h.multiplier.mul h'.multiplier hmn⟩
  rw [Nat.add_mul]
  exact hwithin e he

theorem Within.exists_describe (h : b.Within n) (hn : n * largestDeclared ≤ significandBound) :
    ∃ text, b.describe = .ok text := by
  have hgains : ∃ gains, (b.resourceBonus.mapM fun e => do
      return "+" ++ (← e.2.written) ++ " " ++ e.1) = .ok gains := by
    refine exists_mapM fun e he => ?_
    obtain ⟨text, htext⟩ := (h.gains e he).exists_written hn
    exact ⟨_, bind_eq_ok_iff.mpr ⟨text, htext, rfl⟩⟩
  obtain ⟨gains, hgains⟩ := hgains
  exact ⟨_, bind_eq_ok_iff.mpr ⟨gains, hgains, rfl⟩⟩

end Bonus

/-- An item that declares a few bonuses of moderate size. -/
structure Item.IsModest (i : Item) : Prop where
  bonuses : ∀ e ∈ i.actionBonuses, e.2.Within 1
  few : i.actionBonuses.length ≤ 4
  luck : i.generalBonuses.luck.Within largestDeclared
  strength : i.generalBonuses.strength.Within largestDeclared
  knowledge : i.generalBonuses.knowledge.Within largestDeclared
  madness : i.generalBonuses.madness.Within largestDeclared
  madnessReduction : i.generalBonuses.madnessReduction.Within largestDeclared

instance (i : Item) : Decidable i.IsModest :=
  decidable_of_iff ((∀ e ∈ i.actionBonuses, e.2.Within 1) ∧ i.actionBonuses.length ≤ 4 ∧
      i.generalBonuses.luck.Within largestDeclared ∧ i.generalBonuses.strength.Within largestDeclared ∧
      i.generalBonuses.knowledge.Within largestDeclared ∧
      i.generalBonuses.madness.Within largestDeclared ∧
      i.generalBonuses.madnessReduction.Within largestDeclared)
    ⟨fun ⟨h₁, h₂, h₃, h₄, h₅, h₆, h₇⟩ => ⟨h₁, h₂, h₃, h₄, h₅, h₆, h₇⟩,
      fun h => ⟨h.bonuses, h.few, h.luck, h.strength, h.knowledge, h.madness, h.madnessReduction⟩⟩

/-- An action that declares a few statistics of moderate size. -/
structure Action.IsModest (a : Action) : Prop where
  stats : ∀ e ∈ a.statsEffects, e.2.Within largestDeclared
  few : a.statsEffects.length ≤ 4

instance (a : Action) : Decidable a.IsModest :=
  decidable_of_iff ((∀ e ∈ a.statsEffects, e.2.Within largestDeclared) ∧ a.statsEffects.length ≤ 4)
    ⟨fun ⟨h₁, h₂⟩ => ⟨h₁, h₂⟩, fun h => ⟨h.stats, h.few⟩⟩

/-- Content of moderate size. -/
structure Content.IsModest (c : Content) : Prop where
  items : ∀ i ∈ OrderedMap.values c.items, i.IsModest
  actions : ∀ a ∈ OrderedMap.values c.actions, a.IsModest
  fewItems : c.items.length ≤ 20
  fewBuildings : c.buildingActions.length ≤ 20
  shares : c.SharesBounded

instance (c : Content) : Decidable c.IsModest :=
  decidable_of_iff ((∀ i ∈ OrderedMap.values c.items, i.IsModest) ∧
      (∀ a ∈ OrderedMap.values c.actions, a.IsModest) ∧ c.items.length ≤ 20 ∧
      c.buildingActions.length ≤ 20 ∧ c.SharesBounded)
    ⟨fun ⟨h₁, h₂, h₃, h₄, h₅⟩ => ⟨h₁, h₂, h₃, h₄, h₅⟩,
      fun h => ⟨h.items, h.actions, h.fewItems, h.fewBuildings, h.shares⟩⟩

namespace Totals

/-- The size of totals to which `m` statistics and `n` bonuses of declared size were added. -/
structure Within (t : Totals) (m n : ℕ) : Prop where
  stats : ∀ e ∈ t.stats, e.2.Within (m * largestDeclared)
  actions : ∀ e ∈ t.actions, e.2.Within n
  categories : ∀ e ∈ t.categories, e.2.Within n

variable {c : Content} {t : Totals} {m n : ℕ} {i : Item} {state : Tree}

theorem Within.mono {m' n' : ℕ} (h : t.Within m n) (hm : m ≤ m') (hn : n ≤ n') : t.Within m' n' where
  stats := fun e he => (h.stats e he).mono (Nat.mul_le_mul_right _ hm)
  actions := fun e he => (h.actions e he).mono hn
  categories := fun e he => (h.categories e he).mono hn

theorem Within.stat (h : t.Within m n) (s : Stat) : (t.stat s).Within (m * largestDeclared) := by
  unfold Totals.stat
  cases hget : OrderedMap.get? s t.stats with
  | none => exact Amount.within_zero _
  | some a => exact h.stats (s, a) (OrderedMap.mem_of_get? hget)

theorem Within.exists_addStats {amounts : OrderedMap Stat Amount} (h : t.Within m n)
    (hamounts : ∀ e ∈ amounts, e.2.Within largestDeclared) :
    ∃ t', t.addStats amounts = .ok t' ∧ t'.Within (m + amounts.length) n := by
  induction amounts generalizing t m with
  | nil => exact ⟨t, rfl, h⟩
  | cons e rest ih =>
    obtain ⟨s, a⟩ := e
    obtain ⟨hfirst, hrest⟩ := List.forall_mem_cons.mp hamounts
    obtain ⟨total, htotal, hwithin⟩ := (h.stat s).exists_add hfirst
    have hnext : ({ t with stats := OrderedMap.insert s total t.stats } : Totals).Within (m + 1) n := by
      refine ⟨fun e he => ?_, h.actions, h.categories⟩
      rw [Nat.add_mul, Nat.one_mul]
      rcases OrderedMap.mem_insert he with rfl | hmem
      · exact hwithin
      · exact (h.stats e hmem).mono (Nat.le_add_right _ _)
    obtain ⟨t', ht', hbound⟩ := ih hnext hrest
    have hadd : t.addStat s a = .ok { t with stats := OrderedMap.insert s total t.stats } :=
      bind_eq_ok_iff.mpr ⟨total, htotal, rfl⟩
    refine ⟨t', bind_eq_ok_iff.mpr ⟨_, hadd, ht'⟩, hbound.mono ?_ le_rfl⟩
    simp only [List.length_cons]
    omega

theorem exists_addBonus {bonuses : OrderedMap String Bonus} {b : Bonus} (key : String)
    (h : ∀ e ∈ bonuses, e.2.Within n) (hb : b.Within 1) (hn : n + 1 ≤ safeExponent) :
    ∃ out, addBonus bonuses key b = .ok out ∧ ∀ e ∈ out, e.2.Within (n + 1) := by
  have hheld : ((OrderedMap.get? key bonuses).getD .neutral).Within n := by
    cases hget : OrderedMap.get? key bonuses with
    | none => exact Bonus.within_neutral.mono (Nat.zero_le n)
    | some held => exact h (key, held) (OrderedMap.mem_of_get? hget)
  obtain ⟨total, htotal, hwithin⟩ := hheld.exists_combine hb hn
  refine ⟨_, bind_eq_ok_iff.mpr ⟨total, htotal, rfl⟩, fun e he => ?_⟩
  rcases OrderedMap.mem_insert he with rfl | hmem
  · exact hwithin
  · exact (h e hmem).mono (Nat.le_succ n)

theorem Within.exists_addItemBonus (key : String) {b : Bonus} (h : t.Within m n) (hb : b.Within 1)
    (hn : n + 1 ≤ safeExponent) :
    ∃ t', addItemBonus c i t key b = .ok t' ∧ t'.Within m (n + 1) := by
  obtain ⟨text, htext⟩ := hb.exists_describe (by decide)
  unfold addItemBonus
  dsimp only
  split
  · obtain ⟨out, hout, hwithin⟩ := exists_addBonus key h.categories hb hn
    refine ⟨_, bind_eq_ok_iff.mpr ⟨out, hout, bind_eq_ok_iff.mpr ⟨_, rfl,
      bind_eq_ok_iff.mpr ⟨text, htext, rfl⟩⟩⟩, ?_⟩
    exact ⟨h.stats, fun e he => (h.actions e he).mono (Nat.le_succ n), hwithin⟩
  · obtain ⟨out, hout, hwithin⟩ := exists_addBonus key h.actions hb hn
    refine ⟨_, bind_eq_ok_iff.mpr ⟨out, hout, bind_eq_ok_iff.mpr ⟨_, rfl,
      bind_eq_ok_iff.mpr ⟨text, htext, rfl⟩⟩⟩, ?_⟩
    exact ⟨h.stats, hwithin, fun e he => (h.categories e he).mono (Nat.le_succ n)⟩

theorem Within.exists_addItemBonuses {bonuses : OrderedMap String Bonus} (h : t.Within m n)
    (hbonuses : ∀ e ∈ bonuses, e.2.Within 1) (hn : n + bonuses.length ≤ safeExponent) :
    ∃ t', addItemBonuses c i t bonuses = .ok t' ∧ t'.Within m (n + bonuses.length) := by
  induction bonuses generalizing t n with
  | nil => exact ⟨t, rfl, h⟩
  | cons e rest ih =>
    obtain ⟨key, b⟩ := e
    obtain ⟨hfirst, hrest⟩ := List.forall_mem_cons.mp hbonuses
    simp only [List.length_cons] at hn ⊢
    obtain ⟨t₁, ht₁, hwithin⟩ := h.exists_addItemBonus (c := c) (i := i) key hfirst (by omega)
    obtain ⟨t₂, ht₂, hbound⟩ := ih hwithin hrest (by omega)
    exact ⟨t₂, bind_eq_ok_iff.mpr ⟨t₁, ht₁, ht₂⟩, hbound.mono le_rfl (by omega)⟩

theorem exists_brief_of_mem_generalDetail (hi : i.IsModest) :
    ∀ e ∈ generalDetail i.generalBonuses, ∃ text, briefAmount e.2 = .ok text := by
  intro e he
  have hmem := List.mem_of_mem_filter he
  have hsmall : largestDeclared ≤ significandBound := by decide
  simp only [GeneralBonuses.fields, List.mem_cons, List.not_mem_nil, or_false] at hmem
  rcases hmem with rfl | rfl | rfl | rfl | rfl | rfl | rfl
  · exact hi.luck.exists_brief hsmall
  · exact hi.strength.exists_brief hsmall
  · exact hi.knowledge.exists_brief hsmall
  · exact hi.madness.exists_brief hsmall
  · exact hi.madnessReduction.exists_brief hsmall
  · exact ⟨_, rfl⟩
  · exact ⟨_, rfl⟩

theorem Within.exists_contribute {amounts : OrderedMap Stat Amount} {r : Binary64 × Binary64}
    {source : String → BonusSource} {detail : OrderedMap String Amount} (h : t.Within m n)
    (hamounts : ∀ e ∈ amounts, e.2.Within largestDeclared) (hfew : amounts.length ≤ 4)
    (hdetail : ∀ e ∈ detail, ∃ text, briefAmount e.2 = .ok text) :
    ∃ t', t.contribute amounts r source detail = .ok t' ∧ t'.Within (m + 4) n := by
  obtain ⟨t₁, ht₁, hexact⟩ := h.exists_addStats hamounts
  have hwithin : t₁.Within (m + 4) n := hexact.mono (by omega) le_rfl
  obtain ⟨text, htext⟩ := exists_listAmounts hdetail
  simp only [contribute, ht₁, bind, Except.bind]
  split
  · exact ⟨_, rfl, hwithin.stats, hwithin.actions, hwithin.categories⟩
  · rw [htext]
    exact ⟨_, rfl, hwithin.stats, hwithin.actions, hwithin.categories⟩

theorem Within.exists_addGeneral (h : t.Within m n) (hi : i.IsModest) :
    ∃ t', addGeneral i t = .ok t' ∧ t'.Within (m + 4) n := by
  rw [addGeneral_eq]
  refine h.exists_contribute (fun e he => ?_) le_rfl (exists_brief_of_mem_generalDetail hi)
  simp only [List.mem_cons, List.not_mem_nil, or_false] at he
  rcases he with rfl | rfl | rfl | rfl
  · exact hi.luck
  · exact hi.strength
  · exact hi.knowledge
  · exact hi.madness

theorem Within.exists_addGrants (shadowed : List String) (h : t.Within m n) (hi : i.IsModest)
    (hn : n + 4 ≤ safeExponent) : ∃ t', addGrants c shadowed i t = .ok t' ∧ t'.Within m (n + 4) := by
  have hfew := hi.few
  unfold addGrants
  split
  · exact ⟨t, rfl, h.mono le_rfl (by omega)⟩
  · obtain ⟨t₁, ht₁, hwithin⟩ := h.exists_addItemBonuses (c := c) (i := i) hi.bonuses (by omega)
    exact ⟨t₁, ht₁, hwithin.mono le_rfl (by omega)⟩

/-- The relief counts one of the statistics for each item. -/
theorem Within.exists_addItems (shadowed : List String) (items : List Item) {relief : Amount} {r : ℕ}
    (h : t.Within m n) (hrelief : relief.Within (r * largestDeclared)) (hitems : ∀ i ∈ items, i.IsModest)
    (hn : n + 4 * items.length ≤ safeExponent) :
    ∃ t' relief', addItems c shadowed t relief items = .ok (t', relief') ∧
      t'.Within (m + 4 * items.length) (n + 4 * items.length) ∧
      relief'.Within ((r + items.length) * largestDeclared) := by
  induction items generalizing t m n relief r with
  | nil => exact ⟨t, relief, rfl, h, hrelief⟩
  | cons i rest ih =>
    obtain ⟨hfirst, hrest⟩ := List.forall_mem_cons.mp hitems
    simp only [List.length_cons] at hn ⊢
    obtain ⟨t₁, ht₁, hwithin₁⟩ := h.exists_addGrants (c := c) shadowed hfirst (by omega)
    obtain ⟨t₂, ht₂, hwithin₂⟩ := hwithin₁.exists_addGeneral hfirst
    obtain ⟨relief₁, hrelief₁, hbound⟩ := hrelief.exists_add hfirst.madnessReduction
    have hsum : r * largestDeclared + largestDeclared = (r + 1) * largestDeclared := by
      rw [Nat.add_mul, Nat.one_mul]
    rw [hsum] at hbound
    obtain ⟨t', relief', hdone, hwithin', hrelief'⟩ := ih hwithin₂ hbound hrest (by omega)
    refine ⟨t', relief', ?_, hwithin'.mono (by omega) (by omega),
      hrelief'.mono (Nat.mul_le_mul_right _ (by omega))⟩
    rw [addItems_cons_eq]
    exact bind_eq_ok_iff.mpr ⟨t₁, ht₁, bind_eq_ok_iff.mpr ⟨t₂, ht₂, bind_eq_ok_iff.mpr
      ⟨relief₁, hrelief₁, hdone⟩⟩⟩

theorem exists_brief_of_mem_buildingDetail {a : Action} (ha : a.IsModest) :
    ∀ e ∈ buildingDetail a, ∃ text, briefAmount e.2 = .ok text := by
  intro e he
  have hreduction : ∀ (name : String) (x : Binary64),
      e ∈ (if x.isZero then [] else [(name, Amount.float x)]) → ∃ text, briefAmount e.2 = .ok text := by
    intro name x hmem
    split at hmem
    · cases hmem
    · rw [List.mem_singleton.mp hmem]
      exact ⟨_, rfl⟩
  simp only [buildingDetail, List.mem_append] at he
  rcases he with (hstat | hcrafting) | hbuilding
  · obtain ⟨f, hf, rfl⟩ := List.mem_map.mp hstat
    exact (ha.stats f hf).exists_brief (by decide)
  · exact hreduction _ _ hcrafting
  · exact hreduction _ _ hbuilding

theorem Within.exists_addBuilding {a : Action} (h : t.Within m n) (key : String) (ha : a.IsModest) :
    ∃ t', t.addBuilding key a = .ok t' ∧ t'.Within (m + 4) n := by
  rw [addBuilding_eq]
  exact h.exists_contribute ha.stats ha.few (exists_brief_of_mem_buildingDetail ha)

theorem Within.exists_addBuildings {buildings : List (String × Action)} (h : t.Within m n)
    (hbuildings : ∀ b ∈ buildings, b.2.IsModest) :
    ∃ t', t.addBuildings buildings = .ok t' ∧ t'.Within (m + 4 * buildings.length) n := by
  induction buildings generalizing t m with
  | nil => exact ⟨t, rfl, h⟩
  | cons b rest ih =>
    obtain ⟨key, a⟩ := b
    obtain ⟨hfirst, hrest⟩ := List.forall_mem_cons.mp hbuildings
    obtain ⟨t₁, ht₁, hwithin⟩ := h.exists_addBuilding key hfirst
    obtain ⟨t', ht', hbound⟩ := ih hwithin hrest
    refine ⟨t', bind_eq_ok_iff.mpr ⟨t₁, ht₁, ht'⟩, hbound.mono ?_ le_rfl⟩
    simp only [List.length_cons]
    omega

theorem Within.exists_finish {relief : Amount} {r : ℕ} (h : t.Within m n)
    (hrelief : relief.Within (r * largestDeclared)) :
    ∃ t', t.finish relief = .ok t' ∧ t'.Within (m + r) n := by
  obtain ⟨madness, hmadness, hwithin⟩ := (h.stat .madness).exists_sub hrelief
  refine ⟨_, bind_eq_ok_iff.mpr ⟨madness, hmadness, rfl⟩, fun e he => ?_, h.actions, h.categories⟩
  rw [Nat.add_mul]
  rcases OrderedMap.mem_insert he with rfl | hmem
  · exact (Amount.within_zero _).max hwithin
  · exact (h.stats e hmem).mono (Nat.le_add_right _ _)

theorem within_start (hstats : ∀ e ∈ (state.lookup Section.stats.name).entries, e.2.Within largestDeclared) :
    (start state).Within 1 0 := by
  refine ⟨fun e he => ?_, by simp [start], by simp [start]⟩
  obtain ⟨s, -, rfl⟩ := List.mem_map.mp he
  rw [Nat.one_mul]
  cases hget : OrderedMap.get? s.name (state.lookup Section.stats.name).entries with
  | none => simpa [hget] using Amount.within_zero largestDeclared
  | some v =>
    obtain ⟨k, hk, hbound⟩ := hstats (s.name, v) (OrderedMap.mem_of_get? hget)
    have hv : v = .int k := hk
    subst hv
    simpa [hget, Value.amount?] using ⟨k, rfl, hbound⟩

/-- Of the names of a section, each of which it has once, no more are items than there are items. -/
theorem length_ownedIn_le {s : Slot} (hd : state.DistinctAt s.name) :
    (c.ownedIn state s).length ≤ c.items.length := by
  have hfilter : ∀ entries : Tree, (entries.filterMap fun e =>
      if e.2.truthy then (c.item? e.1).filter (·.slot = s) else none).length ≤
      ((OrderedMap.keys entries).filter (· ∈ OrderedMap.keys c.items)).length := by
    intro entries
    induction entries with
    | nil => simp
    | cons e rest ih =>
      rw [OrderedMap.keys_cons, List.filterMap_cons, List.filter_cons]
      by_cases hmem : e.1 ∈ OrderedMap.keys c.items
      · simp only [hmem, decide_true, if_true]
        split <;> simp only [List.length_cons] <;> omega
      · have hnone : c.item? e.1 = none := OrderedMap.get?_eq_none_iff.mpr hmem
        simpa [hmem, hnone] using ih
  have hnodup : ((OrderedMap.keys (state.lookup s.name).entries).filter
      (· ∈ OrderedMap.keys c.items)).Nodup := List.Nodup.filter _ hd
  have hsubset : (OrderedMap.keys (state.lookup s.name).entries).filter (· ∈ OrderedMap.keys c.items) ⊆
      OrderedMap.keys c.items := fun name hname => by simpa using List.of_mem_filter hname
  have hle := (List.subperm_of_subset hnodup hsubset).length_le
  have hkeys : (OrderedMap.keys c.items).length = c.items.length := List.length_map _
  exact (hfilter _).trans (hkeys ▸ hle)

theorem length_ownedItems_le (hd : ∀ s : Slot, state.DistinctAt s.name) :
    (c.ownedItems state).length ≤ 5 * c.items.length := by
  have hlength : (c.ownedItems state).length = (Slot.all.map fun s => (c.ownedIn state s).length).sum :=
    List.length_flatMap
  have hle := fun s : Slot => length_ownedIn_le (c := c) (hd s)
  have h₁ := hle .tools
  have h₂ := hle .weapons
  have h₃ := hle .clothing
  have h₄ := hle .relics
  have h₅ := hle .blessings
  rw [hlength]
  simp only [Slot.all, List.map_cons, List.map_nil, List.sum_cons, List.sum_nil]
  omega

theorem exists_isBuilt {counts : Tree} (hcounts : ∀ e ∈ counts, e.2.Within largestDeclared) (key : String) :
    ∃ built, Content.isBuilt counts key = .ok built := by
  have hnumber : ∃ x, ((OrderedMap.get? key counts).getD (.int 0)).toNumber = .ok x := by
    cases hget : OrderedMap.get? key counts with
    | none => exact ⟨_, Amount.toBinary64_int (by decide)⟩
    | some v =>
      obtain ⟨k, hk, hbound⟩ := hcounts (key, v) (OrderedMap.mem_of_get? hget)
      have hv : v = .int k := hk
      subst hv
      exact ⟨_, Amount.toBinary64_int (hbound.trans (by decide))⟩
  obtain ⟨x, hx⟩ := hnumber
  exact ⟨_, bind_eq_ok_iff.mpr ⟨x, hx, rfl⟩⟩

/-- The bound on the number of statistics that the totals of a state add up. -/
def statBound : ℕ := 600

/-- The bound on the number of bonuses that they add up. -/
def bonusBound : ℕ := 400

/-- The totals of a state can be computed, and are bounded. -/
theorem exists_ofState (hc : c.IsModest) (hd : ∀ s : Slot, state.DistinctAt s.name)
    (hcounts : ∀ e ∈ (state.lookup Section.buildings.name).entries, e.2.Within largestDeclared)
    (hstats : ∀ e ∈ (state.lookup Section.stats.name).entries, e.2.Within largestDeclared) :
    ∃ t, ofState c state = .ok t ∧ t.Within statBound bonusBound := by
  have howned := length_ownedItems_le (c := c) hd
  have hfew := hc.fewItems
  have hbuilt := hc.fewBuildings
  have hzero : Amount.zero.Within (0 * largestDeclared) := Amount.within_zero _
  obtain ⟨t₁, relief, ht₁, hwithin₁, hrelief⟩ := (within_start hstats).exists_addItems (c := c)
    (c.superseded (c.ownedItems state)) (c.ownedItems state) hzero
    (fun i hi => hc.items i (Content.item_mem_values_of_mem_ownedItems hi)) (by unfold safeExponent; omega)
  obtain ⟨standing, hstanding⟩ := Content.exists_standingAmong (c := c) (exists_isBuilt hcounts) c.buildingActions
  have hlength := (Content.sublist_of_standingAmong hstanding).length_le
  rw [List.length_map] at hlength
  obtain ⟨t₂, ht₂, hwithin₂⟩ := hwithin₁.exists_addBuildings fun b (hb : b ∈ standing) => by
    obtain ⟨p, hp⟩ := Content.mem_of_standingAmong hstanding hb
    exact hc.actions b.2 (Content.mem_values_of_mem_buildingActions hp)
  obtain ⟨t₃, ht₃, hwithin₃⟩ := hwithin₂.exists_finish hrelief
  refine ⟨t₃, ?_, hwithin₃.mono (by unfold statBound; omega) (by unfold bonusBound; omega)⟩
  exact bind_eq_ok_iff.mpr ⟨(t₁, relief), ht₁, bind_eq_ok_iff.mpr ⟨standing, hstanding,
    bind_eq_ok_iff.mpr ⟨t₂, ht₂, ht₃⟩⟩⟩

def ownBonus (t : Totals) (id : String) : Except Fault Bonus :=
  match OrderedMap.get? id t.actions with
  | some b => Bonus.neutral.combine b
  | none => .ok .neutral

def addCategory (t : Totals) (category : Option String) (own : Bonus) : Except Fault Bonus :=
  match category.filter (!·.isEmpty) with
  | none => .ok own
  | some name =>
    match OrderedMap.get? name t.categories with
    | some b => own.combine b
    | none => .ok own

theorem forAction_eq_bind (t : Totals) (id : String) (category : Option String) :
    t.forAction id category = t.ownBonus id >>= t.addCategory category := rfl

theorem Within.exists_ownBonus (h : t.Within m n) (hn : n ≤ safeExponent) (id : String) :
    ∃ own, t.ownBonus id = .ok own ∧ own.Within n := by
  unfold ownBonus
  split
  next b hget =>
    have hb := h.actions (id, b) (OrderedMap.mem_of_get? hget)
    have hcombine := Bonus.within_neutral.exists_combine hb (by omega)
    rwa [Nat.zero_add] at hcombine
  next => exact ⟨_, rfl, Bonus.within_neutral.mono (Nat.zero_le n)⟩

theorem Within.exists_addCategory (h : t.Within m n) (hn : n + n ≤ safeExponent) {own : Bonus}
    (hown : own.Within n) (category : Option String) :
    ∃ b, t.addCategory category own = .ok b ∧ b.Within (n + n) := by
  have hwide : own.Within (n + n) := hown.mono (Nat.le_add_right n n)
  unfold addCategory
  split
  · exact ⟨own, rfl, hwide⟩
  next name _ =>
    split
    next b hget => exact hown.exists_combine (h.categories (name, b) (OrderedMap.mem_of_get? hget)) hn
    next => exact ⟨own, rfl, hwide⟩

/-- The bonus of an action adds up that of its id and that of its category. -/
theorem Within.exists_forAction (h : t.Within m n) (hn : n + n ≤ safeExponent) (id : String)
    (category : Option String) : ∃ b, t.forAction id category = .ok b ∧ b.Within (n + n) := by
  obtain ⟨own, hown, hwithin⟩ := h.exists_ownBonus (by omega) id
  obtain ⟨b, hb, hbound⟩ := h.exists_addCategory hn hwithin category
  exact ⟨b, by rw [forAction_eq_bind, hown]; exact hb, hbound⟩

theorem Within.exists_explain (h : t.Within m n) (hm : m * largestDeclared ≤ significandBound) :
    ∃ lines, t.explain = .ok lines := by
  have hscalars : ∀ e ∈ t.scalars, ∃ text, briefAmount e.2 = .ok text := by
    intro e he
    simp only [scalars, List.mem_append, List.mem_cons, List.not_mem_nil, or_false] at he
    rcases he with hstat | rfl | rfl
    · obtain ⟨s, -, rfl⟩ := List.mem_map.mp hstat
      exact (h.stat s).exists_brief hm
    · exact ⟨_, rfl⟩
    · exact ⟨_, rfl⟩
  obtain ⟨text, htext⟩ := exists_listAmounts hscalars
  exact ⟨_, bind_eq_ok_iff.mpr ⟨text, htext, rfl⟩⟩

end Totals

end SurvivalRules
