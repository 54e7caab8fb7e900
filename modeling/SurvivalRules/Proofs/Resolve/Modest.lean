import SurvivalRules.Proofs.Content.Orderly
import SurvivalRules.Proofs.Discount
import SurvivalRules.Proofs.Draws
import SurvivalRules.Proofs.Resolve.Scaling

/-!
# Entries that come through

In a state and under bonuses of moderate size, every outcome that fits its place can be applied, whatever the
resources are: what is paid, drawn and added are whole numbers of bounded size.
-/
namespace SurvivalRules

open Drawing

/-- No entry gains or loses more than this. -/
def maxGain : ℕ := 2 ^ 20

/-- Bonuses of bounded size, and a reduction that is a share. -/
structure Circumstances.IsModest (c : Circumstances) : Prop where
  bonus : c.bonus.Within (Totals.bonusBound + Totals.bonusBound)
  reduction : ∀ r, c.reduction = some r → ∃ x, r = .float x ∧ GeneralBonuses.isShare x = true
  luck : c.luck.Within (Totals.statBound * largestDeclared)

section

variable {reduction : Option Amount} {n : ℤ}

theorem natAbs_le_of_declared (h : n.natAbs ≤ largestDeclared) : n.natAbs ≤ significandBound :=
  h.trans (by decide)

theorem written_of_declared (h : n.natAbs ≤ largestDeclared) :
    (Amount.int n).written = .ok (Numeric.numeral n) :=
  Amount.written_of_isWritable (Numeric.isWritable_of_le (natAbs_le_of_declared h))

/-- A reduced price of moderate size is a whole number no larger than the price. -/
theorem exists_adjustedCost
    (hreduction : ∀ r, reduction = some r → ∃ x, r = .float x ∧ GeneralBonuses.isShare x = true)
    (hn : n.natAbs ≤ largestDeclared) :
    ∃ m : ℤ, adjustedCost (.int n) reduction = .ok (.int m) ∧ m.natAbs ≤ largestDeclared := by
  cases reduction with
  | none => exact ⟨n, rfl, hn⟩
  | some r =>
    obtain ⟨x, rfl, hx⟩ := hreduction r rfl
    obtain ⟨share, hshare, h0, h1⟩ := exists_toRat?_of_isShare hx
    have hbound : |discounted n share| ≤ (largestDeclared : ℚ) :=
      Binary64.abs_roundedValue_le (by decide)
        ((abs_mul_factor_le h0 h1 n).trans (by exact_mod_cast hn))
    exact ⟨_, adjustedCost_of_share h0 h1 hshare (natAbs_le_of_declared hn), natAbs_floor_le hbound⟩

theorem exists_payment
    (hreduction : ∀ r, reduction = some r → ∃ x, r = .float x ∧ GeneralBonuses.isShare x = true)
    (hn : n.natAbs ≤ largestDeclared) :
    ∃ m : ℤ, payment reduction (.int n) = .ok (.int m) ∧ m.natAbs ≤ largestDeclared := by
  unfold payment
  split
  · exact exists_adjustedCost hreduction hn
  · exact ⟨n, rfl, hn⟩

end

theorem exists_adjustedProbability {luck : Amount} {n : ℕ} (hluck : luck.Within n)
    (hn : n ≤ significandBound) (x : Binary64) :
    ∃ y, adjustedProbability (.float x) luck = .ok (.float y) := by
  obtain ⟨k, rfl, hk⟩ := hluck
  obtain ⟨share, hshare, -⟩ := Amount.exists_divNat (hk.trans hn) 100
  have hfactor : (Amount.int 1).add (.float share) = .ok (.float (Binary64.add (Binary64.ofInt 1) share)) := by
    simp only [Amount.add, Amount.combine, Amount.toBinary64_int (show (1 : ℤ).natAbs ≤ _ by decide)]
    rfl
  have hproduct : ∀ y : Binary64, (Amount.float x).mul (.float y) = .ok (.float (x.mul y)) := fun _ => rfl
  have hmin : ∀ y : Binary64, ∃ z, Amount.min (.float Binary64.one) (.float y) = .float z := by
    intro y
    unfold Amount.min
    split
    · exact ⟨y, rfl⟩
    · exact ⟨_, rfl⟩
  obtain ⟨z, hz⟩ := hmin (x.mul (Binary64.add (Binary64.ofInt 1) share))
  refine ⟨z, ?_⟩
  simp only [adjustedProbability, hshare, hfactor, hproduct, hz, bind, Except.bind]
  rfl

/-- What an entry that fits leaves of the delta: a resource takes a bounded amount, and every other place
takes a constant that fits it. -/
inductive Leaves (content : Content) (state delta : Tree) : Tree → Prop
  | nothing : Leaves content state delta delta
  | gain {q : StatePath} {name : String} {base n : ℤ} (hhead : q.head = Section.resources.name)
      (hrest : q.rest = [name]) (hn : n.natAbs ≤ maxGain)
      (hbase : (Delta.current delta state q).amount?.getD .zero = .int base) :
      Leaves content state delta (Delta.set delta state q (.int (base + n)))
  | constant {q : StatePath} {k : Constant} (hne : q.head ≠ Section.resources.name)
      (hfits : k.Fits content q) : Leaves content state delta (Delta.set delta state q k.value)

section

variable {content : Content} {c : Circumstances} {q : StatePath} {p : Progress}

/-- A place under the resources that holds a whole number, or nothing yet. -/
def CountsAt (delta state : Tree) (q : StatePath) : Prop :=
  q.head = Section.resources.name → ∃ base : ℤ, (Delta.current delta state q).amount?.getD .zero = .int base

variable (content) in
theorem leaves_accumulate {name : String} {n : ℤ} (hhead : q.head = Section.resources.name)
    (hrest : q.rest = [name]) (hcounts : CountsAt p.delta c.state q) (hn : n.natAbs ≤ maxGain) :
    ∃ p', p.accumulate c q (.int n) = .ok p' ∧ Leaves content c.state p.delta p'.delta := by
  obtain ⟨base, hbase⟩ := hcounts hhead
  refine ⟨p.write c q (.int (base + n)), ?_, .gain hhead hrest hn hbase⟩
  simp only [Progress.accumulate, hbase, Amount.add_int]
  rfl

theorem exists_applyConstant {k : Constant} (hc : c.IsModest) (hcounts : CountsAt p.delta c.state q)
    (hk : k.Fits content q) :
    ∃ p', applyConstant c q k p = .ok p' ∧ Leaves content c.state p.delta p'.delta := by
  -- outside the resources a constant is written as it is
  have hwrite : q.head ≠ Section.resources.name →
      ∃ p', applyConstant c q k p = .ok p' ∧ Leaves content c.state p.delta p'.delta := by
    intro hne
    have hacc : q.accumulates = false := by
      rw [Bool.eq_false_iff]
      exact fun h => hne (StatePath.accumulates_iff.mp h)
    refine ⟨p.write c q k.value, ?_, .constant hne hk⟩
    cases k with
    | truth b => rfl
    | amount a => simp [applyConstant, hacc]
  cases hk with
  | @gain name n hhead hrest hn =>
    obtain ⟨m, hm, hbound⟩ := exists_payment hc.reduction hn
    obtain ⟨p', hp', hleaves⟩ := leaves_accumulate content hhead hrest hcounts (hbound.trans (by decide))
    refine ⟨p', ?_, hleaves⟩
    simp only [applyConstant, StatePath.accumulates_iff.mpr hhead, if_true, hm]
    exact hp'
  | level hhead _ _ _ => exact hwrite (by rw [hhead]; decide)
  | mark harea hhead _ =>
    refine hwrite ?_
    rw [hhead]
    exact Section.name_ne harea (by decide)
  | tale hhead _ => exact hwrite (by rw [hhead]; decide)

theorem exists_applyRange {r : RandomRange} {name : String} (hc : c.IsModest)
    (hcounts : CountsAt p.delta c.state q) (hhead : q.head = Section.resources.name) (hrest : q.rest = [name])
    (hlow : r.low.natAbs ≤ largestDeclared) (hhigh : r.high.natAbs ≤ largestDeclared) (d : Draws) :
    ∃ p' d', Returns (applyRange c q r p) d p' d' ∧ Leaves content c.state p.delta p'.delta := by
  have hsize : largestDeclared = 1000 := rfl
  have hspan : r.span.natAbs ≤ significandBound := by
    have hpos := r.span_pos
    unfold RandomRange.span significandBound at *
    omega
  obtain ⟨n, hdraw, hn₁, hn₂⟩ := r.exists_draw hspan d.isDraw_next
  have hn : n.natAbs ≤ largestDeclared := by omega
  have hbonus : (gainBonus c.bonus q).Within ((Totals.bonusBound + Totals.bonusBound) * largestDeclared) := by
    unfold gainBonus
    split
    · exact hc.bonus.gain _
    · exact Amount.within_zero _
  obtain ⟨m, hm, hbound⟩ := hbonus
  obtain ⟨base, hbase⟩ := hcounts hhead
  have hgain : (n + m).natAbs ≤ maxGain := by
    have hmax : (Totals.bonusBound + Totals.bonusBound) * largestDeclared = 800000 := rfl
    have hgain : maxGain = 1048576 := rfl
    omega
  obtain ⟨line, hreturns⟩ := exists_returns_applyRange (StatePath.accumulates_iff.mpr hhead) hbase hdraw
    (Numeric.isWritable_of_le (natAbs_le_of_declared hn)) hm (Numeric.isWritable_of_le (hbound.trans (by decide)))
  exact ⟨_, _, hreturns, .gain hhead hrest hgain hbase⟩

theorem exists_applyOutcome {o : Outcome} (hc : c.IsModest) (hcounts : CountsAt p.delta c.state q)
    (ho : o.Fits content q) (d : Draws) :
    ∃ p' d', Returns (applyOutcome c q o p) d p' d' ∧ Leaves content c.state p.delta p'.delta := by
  cases ho with
  | constant hk =>
    obtain ⟨p', hp', hleaves⟩ := exists_applyConstant hc hcounts hk
    exact ⟨p', d, returns_lift_iff.mpr ⟨hp', rfl⟩, hleaves⟩
  | range hhead hrest hlow hhigh => exact exists_applyRange hc hcounts hhead hrest hlow hhigh d

theorem Outcome.Fits.exists_name {o : Outcome} (ho : o.Fits content q)
    (hhead : q.head = Section.resources.name) : ∃ name, q.rest = [name] := by
  cases ho with
  | range _ hrest _ _ => exact ⟨_, hrest⟩
  | constant hk =>
    cases hk with
    | gain _ hrest _ => exact ⟨_, hrest⟩
    | level _ hrest _ _ => exact ⟨_, hrest⟩
    | mark _ _ hrest => exact ⟨_, hrest⟩
    | tale hstory _ => exact absurd (hstory.symm.trans hhead) (by decide)

/-- A chance whose condition can be answered comes through. -/
theorem exists_applyChance {k : Chance} {o : Outcome} {answer : ConditionAnswer} (hc : c.IsModest)
    (hcounts : CountsAt p.delta c.state q) (houtcome : k.outcome = .ok o) (ho : o.Fits content q)
    (hanswer : k.answer c.state = .ok answer) (raw : String) (d : Draws) :
    ∃ p' d', Returns (applyChance c raw q k p) d p' d' := by
  simp only [returns_applyChance_iff]
  cases answer with
  | unreadable cause => exact ⟨_, _, .unreadable hanswer⟩
  | unmet text => exact ⟨_, _, .unmet hanswer⟩
  | met =>
    obtain ⟨y, hy⟩ := exists_adjustedProbability hc.luck (by decide)
      (k.probability.add c.bonus.probabilityBonus)
    obtain ⟨rollPlaces, hroll⟩ := exists_placesText_of_isDraw d.isDraw_next
    have hchance : placesText (.float y) = .ok (y.toPlaces 4) := rfl
    cases hlt : d.next.1.lt (.float y) with
    | false => exact ⟨_, _, .missed hanswer hy hlt hroll hchance⟩
    | true =>
      obtain ⟨p', d', happly, -⟩ := exists_applyOutcome hc
        (p := p.note (rollText raw rollPlaces "<" (y.toPlaces 4) ++ ", fired")) hcounts ho d.next.2
      exact ⟨_, d', .fired hanswer hy hlt houtcome hroll hchance happly⟩

theorem leaves_chanceStep {k : Chance} {o : Outcome} {raw : String} {p' : Progress} {d d' : Draws}
    (hc : c.IsModest) (hcounts : CountsAt p.delta c.state q) (houtcome : k.outcome = .ok o)
    (ho : o.Fits content q) (h : ChanceStep c raw q k p d p' d') :
    Leaves content c.state p.delta p'.delta := by
  cases h with
  | fired hanswer hchance hroll hread hfirst hsecond happly =>
    cases houtcome.symm.trans hread
    obtain ⟨p₂, d₂, hreturns, hleaves⟩ := exists_applyOutcome hc
      (p := p.note (rollText raw _ "<" _ ++ ", fired")) hcounts ho d.next.2
    obtain ⟨rfl, -⟩ := returns_unique happly hreturns
    exact hleaves
  | _ => exact .nothing

variable {e : String × Value} {p' : Progress} {d d' : Draws}

/-- An entry that fits leaves what fits, whenever it comes through. -/
theorem leaves_applyEntry (hc : c.IsModest) (he : content.entryFits e = true)
    (hcounts : ∀ q name, q.rest = [name] → CountsAt p.delta c.state q)
    (h : Returns (applyEntry c e.1 e.2 p) d p' d') : Leaves content c.state p.delta p'.delta := by
  obtain ⟨q, o, hq, ho, hread⟩ := Content.exists_of_entryFits he
  have hcounts' : CountsAt p.delta c.state q := fun hhead => by
    obtain ⟨name, hname⟩ := ho.exists_name hhead
    exact hcounts q name hname hhead
  cases returns_applyEntry_iff.mp h with
  | unreadablePath hpath => exact .nothing
  | unreadableEffect hpath hbad htold => exact .nothing
  | sure hpath hsure happly =>
    cases hq.symm.trans hpath
    rcases hread with hread | ⟨k, hread, -⟩
    · cases hread.symm.trans hsure
      obtain ⟨p₂, d₂, hreturns, hleaves⟩ := exists_applyOutcome hc hcounts' ho d
      obtain ⟨rfl, -⟩ := returns_unique happly hreturns
      exact hleaves
    · cases hread.symm.trans hsure
  | chance hpath hchance hstep =>
    cases hq.symm.trans hpath
    rcases hread with hread | ⟨k, hread, houtcome⟩
    · cases hread.symm.trans hchance
    · cases hread.symm.trans hchance
      exact leaves_chanceStep hc hcounts' houtcome ho hstep

theorem exists_applyEntry (hc : c.IsModest) (he : content.entryFits e = true)
    (hcounts : ∀ q name, q.rest = [name] → CountsAt p.delta c.state q)
    (hanswer : ∀ k : Chance, Effect.ofValue e.2 = .ok (.chance k) → ∃ answer, k.answer c.state = .ok answer)
    (d : Draws) : ∃ p' d', Returns (applyEntry c e.1 e.2 p) d p' d' := by
  obtain ⟨q, o, hq, ho, hread⟩ := Content.exists_of_entryFits he
  have hcounts' : CountsAt p.delta c.state q := fun hhead => by
    obtain ⟨name, hname⟩ := ho.exists_name hhead
    exact hcounts q name hname hhead
  simp only [returns_applyEntry_iff]
  rcases hread with hread | ⟨k, hread, houtcome⟩
  · obtain ⟨p', d', happly, -⟩ := exists_applyOutcome hc hcounts' ho d
    exact ⟨p', d', .sure hq hread happly⟩
  · obtain ⟨answer, hans⟩ := hanswer k hread
    obtain ⟨p', d', hchance⟩ := exists_applyChance hc hcounts' houtcome ho hans e.1 d
    exact ⟨p', d', .chance hq hread (returns_applyChance_iff.mp hchance)⟩

end

end SurvivalRules
