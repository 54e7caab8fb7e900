import SurvivalRules.Proofs.Discount
import SurvivalRules.Proofs.Gate
import SurvivalRules.Proofs.Store.Commit
import SurvivalRules.Proofs.Totals

/-!
# Gate and payment agree

The gate compares a discounted price with what is held, and the resolver takes the discount of the negated
price. The two roundings differ by one at most, so a resource that is paid for never drops below minus one,
and the clamp of the store forgives that unit only.
-/
namespace SurvivalRules

open Drawing

/-- The whole amount that a place holds; a place without a value holds zero. -/
def HoldsAmount (v : Value) (n : ℤ) : Prop := v = .int n ∨ v = .null ∧ n = 0

theorem HoldsAmount.amount?_getD {v : Value} {n : ℤ} (h : HoldsAmount v n) :
    v.amount?.getD .zero = .int n := by
  rcases h with rfl | ⟨rfl, rfl⟩ <;> rfl

theorem HoldsAmount.orZero_eq {v : Value} {n : ℤ} (h : HoldsAmount v n) :
    Requirement.orZero v = .int n := by
  rcases h with rfl | ⟨rfl, rfl⟩ <;> rfl

/-- What the gate asks for and what is paid, for a price of `n`. -/
structure Prices (a : Action) (t : Totals) (n need paid : ℤ) : Prop where
  gate : adjustedCost (.int n) (a.gateReduction t) = .ok (.int need)
  payment : adjustedCost (.int (-n)) (a.paymentReduction t) = .ok (.int (-paid))
  need_nonneg : 0 ≤ need
  need_le : need ≤ n
  paid_nonneg : 0 ≤ paid
  crafting : a.isCrafting = true → paid = need ∨ paid = need + 1
  building : a.isCrafting = false → need = n ∧ paid ≤ n
  flat : a.isCrafting = false → a.tiered? = none → paid = n

/-- The gate rounds a discounted price down and the payment rounds it up. -/
theorem exists_prices {a : Action} {t : Totals} {n : ℤ}
    (ht : GeneralBonuses.isShare t.craftingCostReduction = true ∧
      GeneralBonuses.isShare t.buildingCostReduction = true)
    (hn : 0 < n) (hbound : n.natAbs ≤ significandBound) : ∃ need paid, Prices a t n need paid := by
  -- only a crafting action is discounted at the gate, so only there the two roundings meet
  cases hcraft : a.isCrafting with
  | true =>
    obtain ⟨share, hshare, h0, h1⟩ := exists_toRat?_of_isShare ht.1
    obtain ⟨hlow, hhigh⟩ := discounted_bounds h0 h1 hn.le hbound
    refine ⟨⌊discounted n share⌋, ⌈discounted n share⌉, ?_, ?_, ?_, ?_, ?_, ?_, ?_, ?_⟩
    · rw [Action.gateReduction, if_pos hcraft]
      exact adjustedCost_of_share h0 h1 hshare hbound
    · rw [Action.paymentReduction, if_pos hcraft]
      exact payment_of_share h0 h1 hshare hbound
    · exact Int.floor_nonneg.mpr hlow
    · exact Int.floor_le_iff.mpr (by linarith)
    · exact Int.ceil_nonneg hlow
    · intro _
      have hle := Int.floor_le_ceil (discounted n share)
      have hge := Int.ceil_le_floor_add_one (discounted n share)
      omega
    · simp [hcraft]
    · simp [hcraft]
  | false =>
    have hgate : a.gateReduction t = none := by simp [Action.gateReduction, hcraft]
    cases hplan : a.tiered? with
    | none =>
      have hpay : a.paymentReduction t = none := by simp [Action.paymentReduction, hcraft, hplan]
      exact ⟨n, n, by rw [hgate]; rfl, by rw [hpay]; rfl, hn.le, le_rfl, hn.le, by simp [hcraft],
        fun _ => ⟨rfl, le_rfl⟩, fun _ _ => rfl⟩
    | some p =>
      have hpay : a.paymentReduction t = some (.float t.buildingCostReduction) := by
        simp [Action.paymentReduction, hcraft, hplan]
      obtain ⟨share, hshare, h0, h1⟩ := exists_toRat?_of_isShare ht.2
      obtain ⟨hlow, hhigh⟩ := discounted_bounds h0 h1 hn.le hbound
      refine ⟨n, ⌈discounted n share⌉, by rw [hgate]; rfl, ?_, hn.le, le_rfl, Int.ceil_nonneg hlow,
        by simp [hcraft], fun _ => ⟨rfl, Int.ceil_le.mpr hhigh⟩, by simp [hplan]⟩
      rw [hpay]
      exact payment_of_share h0 h1 hshare hbound

/-- Paths that are no prefixes of each other; a malformed path is apart from every path. -/
def ApartPaths (raw raw' : String) : Prop :=
  ∀ p q, StatePath.parse raw = .ok p → StatePath.parse raw' = .ok q → ¬ p.Comparable q

theorem apartPaths_of_head_ne {raw raw' : String} {p q : StatePath} (hp : StatePath.parse raw = .ok p)
    (hq : StatePath.parse raw' = .ok q) (h : p.head ≠ q.head) : ApartPaths raw raw' := by
  intro p' q' hp' hq'
  cases hp.symm.trans hp'
  cases hq.symm.trans hq'
  exact StatePath.not_comparable_of_head_ne h

/-- A tier asks for `n` of a resource and takes `n` of it, and no other effect touches its place. -/
structure Tier.Pays (tier : Tier) (raw : String) (n : ℤ) : Prop where
  asks : ∃ cost, tier.cost = some cost ∧ (raw, .int n) ∈ cost
  takes : ∃ effects, tier.effects = some effects ∧ (OrderedMap.keys effects).Nodup ∧
    (raw, .int (-n)) ∈ effects ∧ ∀ e ∈ effects, e.1 ≠ raw → ApartPaths e.1 raw

theorem current_applyEntries {c : Circumstances} {effects : Tree} {p p' : Progress} {d d' : Draws}
    {path : StatePath} (hapart : ∀ e ∈ effects, ∀ q, StatePath.parse e.1 = .ok q → ¬ q.Comparable path)
    (hopen : Delta.IsOpen p.delta path.head) (h : Returns (applyEntries c effects p) d p' d') :
    Delta.IsOpen p'.delta path.head ∧
      (path.head ∈ OrderedMap.keys p.delta → path.head ∈ OrderedMap.keys p'.delta) ∧
      Delta.current p'.delta c.state path = Delta.current p.delta c.state path := by
  refine applyEntries_induction (motive := fun delta => Delta.IsOpen delta path.head ∧
    (path.head ∈ OrderedMap.keys p.delta → path.head ∈ OrderedMap.keys delta) ∧
    Delta.current delta c.state path = Delta.current p.delta c.state path) ?_ h ⟨hopen, id, rfl⟩
  rintro e he q hq v - delta ⟨hdelta, hkeys, hcurrent⟩
  have hq' := hapart e he q hq
  refine ⟨Delta.isOpen_set hdelta c.state v (Delta.rest_ne_nil_of_apart hq'),
    fun hk => Delta.mem_keys_set (hkeys hk) _ _ _, ?_⟩
  rw [Delta.current_set_of_apart hdelta c.state v hq', hcurrent]

theorem payment_of_neg {reduction : Option Amount} {n : ℤ} (hn : 0 < n) :
    payment reduction (.int (-n)) = adjustedCost (.int (-n)) reduction := by
  have hneg : (Amount.int (-n)).lt .zero = true := by
    rw [Amount.zero, Amount.lt_int_iff]
    omega
  rw [payment, if_pos hneg]

theorem get_applyEntries_of_payment {c : Circumstances} {front back : Tree} {raw : String}
    {path : StatePath} {n stored paid : ℤ} {p : Progress} {d d' : Draws}
    (hpath : StatePath.parse raw = .ok path) (hacc : path.accumulates = true)
    (hbelow : path.rest ≠ []) (hn : 0 < n)
    (hapart : ∀ e ∈ front ++ back, ApartPaths e.1 raw) (hstored : HoldsAmount (c.state.get path) stored)
    (hpaid : adjustedCost (.int (-n)) c.reduction = .ok (.int (-paid)))
    (h : Returns (applyEntries c (front ++ (raw, .int (-n)) :: back) .start) d p d') :
    Tree.get p.delta path = .int (stored - paid) := by
  have hfront : ∀ e ∈ front, ∀ q, StatePath.parse e.1 = .ok q → ¬ q.Comparable path :=
    fun e he q hq => hapart e (List.mem_append_left back he) q path hq hpath
  have hback : ∀ e ∈ back, ∀ q, StatePath.parse e.1 = .ok q → ¬ q.Comparable path :=
    fun e he q hq => hapart e (List.mem_append_right front he) q path hq hpath
  obtain ⟨p₁, d₁, hfirst, hrest⟩ := returns_applyEntries_append.mp h
  obtain ⟨p₂, d₂, hentry, hlast⟩ := returns_bind_iff.mp hrest
  obtain ⟨hopen, -, hcurrent⟩ := current_applyEntries hfront (by simp [Delta.IsOpen, Progress.start]) hfirst
  obtain ⟨m, total, hm, htotal, hdelta⟩ :=
    exists_total_of_applyEntry (a := .int (-n)) hpath hacc hentry
  rw [payment_of_neg hn, hpaid] at hm
  cases hm
  have hbefore : Delta.current Progress.start.delta c.state path = c.state.get path := rfl
  rw [hcurrent, hbefore, hstored.amount?_getD, Amount.add_int] at htotal
  cases htotal
  have hopen₂ : Delta.IsOpen p₂.delta path.head :=
    hdelta ▸ Delta.isOpen_set hopen c.state _ fun _ => hbelow
  have hhead : path.head ∈ OrderedMap.keys p₂.delta := by
    rw [hdelta]
    exact Delta.head_mem_keys_set _ _ _ _
  obtain ⟨-, hkeys, hafter⟩ := current_applyEntries hback hopen₂ hlast
  rw [hdelta, Delta.current_set_self, Delta.current_of_mem (hkeys hhead)] at hafter
  rw [hafter, sub_eq_add_neg]
  rfl

/-- A resolution leaves of a resource what is left of the held amount when it is paid. -/
theorem get_ofEffects_of_payment {c : Content} {a : Action} {state effects : Tree} {raw : String}
    {path : StatePath} {n stored paid : ℤ} {amplify : Bool} {d d' : Draws} {r : Resolution}
    (hpath : StatePath.parse raw = .ok path) (hacc : path.accumulates = true)
    (hbelow : path.rest ≠ []) (hn : 0 < n) (hnodup : (OrderedMap.keys effects).Nodup)
    (htakes : (raw, .int (-n)) ∈ effects) (hapart : ∀ e ∈ effects, e.1 ≠ raw → ApartPaths e.1 raw)
    (hstored : HoldsAmount (state.get path) stored) (hnonneg : 0 ≤ paid)
    (hpaid : ∀ t, Totals.ofState c state = .ok t →
      adjustedCost (.int (-n)) (a.paymentReduction t) = .ok (.int (-paid)))
    (h : Returns (Resolution.ofEffects c a state amplify effects) d r d') :
    Tree.get r.delta path = .int (stored - paid) := by
  obtain ⟨around, p, p', haround, hp, hp', rfl⟩ := Resolution.returns_ofEffects_iff.mp h
  have hstate := Resolution.state_of_circumstances haround
  obtain ⟨t, ht, hrest⟩ := bind_eq_ok_iff.mp haround
  obtain ⟨b, -, hlast⟩ := bind_eq_ok_iff.mp hrest
  have hreduction : around.reduction = a.paymentReduction t := by
    cases pure_eq_ok_iff.mp hlast
    rfl
  obtain ⟨front, back, rfl⟩ := List.append_of_mem htakes
  -- the payment is the one entry at its path, so the entries around it are apart from it
  have hothers : ∀ e ∈ front ++ back, ApartPaths e.1 raw := by
    have hunique : raw ∉ OrderedMap.keys (front ++ back) := by
      simp only [OrderedMap.keys_append, OrderedMap.keys_cons, List.nodup_middle,
        List.nodup_cons] at hnodup
      simpa using hnodup.1
    intro e he
    refine hapart e ?_ fun heq => hunique (heq ▸ List.mem_map_of_mem he)
    simp only [List.mem_append, List.mem_cons] at he ⊢
    tauto
  have hentries := get_applyEntries_of_payment hpath hacc hbelow hn hothers
    (by rwa [hstate]) (by rw [hreduction]; exact hpaid t ht) hp
  exact get_scaleGains_of_le (StatePath.accumulates_iff.mp hacc) hbelow hentries
    hstored.amount?_getD (by omega) hp'

theorem get_clampResources {t : Tree} {path : StatePath} {x : ℤ} (hacc : path.accumulates = true)
    (hbelow : path.rest ≠ []) (hx : t.get path = .int x) :
    ∃ y, (Store.clampResources t).get path = .int y ∧ (y = x ∨ x < 0 ∧ y = 0) := by
  have hhead := StatePath.accumulates_iff.mp hacc
  obtain ⟨name, ks, hks⟩ := List.exists_cons_of_ne_nil hbelow
  unfold Store.clampResources
  split
  next held hheld =>
    rw [Tree.get_eq_descend, hhead, hheld, hks, Value.descend_mapping_cons] at hx
    rw [Tree.get_eq_descend, hhead, hks, Tree.lookup_insert_self, Value.descend_mapping_cons]
    unfold Tree.lookup at hx ⊢
    rw [OrderedMap.get?_mapValues]
    cases hv : OrderedMap.get? name held with
    | none => simp [hv] at hx
    | some v =>
      simp only [hv, Option.getD_some, Option.map_some] at hx ⊢
      cases ks with
      | nil =>
        rw [Value.descend_nil] at hx
        subst hx
        rw [Value.descend_nil, Store.clampAmount, Value.amount?]
        dsimp only
        split
        next hlt =>
          rw [Amount.zero, Amount.lt_int_iff] at hlt
          exact ⟨0, rfl, Or.inr ⟨hlt, rfl⟩⟩
        next => exact ⟨x, rfl, Or.inl rfl⟩
      | cons k rest =>
        cases v with
        | mapping es => exact ⟨x, hx, Or.inl rfl⟩
        | _ => simp [Value.descend] at hx
  next => exact ⟨x, hx, Or.inl rfl⟩

theorem get_commit {s next : Store} {id : String} {cooldown : Binary64} {r : Resolution}
    {path : StatePath} {x : ℤ} (hacc : path.accumulates = true) (hbelow : path.rest ≠ [])
    (htidy : Delta.Tidy r.delta s.state) (hd : s.state.Distinct) (hx : Tree.get r.delta path = .int x)
    (h : s.commit id cooldown r = .ok next) :
    ∃ y, next.state.get path = .int y ∧ (y = x ∨ x < 0 ∧ y = 0) := by
  obtain ⟨delta, hdelta, hstate, -⟩ := Store.exists_delta_of_commit h
  have hhead := StatePath.accumulates_iff.mp hacc
  have hsame := Store.sameSection_bookkeeping (k := path.head) (hhead ▸ by decide)
    (fun _ => hhead ▸ by decide) hdelta
  have hmem : path.head ∈ OrderedMap.keys r.delta := by
    by_contra hnot
    rw [Tree.get_eq_descend, Tree.lookup_of_not_mem hnot, Value.descend_null] at hx
    cases hx
  have hmerged : (Delta.merge s.state delta).get path = .int x := by
    rw [Tree.get_eq_descend, (Store.tidy_bookkeeping hd htidy hdelta).lookup_merge,
      if_pos (hsame.2.mpr hmem), hsame.1, ← Tree.get_eq_descend, hx]
  rw [hstate]
  exact get_clampResources hacc hbelow hmerged

theorem resourcePart?_append (name : String) :
    Gate.resourcePart? ("resources." ++ name) = some name.toList := by
  have hlist : ("resources." ++ name).toList = "resources.".toList ++ name.toList :=
    String.toList_append
  unfold Gate.resourcePart?
  rw [hlist]
  rfl

theorem costPart?_append {reduction : Option Amount} {n need : ℤ} (name : String)
    (hneed : adjustedCost (.int n) reduction = .ok (.int need))
    (hbound : need.natAbs ≤ significandBound) :
    Gate.costPart? reduction ("resources." ++ name) (.int n) =
      .ok (some ("-" ++ Numeric.numeral need ++ " " ++ Gate.resourceTitle name.toList)) := by
  simp only [Gate.costPart?, Value.amount?, resourcePart?_append, hneed, bind, Except.bind,
    Amount.written_of_isWritable (Numeric.isWritable_of_le hbound), pure, Except.pure]

/-- An action that can be done pays for a resource what the gate has checked, up to one unit: a crafting
action pays the discounted price or one more, and the others never more than the price that the gate asks
for in full. So the clamp takes a resource up by one at most. -/
theorem gate_and_payment_agree {c : Content} {id name : String} {state : Tree} {a : Action}
    {tier : Tier} {n stored : ℤ} {amplify : Bool} {d d' : Draws} {r : Resolution}
    (hc : c.SharesBounded) (hd : state.Distinct) (ha : c.action? id = some a)
    (htier : a.tier state = .ok tier) (hpays : tier.Pays ("resources." ++ name) n) (hn : 0 < n)
    (hbound : n.natAbs ≤ significandBound)
    (hstored : HoldsAmount (Requirement.currentValue ("resources." ++ name) state) stored)
    (hstoredBound : stored.natAbs ≤ significandBound)
    (hexec : Gate.isExecutable c id state = .ok true)
    (hres : Returns (resolve c id state amplify) d r d') :
    ∃ reduction need x, Gate.gateReduction c a state = .ok reduction ∧
      adjustedCost (.int n) reduction = .ok (.int need) ∧
      Gate.costPart? reduction ("resources." ++ name) (.int n) =
        .ok (some ("-" ++ Numeric.numeral need ++ " " ++ Gate.resourceTitle name.toList)) ∧
      Requirement.currentValue ("resources." ++ name) r.delta = .int x ∧
      (a.isCrafting = true → (stored - x - need = 0 ∨ stored - x - need = 1) ∧ -1 ≤ x) ∧
      (a.isCrafting = false → (∀ p, a.tiered? = some p → stored - x ≤ n ∧ 0 ≤ x) ∧
        (a.tiered? = none → stored - x = n ∧ 0 ≤ x)) ∧
      ∀ (s : Store) cooldown next, s.state = state → s.commit id cooldown r = .ok next →
        ∃ y, Requirement.currentValue ("resources." ++ name) next.state = .int y ∧ x ≤ y ∧ y ≤ x + 1 := by
  obtain ⟨-, a', tier', cost, ha', htier', hcost, hpay⟩ := Gate.isExecutable_spec hexec
  cases ha.symm.trans ha'
  cases htier.symm.trans htier'
  obtain ⟨⟨cost', hcost', hasks⟩, effects, heffects, hnodup, htakes, hapart⟩ := hpays
  cases hcost.symm.trans hcost'
  have hentry := Gate.costFailure_of_canPay hpay _ hasks
  obtain ⟨path, hpath⟩ := Gate.exists_path_of_costFailure hentry
  obtain ⟨hacc, hbelow⟩ := StatePath.accumulates_of_parse_append hpath
  have hcurrent : ∀ t, Requirement.currentValue ("resources." ++ name) t = t.get path := by
    intro t
    simp only [Requirement.currentValue, hpath]
  simp only [hcurrent] at hstored ⊢
  obtain ⟨reduction, need, hreduction, hneed, hle⟩ :=
    Gate.le_of_costFailure hpath hacc hstored.orZero_eq hstoredBound hentry
  obtain ⟨t, ht, hgate⟩ := bind_eq_ok_iff.mp hreduction
  cases pure_eq_ok_iff.mp hgate
  obtain ⟨need', paid, hprices⟩ := exists_prices (a := a) (Totals.isShare_ofState hc ht) hn hbound
  cases hneed.symm.trans hprices.gate
  have hheld : need' ≤ stored := Amount.le_int_iff.mp hle
  obtain ⟨tier', htier', ⟨hnone, -⟩ | ⟨effects', heffects', hreturns⟩⟩ :=
    Resolution.exists_tier_of_returns ha hres
  · cases htier.symm.trans htier'
    simp [heffects] at hnone
  cases htier.symm.trans htier'
  cases heffects.symm.trans heffects'
  have hx := get_ofEffects_of_payment hpath hacc hbelow hn hnodup htakes hapart hstored
    hprices.paid_nonneg (fun u hu => by cases ht.symm.trans hu; exact hprices.payment) hreturns
  have hcraft := hprices.crafting
  have hbuild := hprices.building
  have hflat := hprices.flat
  have hlow := hprices.need_nonneg
  have hhigh := hprices.need_le
  refine ⟨_, need', stored - paid, hreduction, hprices.gate, ?_, hx, ?_, ?_, ?_⟩
  · exact costPart?_append name hprices.gate (by omega)
  · intro hcrafting
    have := hcraft hcrafting
    omega
  · intro hcrafting
    obtain ⟨hneed', hpaid⟩ := hbuild hcrafting
    refine ⟨fun p hp => by omega, fun hplan => ?_⟩
    have := hflat hcrafting hplan
    omega
  · intro s cooldown next hs hcommit
    subst hs
    obtain ⟨y, hy, hclamp⟩ := get_commit hacc hbelow (tidy_resolve hd hres) hd hx hcommit
    refine ⟨y, hy, ?_⟩
    have hsmall : -1 ≤ stored - paid := by
      cases hc : a.isCrafting with
      | true => have := hcraft hc; omega
      | false => have := hbuild hc; omega
    omega

/-- A table for nine wood, and an apron that saves a quarter of it. -/
def craftTable : Action where
  id := "craftTable"
  label := "Table"
  description := ""
  category := none
  statsEffects := []
  craftingCostReduction := Binary64.zero
  buildingCostReduction := Binary64.zero
  plan := .flat ⟨some [], [("resources.wood", .int 9)],
    [("resources.wood", .int (-9)), ("tools.table", .bool true)], Binary64.zero⟩

def apron : Item where
  id := "apron"
  name := "Apron"
  description := ""
  slot := .clothing
  actionBonuses := []
  generalBonuses := { GeneralBonuses.none with craftingCostReduction := Binary64.nearest (1 / 4) }

def workshop : Content := ⟨[("craftTable", craftTable)], [("apron", apron)], [], []⟩

def workshopState : Tree :=
  [("resources", .mapping [("wood", .int 6)]), ("clothing", .mapping [("apron", .bool true)])]

def workshopTier : Tier :=
  ⟨none, some [], some [("resources.wood", .int 9)],
    some [("resources.wood", .int (-9)), ("tools.table", .bool true)], Binary64.zero⟩

theorem workshopTier_pays : workshopTier.Pays ("resources." ++ "wood") 9 := by
  refine ⟨⟨_, rfl, by decide⟩, _, rfl, by decide, by decide, ?_⟩
  simp only [List.forall_mem_cons, List.not_mem_nil, false_implies, implies_true, and_true]
  have htable : StatePath.parse "tools.table" = .ok ⟨"tools.table", "tools", ["table"]⟩ := by decide
  have hwood : StatePath.parse "resources.wood" = .ok ⟨"resources.wood", "resources", ["wood"]⟩ := by
    decide
  exact ⟨fun hne => absurd rfl hne, fun _ => apartPaths_of_head_ne htable hwood (by decide)⟩

def workshopResolution : Resolution :=
  ⟨[("resources", .mapping [("wood", .int (-1))]), ("tools", .mapping [("table", .bool true)])],
    [], [], []⟩

theorem workshop_returns :
    Returns (resolve workshop "craftTable" workshopState false) zeroDraws workshopResolution zeroDraws := by
  decide +kernel

/-- The gate asks for six of the nine wood, and the table takes seven. -/
theorem workshop_pays_one_more :
    ∃ reduction need x, Gate.gateReduction workshop craftTable workshopState = .ok reduction ∧
      adjustedCost (.int 9) reduction = .ok (.int need) ∧
      Requirement.currentValue "resources.wood" workshopResolution.delta = .int x ∧
      (6 - x - need = 0 ∨ 6 - x - need = 1) ∧ -1 ≤ x := by
  have hshares : workshop.SharesBounded := by decide +kernel
  have hdistinct : workshopState.Distinct := Tree.distinct_of_forall_mem (by decide)
  have htier : craftTable.tier workshopState = .ok workshopTier := by decide +kernel
  have hholds : HoldsAmount (Requirement.currentValue ("resources." ++ "wood") workshopState) 6 :=
    Or.inl (by decide)
  have hexec : Gate.isExecutable workshop "craftTable" workshopState = .ok true := by decide +kernel
  obtain ⟨reduction, need, x, hreduction, hneed, -, hx, hcraft, -, -⟩ :=
    gate_and_payment_agree hshares hdistinct rfl htier workshopTier_pays (by decide) (by decide)
      hholds (by decide) hexec workshop_returns
  exact ⟨reduction, need, x, hreduction, hneed, hx, hcraft (by decide)⟩

end SurvivalRules
