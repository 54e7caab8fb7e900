import SurvivalRules.Proofs.Numeric.Order
import SurvivalRules.Proofs.Store.Reads

/-!
# Growing resources keep actions affordable

Bonuses, tiers and timers are read outside of the resources, and a resource is only ever asked for at least
an amount. So an action that can be done can still be done when no place of the resources reads less. The
section of the resources as a whole reads as a number only where it is missing or no mapping, so a price on
the whole section can be lost to the first resource that is gained.
-/
namespace SurvivalRules

/-- What reads as a number where an amount is expected reads as no less in `w`, if both can be read. -/
def Value.ReadsAtMost (v w : Value) : Prop :=
  ∀ x y, (Requirement.orZero v).toNumber = .ok x → (Requirement.orZero w).toNumber = .ok y →
    x.isNaN = true ∨ (Amount.float x).le (.float y) = true

/-- As `Value.ReadsAtMost`, for a place of two states. -/
def Tree.ReadsAtMost (s t : Tree) (p : StatePath) : Prop := (s.get p).ReadsAtMost (t.get p)

/-- The states differ in the resources only, and no place below these reads less in `t`. -/
structure Tree.Richer (s t : Tree) : Prop where
  elsewhere : ∀ k, k ≠ Section.resources.name → t.lookup k = s.lookup k
  below : ∀ raw p, StatePath.parse raw = .ok p → p.accumulates = true → p.rest ≠ [] →
    s.ReadsAtMost t p

/-- A price on the section of the resources as a whole. -/
def Tree.AsksWhole (cost : Tree) : Prop :=
  ∃ e ∈ cost, e.1 = Section.resources.name ∧ e.2.isNumber = true

instance (cost : Tree) : Decidable cost.AsksWhole := inferInstanceAs (Decidable (∃ e ∈ cost, _))

section

variable {s t : Tree} {v w : Value}

instance (v w : Value) : Decidable (v.ReadsAtMost w) :=
  match hx : (Requirement.orZero v).toNumber, hy : (Requirement.orZero w).toNumber with
  | .ok x, .ok y =>
    decidable_of_iff (x.isNaN = true ∨ (Amount.float x).le (.float y) = true)
      ⟨fun h x' y' hx' hy' => by cases hx.symm.trans hx'; cases hy.symm.trans hy'; exact h,
        fun h => h x y hx hy⟩
  | .error _, _ => isTrue fun x' _ hx' => by cases hx.symm.trans hx'
  | _, .error _ => isTrue fun _ y' _ hy' => by cases hy.symm.trans hy'

/-- Places below two values compare if the values do and the places below their entries. -/
theorem Value.readsAtMost_descend (h : v.ReadsAtMost w)
    (hentries : ∀ name ∈ OrderedMap.keys v.entries ++ OrderedMap.keys w.entries, ∀ ks,
      ((v.entries.lookup name).descend ks).ReadsAtMost ((w.entries.lookup name).descend ks))
    (ks : List String) : (v.descend ks).ReadsAtMost (w.descend ks) := by
  cases ks with
  | nil => simpa using h
  | cons name rest =>
    rw [← descend_mapping_entries v (List.cons_ne_nil name rest), descend_mapping_cons,
      ← descend_mapping_entries w (List.cons_ne_nil name rest), descend_mapping_cons]
    by_cases hname : name ∈ OrderedMap.keys v.entries ++ OrderedMap.keys w.entries
    · exact hentries name hname rest
    · rw [List.mem_append, not_or] at hname
      rw [Tree.lookup_of_not_mem hname.1, Tree.lookup_of_not_mem hname.2, descend_null]
      decide +kernel

/-- Resources need to be compared at the names that one of the states has. -/
theorem Tree.richer_of_entries (helse : ∀ k, k ≠ Section.resources.name → t.lookup k = s.lookup k)
    (hentries : ∀ name ∈ OrderedMap.keys (s.lookup Section.resources.name).entries ++
        OrderedMap.keys (t.lookup Section.resources.name).entries, ∀ ks,
      ((Tree.lookup (s.lookup Section.resources.name).entries name).descend ks).ReadsAtMost
        ((Tree.lookup (t.lookup Section.resources.name).entries name).descend ks)) : s.Richer t where
  elsewhere := helse
  below := by
    intro raw p _ hacc hrest
    obtain ⟨name, ks, hks⟩ := List.exists_cons_of_ne_nil hrest
    rw [ReadsAtMost, get_cons hks, get_cons hks, StatePath.accumulates_iff.mp hacc]
    by_cases hname : name ∈ OrderedMap.keys (s.lookup Section.resources.name).entries ++
        OrderedMap.keys (t.lookup Section.resources.name).entries
    · exact hentries name hname ks
    · rw [List.mem_append, not_or] at hname
      rw [lookup_of_not_mem hname.1, lookup_of_not_mem hname.2, Value.descend_null]
      decide +kernel

end

section

variable {c : Content} {id raw : String} {s t : Tree} {a : Action}

/-- The one path to the section of the resources as a whole is its name. -/
theorem StatePath.raw_of_rest_eq_nil {p : StatePath} (hp : parse raw = .ok p) (hacc : p.accumulates = true)
    (hrest : p.rest = []) : raw = Section.resources.name := by
  have hname : parse Section.resources.name = .ok ⟨Section.resources.name, Section.resources.name, []⟩ := by
    decide +kernel
  refine raw_eq_of_keys_eq hp hname ?_
  rw [keys, keys, accumulates_iff.mp hacc, hrest]

theorem Tree.section?_congr {k : String} (h : t.lookup k = s.lookup k) : t.section? k = s.section? k := by
  unfold section?
  rw [h]

/-- The tier of an action depends on the buildings only. -/
theorem Action.tier_congr (h : t.lookup Section.buildings.name = s.lookup Section.buildings.name) (a : Action) :
    a.tier t = a.tier s := by
  have hlevel : ∀ p : TieredPlan, p.currentLevel t = p.currentLevel s := by
    intro p
    unfold TieredPlan.currentLevel
    rw [Tree.section?_congr h]
  unfold Action.tier
  cases a.plan with
  | flat p => rfl
  | tiered p => simp only [hlevel p]

namespace Gate

theorem isCoolingDown_congr (h : t.lookup Section.cooldowns.name = s.lookup Section.cooldowns.name) (id : String) :
    isCoolingDown id t = isCoolingDown id s := by
  rw [isCoolingDown, isCoolingDown, cooldownRemaining_eq, cooldownRemaining_eq, Tree.section?_congr h]

/-- No bonus depends on the resources. -/
theorem gateReduction_of_richer (h : s.Richer t) (c : Content) (a : Action) :
    gateReduction c a t = gateReduction c a s := by
  have hbonuses : ∀ k ∈ Totals.sections, t.lookup k = s.lookup k := by
    intro k hk
    refine h.elsewhere k fun he => ?_
    subst he
    exact absurd hk (by decide)
  rw [gateReduction, gateReduction, Totals.ofState_congr c hbonuses]

/-- What is enough for a price with the first reduction is enough with the second one, too. -/
def AsksNoMore (reduction reduction' : Except Fault (Option Amount)) (price : Amount) : Prop :=
  ∀ share share' need need', reduction = .ok share → reduction' = .ok share' → adjustedCost price share = .ok need →
    adjustedCost price share' = .ok need' → ∀ held, need.le held = true → need'.le held = true

theorem asksNoMore_self (reduction : Except Fault (Option Amount)) (price : Amount) :
    AsksNoMore reduction reduction price := by
  intro share share' need need' hshare hshare' hneed hneed' held hheld
  cases hshare.symm.trans hshare'
  cases hneed.symm.trans hneed'
  exact hheld

/-- An entry that can be paid can be paid with more and at a lower price, unless its reason cannot be told. -/
theorem costFailure_of_readsAtMost {reduction reduction' : Except Fault (Option Amount)} {required : Value}
    {failure : Option String}
    (helse : ∀ p, StatePath.parse raw = .ok p → p.accumulates = false → t.get p = s.get p)
    (hreads : required.isNumber = true → ∀ p, StatePath.parse raw = .ok p → p.accumulates = true →
      s.ReadsAtMost t p)
    (hasks : ∀ price, required.amount? = some price → AsksNoMore reduction reduction' price)
    (hpaid : costFailure reduction s raw required = .ok none)
    (h : costFailure reduction' t raw required = .ok failure) : failure = none := by
  cases hprice : required.amount? with
  | none =>
    simp only [costFailure, hprice] at h
    cases h
    rfl
  | some price =>
    cases hp : StatePath.parse raw with
    | error cause =>
      simp only [costFailure, hprice, hp] at hpaid
      cases hpaid
    | ok p =>
      cases hacc : p.accumulates with
      | false =>
        simp only [costFailure, hprice, hp, hacc, helse p hp hacc, Bool.false_eq_true, if_false] at hpaid h
        rw [hpaid] at h
        cases h
        rfl
      | true =>
        obtain ⟨share, need, held, hshare, hneed, hheld, henough⟩ := (costFailure_eq_none_iff hprice hp hacc).mp hpaid
        obtain ⟨share', need', held', hshare', hneed', hheld'⟩ : ∃ share' need' held', reduction' = .ok share' ∧
            adjustedCost price share' = .ok need' ∧ (Requirement.orZero (t.get p)).toNumber = .ok held' := by
          simp only [costFailure, hprice, hp, hacc, if_true, bind_eq_ok_iff] at h
          obtain ⟨share', hshare', need', hneed', held', hheld', -⟩ := h
          exact ⟨share', need', held', hshare', hneed', hheld'⟩
        have hmore : (Amount.float held).le (.float held') = true := by
          have hnumber : required.isNumber = true := by simp [Value.isNumber, hprice]
          refine (hreads hnumber p hp hacc held held' hheld hheld').resolve_left fun hnan => ?_
          cases henough.symm.trans (Amount.not_le_of_isNaN hnan)
        have henough' := hasks price hprice share share' need need' hshare hshare' hneed hneed' _ henough
        have hpaid' := (costFailure_eq_none_iff hprice hp hacc).mpr
          ⟨share', need', held', hshare', hneed', hheld', Amount.le_trans henough' hmore⟩
        exact Except.ok.inj (h.symm.trans hpaid')

theorem canPay_of_readsAtMost {reduction reduction' : Except Fault (Option Amount)} {cost : Tree} {payable : Bool}
    (helse : ∀ e ∈ cost, ∀ p, StatePath.parse e.1 = .ok p → p.accumulates = false → t.get p = s.get p)
    (hreads : ∀ e ∈ cost, e.2.isNumber = true → ∀ p, StatePath.parse e.1 = .ok p →
      p.accumulates = true → s.ReadsAtMost t p)
    (hasks : ∀ e ∈ cost, ∀ price, e.2.amount? = some price → AsksNoMore reduction reduction' price)
    (hpay : canPay reduction s cost = .ok true) (h : canPay reduction' t cost = .ok payable) :
    payable = true := by
  induction cost with
  | nil =>
    cases h
    rfl
  | cons e rest ih =>
    obtain ⟨hother, helse⟩ := List.forall_mem_cons.mp helse
    obtain ⟨hfirst, hrest⟩ := List.forall_mem_cons.mp hreads
    obtain ⟨hask, hasks⟩ := List.forall_mem_cons.mp hasks
    obtain ⟨failure, hfailure, hpay⟩ := bind_eq_ok_iff.mp hpay
    obtain ⟨failure', hfailure', h⟩ := bind_eq_ok_iff.mp h
    cases failure with
    | some reason => cases pure_eq_ok_iff.mp hpay
    | none =>
      cases costFailure_of_readsAtMost hother hfirst hask hfailure hfailure'
      exact ih helse hrest hasks hpay h

/-- Affordability is monotone: an action that can be done can still be done in a state that differs in the
resources only and in which no place below them reads less, as long as its cost does not ask for the whole
section, or this reads no less either. -/
theorem isExecutable_of_richer (h : s.Richer t)
    (hwhole : ∀ a tier cost, c.action? id = some a → a.tier s = .ok tier → tier.cost = some cost →
      cost.AsksWhole →
        (s.lookup Section.resources.name).ReadsAtMost (t.lookup Section.resources.name))
    (hexec : isExecutable c id s = .ok true) {executable : Bool}
    (hreturns : isExecutable c id t = .ok executable) : executable = true := by
  obtain ⟨hready, a, tier, cost, ha, htier, hcost, hpay⟩ := isExecutable_spec hexec
  have hreads : ∀ e ∈ cost, e.2.isNumber = true → ∀ p, StatePath.parse e.1 = .ok p →
      p.accumulates = true → s.ReadsAtMost t p := by
    intro e he hnumber p hp hacc
    by_cases hrest : p.rest = []
    · have hraw := StatePath.raw_of_rest_eq_nil hp hacc hrest
      have hreads := hwhole a tier cost ha htier hcost ⟨e, he, hraw, hnumber⟩
      rwa [Tree.ReadsAtMost, Tree.get_eq_descend, Tree.get_eq_descend, hrest, Value.descend_nil,
        Value.descend_nil, StatePath.accumulates_iff.mp hacc]
    · exact h.below e.1 p hp hacc hrest
  -- any other place is read outside of the resources, so it is the same in both states
  have helse : ∀ e ∈ cost, ∀ p, StatePath.parse e.1 = .ok p → p.accumulates = false → t.get p = s.get p := by
    intro e _ p _ hacc
    have hhead : p.head ≠ Section.resources.name := fun he => by
      rw [StatePath.accumulates_iff.mpr he] at hacc
      cases hacc
    rw [Tree.get_eq_descend, Tree.get_eq_descend, h.elsewhere p.head hhead]
  simp only [isExecutable, ha, isCoolingDown_congr (h.elsewhere _ (by decide)), hready,
    Action.tier_congr (h.elsewhere _ (by decide)), htier, hcost, bind, Except.bind, Bool.false_eq_true, if_false,
    gateReduction_of_richer h] at hreturns
  exact canPay_of_readsAtMost helse hreads (fun _ _ price _ => asksNoMore_self _ price) hpay hreturns

end Gate

end

/-- An action with this cost and nothing else. -/
def pricedAt (id : String) (cost : Tree) : Action where
  id := id
  label := id
  description := ""
  category := none
  statsEffects := []
  craftingCostReduction := Binary64.zero
  buildingCostReduction := Binary64.zero
  plan := .flat ⟨some [], cost, [], Binary64.zero⟩

/-- A quarter off all that is crafted. -/
def workbench : Item where
  id := "workbench"
  name := "Workbench"
  description := ""
  slot := .tools
  actionBonuses := []
  generalBonuses := { GeneralBonuses.none with
    craftingCostReduction :=
      .finite (1 / 4) ⟨by decide +kernel, 1, -2, by decide, by decide, by decide +kernel⟩ }

/-- Nine of the wood less a quarter, a hide, a level of a statistic, and nothing where there is no number. -/
def bowCost : Tree :=
  [("resources.wood", .int 9), ("resources.hide.deer", .int 1), ("stats.luck", .int 2),
    ("flags.bench", .bool true)]

def fletchery : Content where
  actions := [("craftBow", pricedAt "craftBow" bowCost)]
  items := [("workbench", workbench)]
  families := []
  chains := []

/-- Wood as a text, a hide as a mark, and a note that is no number. -/
def fletcher : Tree :=
  [("tools", .mapping [("workbench", .bool true)]), ("stats", .mapping [("luck", .int 2)]),
    ("resources", .mapping [("wood", .text " 6 "), ("hide", .mapping [("deer", .bool true)]),
      ("note", .text "owed")])]

def richFletcher : Tree :=
  [("tools", .mapping [("workbench", .bool true)]), ("stats", .mapping [("luck", .int 2)]),
    ("resources", .mapping [("wood", .int 7), ("hide", .mapping [("deer", .text "3.5"), ("hare", .int 1)]),
      ("note", .int (-1))])]

theorem fletcher_richer : fletcher.Richer richFletcher := by
  refine Tree.richer_of_entries (fun k hk => ?_) fun name hname => ?_
  · simp only [Tree.lookup, fletcher, richFletcher, OrderedMap.get?]
    split_ifs with h₁ h₂ h₃
    · rfl
    · rfl
    · exact absurd h₃.symm hk
    · rfl
  · have hnames : name = "wood" ∨ name = "hide" ∨ name = "note" := by
      revert hname
      simp [fletcher, richFletcher, Tree.lookup, OrderedMap.get?, Section.name, Value.entries]
      tauto
    rcases hnames with rfl | rfl | rfl
    · show ∀ ks, ((Value.text " 6 ").descend ks).ReadsAtMost ((Value.int 7).descend ks)
      exact Value.readsAtMost_descend (by decide +kernel) (by simp [Value.entries])
    · show ∀ ks, ((Value.mapping [("deer", .bool true)]).descend ks).ReadsAtMost
        ((Value.mapping [("deer", .text "3.5"), ("hare", .int 1)]).descend ks)
      refine Value.readsAtMost_descend (by decide +kernel) fun animal hanimal => ?_
      have hanimals : animal = "deer" ∨ animal = "hare" := by simpa [Value.entries] using hanimal
      rcases hanimals with rfl | rfl
      · exact Value.readsAtMost_descend (by decide +kernel)
          (by simp [Value.entries, Tree.lookup, OrderedMap.get?])
      · exact Value.readsAtMost_descend (by decide +kernel)
          (by simp [Value.entries, Tree.lookup, OrderedMap.get?])
    · show ∀ ks, ((Value.text "owed").descend ks).ReadsAtMost ((Value.int (-1)).descend ks)
      exact Value.readsAtMost_descend (by decide +kernel) (by simp [Value.entries])

theorem fletcher_still_crafts :
    fletcher.Richer richFletcher ∧ Gate.isExecutable fletchery "craftBow" fletcher = .ok true ∧
      ∃ executable, Gate.isExecutable fletchery "craftBow" richFletcher = .ok executable ∧
        executable = true := by
  have hexec : Gate.isExecutable fletchery "craftBow" fletcher = .ok true := by decide +kernel
  have hreturns : Gate.isExecutable fletchery "craftBow" richFletcher = .ok true := by decide +kernel
  refine ⟨fletcher_richer, hexec, true, hreturns, ?_⟩
  refine Gate.isExecutable_of_richer fletcher_richer ?_ hexec hreturns
  intro a tier cost ha htier hcost hwhole
  have ha' : fletchery.action? "craftBow" = some (pricedAt "craftBow" bowCost) := by decide +kernel
  cases ha'.symm.trans ha
  cases pure_eq_ok_iff.mp htier
  cases hcost
  exact absurd hwhole (by decide +kernel)

/-- Asks for nothing at least of the section of the resources as a whole. -/
def appraisal : Content := ⟨[("appraise", pricedAt "appraise" [("resources", .int 0)])], [], [], []⟩

def firstWood : Tree := [("resources", .mapping [("wood", .int 5)])]

/-- Without resources the section counts as zero; with the first one it is no number any more. -/
theorem first_wood_ends_appraisal :
    Tree.Richer [] firstWood ∧ Gate.isExecutable appraisal "appraise" [] = .ok true ∧
      Gate.isExecutable appraisal "appraise" firstWood = .ok false := by
  refine ⟨Tree.richer_of_entries (fun k hk => ?_) fun name hname => ?_, by decide +kernel,
    by decide +kernel⟩
  · exact Tree.lookup_insert_of_ne (Ne.symm hk) [] _
  · have hwood : name = "wood" := by
      revert hname
      simp [firstWood, Tree.lookup, OrderedMap.get?, Section.name, Value.entries]
    subst hwood
    show ∀ ks, (Value.null.descend ks).ReadsAtMost ((Value.int 5).descend ks)
    exact Value.readsAtMost_descend (by decide +kernel) (by simp [Value.entries])

end SurvivalRules
