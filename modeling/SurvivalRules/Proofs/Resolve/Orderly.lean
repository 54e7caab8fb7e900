import SurvivalRules.Proofs.Resolve.Modest
import SurvivalRules.Proofs.Resolve.Plain

/-!
# Orderly resolutions

In an orderly state an action of orderly content resolves to a delta whose sections are orderly again. The
entries move every resource by a bounded amount, so that scaling them comes through, and they write levels,
marks and parts of the story where these belong.
-/
namespace SurvivalRules

open Drawing

namespace Tree.Orderly

variable {c : Content} {state : Tree}

theorem resources (h : state.Orderly c) :
    state.HoldsOnly Section.resources.name fun _ v => ∃ n : ℤ, v = .int n :=
  h .resources (by decide)

theorem buildings (h : state.Orderly c) : state.HoldsOnly Section.buildings.name
    fun name v => name ∈ OrderedMap.keys c.buildingActions ∧ v.Within largestDeclared :=
  h .buildings (by decide)

theorem stats (h : state.Orderly c) :
    state.HoldsOnly Section.stats.name fun _ v => v.Within largestDeclared :=
  h .stats (by decide)

theorem cooldowns (h : state.Orderly c) :
    state.HoldsOnly Section.cooldowns.name fun name v => Key.isText name = true ∧ ∃ x, v = .float x :=
  h .cooldowns (by decide)

theorem mark {area : Section} (h : state.Orderly c) (harea : area ∈ Section.marks) :
    state.HoldsOnly area.name fun _ v => ∃ b, v = .bool b :=
  (h area (Section.mem_consulted_of_mem_marks harea)).imp
    fun _ _ he => (Section.takes_of_mem_marks harea).mp he

theorem slot (h : state.Orderly c) (s : Slot) : state.HoldsOnly s.name fun _ v => ∃ b, v = .bool b :=
  h.mark (by cases s <;> decide)

theorem exists_totals (h : state.Orderly c) (hc : c.IsModest) : ∃ t, Totals.ofState c state = .ok t ∧
    t.Within Totals.statBound Totals.bonusBound :=
  Totals.exists_ofState hc (fun s => (h.slot s).distinct) (fun e he => (h.buildings.entries e he).2)
    h.stats.entries

theorem exists_currentLevel (h : state.Orderly c) (p : TieredPlan) :
    ∃ level, p.currentLevel state = .ok level := by
  have hcount : ∃ n : ℤ, Requirement.orZero (Tree.lookup (state.lookup Section.buildings.name).entries
      p.buildingKey) = .int n ∧ n.natAbs ≤ largestDeclared := by
    rcases h.buildings.entry p.buildingKey with hnull | ⟨-, n, hn, hbound⟩
    · exact ⟨0, by rw [hnull]; rfl, Nat.zero_le _⟩
    · exact ⟨n, by rw [hn]; rfl, hbound⟩
  obtain ⟨n, hn, hbound⟩ := hcount
  have hfits := natAbs_le_of_declared hbound
  have hnumber : (Value.int n).toNumber = .ok (Binary64.ofInt n) := Amount.toBinary64_int hfits
  have htruncated := Amount.truncate_float (Binary64.toRat?_ofInt hfits)
  simp only [TieredPlan.currentLevel, h.buildings.section?_eq, hn, hnumber, bind, Except.bind]
  split
  · exact ⟨0, rfl⟩
  · exact ⟨_, htruncated⟩

theorem exists_tier (h : state.Orderly c) (a : Action) : ∃ tier, a.tier state = .ok tier := by
  unfold Action.tier
  split
  · exact ⟨_, rfl⟩
  next p _ =>
    obtain ⟨level, hlevel⟩ := h.exists_currentLevel p
    exact ⟨_, bind_eq_ok_iff.mpr ⟨level, hlevel, rfl⟩⟩

theorem exists_circumstances (h : state.Orderly c) (hc : c.IsModest) (a : Action) :
    ∃ around, Resolution.circumstances c a state = .ok around ∧ around.state = state ∧ around.IsModest := by
  obtain ⟨t, ht, hwithin⟩ := h.exists_totals hc
  obtain ⟨bonus, hbonus, hsize⟩ := hwithin.exists_forAction (by decide) a.id a.category
  obtain ⟨hcrafting, hbuilding⟩ := Totals.isShare_ofState hc.shares ht
  refine ⟨_, bind_eq_ok_iff.mpr ⟨t, ht, bind_eq_ok_iff.mpr ⟨bonus, hbonus, rfl⟩⟩, rfl, hsize, ?_,
    hwithin.stat .luck⟩
  intro r hr
  have hcases : r = .float t.craftingCostReduction ∨ r = .float t.buildingCostReduction := by
    dsimp only at hr
    unfold Action.paymentReduction at hr
    split at hr
    · exact Or.inl (Option.some.inj hr).symm
    · obtain ⟨p, -, hp⟩ := Option.map_eq_some_iff.mp hr
      exact Or.inr hp.symm
  rcases hcases with rfl | rfl
  · exact ⟨_, rfl, hcrafting⟩
  · exact ⟨_, rfl, hbuilding⟩

end Tree.Orderly

/-- A resource has moved by at most `m` from what the state has of it. -/
def Gained (state : Tree) (m : ℕ) (name : String) (v : Value) : Prop :=
  ∃ before n : ℤ, amountBefore state name = .ok (.int before) ∧ v = .int n ∧ (n - before).natAbs ≤ m

section

variable {content : Content} {state delta delta' : Tree} {k : String} {m : ℕ}
  {P : String → Value → Prop}

theorem Gained.mono {n : ℕ} (hmn : m ≤ n) {name : String} {v : Value} (h : Gained state m name v) :
    Gained state n name v := by
  obtain ⟨before, a, hbefore, rfl, hle⟩ := h
  exact ⟨before, a, hbefore, rfl, hle.trans hmn⟩

theorem amountBefore_of_entry (h : state.HoldsOnly Section.resources.name P) {name : String} {v : Value}
    (hv : Tree.lookup (state.lookup Section.resources.name).entries name = v) :
    amountBefore state name = .ok (v.amount?.getD .zero) := by
  simp only [amountBefore, h.section?_eq, bind, Except.bind]
  generalize (state.lookup Section.resources.name).entries = held at hv
  rw [← hv, Tree.lookup]
  cases OrderedMap.get? name held <;> rfl

theorem holdsOnly_gained (h : state.HoldsOnly Section.resources.name fun _ v => ∃ n : ℤ, v = .int n) :
    state.HoldsOnly Section.resources.name (Gained state 0) := by
  refine h.imp fun e he ⟨n, hn⟩ => ⟨n, n, ?_, hn, by simp⟩
  have hlook : Tree.lookup (state.lookup Section.resources.name).entries e.1 = .int n := by
    rw [Tree.lookup, OrderedMap.get?_of_mem h.distinct he, Option.getD_some, hn]
  rw [amountBefore_of_entry h hlook]
  rfl

theorem countsAt_of_gained (h : Delta.Carries delta state Section.resources.name (Gained state m))
    {q : StatePath} {name : String} (hrest : q.rest = [name]) : CountsAt delta state q := by
  intro hhead
  rcases h.current hhead hrest with hnull | ⟨-, n, -, hn, -⟩
  · exact ⟨0, by rw [hnull]; rfl⟩
  · exact ⟨n, by rw [hn]; rfl⟩

/-- A section other than the resources keeps its kind when all constants that fit there are of that kind. -/
theorem Leaves.carries (h : Leaves content state delta delta') (hk : k ≠ Section.resources.name)
    (hd : state.DistinctAt k)
    (hP : ∀ q constant, Constant.Fits content q constant → q.head = k →
      ∃ name, q.rest = [name] ∧ P name constant.value)
    (hcarries : Delta.Carries delta state k P) : Delta.Carries delta' state k P := by
  cases h with
  | nothing => exact hcarries
  | gain hhead _ _ _ => exact hcarries.set_of_head_ne (by rw [hhead]; exact hk.symm) _
  | @constant q constant hne hfits =>
    by_cases hhead : q.head = k
    · obtain ⟨name, hrest, hvalue⟩ := hP q constant hfits hhead
      exact hcarries.set hd hhead hrest hvalue
    · exact hcarries.set_of_head_ne hhead _

theorem Leaves.carries_gained (h : Leaves content state delta delta')
    (hstate : state.HoldsOnly Section.resources.name fun _ v => ∃ n : ℤ, v = .int n)
    (hcarries : Delta.Carries delta state Section.resources.name (Gained state m)) :
    Delta.Carries delta' state Section.resources.name (Gained state (m + maxGain)) := by
  have hwider : Delta.Carries delta state Section.resources.name (Gained state (m + maxGain)) :=
    hcarries.imp fun _ _ he => he.mono (Nat.le_add_right _ _)
  cases h with
  | nothing => exact hwider
  | constant hne _ => exact hwider.set_of_head_ne hne _
  | @gain q name base n hhead hrest hn hbase =>
    refine hwider.set hstate.distinct hhead hrest ?_
    rcases hcarries.current hhead hrest with hnull | ⟨before, held, hbefore, hheld, hle⟩
    · -- a name that is nowhere in the delta is nowhere in the state
      have hnot : Tree.lookup (state.lookup Section.resources.name).entries name = .null := by
        rcases hstate.entry name with hentry | ⟨a, ha⟩
        · exact hentry
        · have hmem : name ∈ OrderedMap.keys (state.lookup Section.resources.name).entries := by
            by_contra hmem
            rw [Tree.lookup_of_not_mem hmem] at ha
            cases ha
          obtain ⟨v, hv⟩ := OrderedMap.exists_get?_of_mem_keys (hcarries.mem_keys hstate.distinct hmem)
          obtain ⟨before, b, -, hb, -⟩ := hcarries.merged.entries (name, v) (OrderedMap.mem_of_get? hv)
          have hget : Delta.current delta state q = v := by
            rw [← Delta.TidyAt.get_merge (hhead ▸ hcarries.tidy), Tree.get_cons hrest, Value.descend_nil,
              hhead, Tree.lookup, hv, Option.getD_some]
          have hbad : v = .int b := hb
          rw [hget, hbad] at hnull
          cases hnull
      rw [hnull] at hbase
      cases hbase
      exact ⟨0, 0 + n, by rw [amountBefore_of_entry hstate hnot]; rfl, rfl, by omega⟩
    · rw [hheld] at hbase
      cases hbase
      exact ⟨before, base + n, hbefore, rfl, by omega⟩

end

section

variable {content : Content} {c : Circumstances} {effects : Tree} {p p' : Progress} {d d' : Draws} {m : ℕ}

/-- All entries together move a resource by at most as many bounded amounts as there are entries. -/
theorem carries_applyEntries (hc : c.IsModest)
    (hstate : c.state.HoldsOnly Section.resources.name fun _ v => ∃ n : ℤ, v = .int n)
    (hfits : ∀ e ∈ effects, content.entryFits e = true)
    (hgained : Delta.Carries p.delta c.state Section.resources.name (Gained c.state m))
    (h : Returns (applyEntries c effects p) d p' d') :
    Delta.Carries p'.delta c.state Section.resources.name
        (Gained c.state (m + effects.length * maxGain)) ∧
      ∀ (k : String) (P : String → Value → Prop), k ≠ Section.resources.name → c.state.DistinctAt k →
        (∀ q constant, Constant.Fits content q constant → q.head = k →
          ∃ name, q.rest = [name] ∧ P name constant.value) →
        Delta.Carries p.delta c.state k P → Delta.Carries p'.delta c.state k P := by
  induction effects generalizing p d m with
  | nil =>
    obtain ⟨rfl, -⟩ := returns_pure_iff.mp h
    exact ⟨by simpa using hgained, fun _ _ _ _ _ hcarries => hcarries⟩
  | cons e rest ih =>
    obtain ⟨hfirst, hothers⟩ := List.forall_mem_cons.mp hfits
    obtain ⟨p₁, d₁, he, hrest⟩ := returns_bind_iff.mp h
    have hleaves := leaves_applyEntry hc hfirst (fun q name hq => countsAt_of_gained hgained hq) he
    obtain ⟨hresources, hsections⟩ := ih hothers (hleaves.carries_gained hstate hgained) hrest
    refine ⟨hresources.imp fun _ _ hv => hv.mono ?_, fun k P hk hd hP hcarries => ?_⟩
    · rw [List.length_cons, Nat.add_mul, Nat.one_mul]
      omega
    · exact hsections k P hk hd hP (hleaves.carries hk hd hP hcarries)

theorem exists_applyEntries (hc : c.IsModest)
    (hstate : c.state.HoldsOnly Section.resources.name fun _ v => ∃ n : ℤ, v = .int n)
    (hfits : ∀ e ∈ effects, content.entryFits e = true)
    (hanswer : ∀ e ∈ effects, ∀ k : Chance, Effect.ofValue e.2 = .ok (.chance k) →
      ∃ answer, k.answer c.state = .ok answer)
    (hgained : Delta.Carries p.delta c.state Section.resources.name (Gained c.state m)) (d : Draws) :
    ∃ p' d', Returns (applyEntries c effects p) d p' d' := by
  induction effects generalizing p d m with
  | nil => exact ⟨p, d, returns_pure_iff.mpr ⟨rfl, rfl⟩⟩
  | cons e rest ih =>
    obtain ⟨hfirst, hothers⟩ := List.forall_mem_cons.mp hfits
    obtain ⟨hans, hanswers⟩ := List.forall_mem_cons.mp hanswer
    have hcounts : ∀ q name, q.rest = [name] → CountsAt p.delta c.state q :=
      fun q name hq => countsAt_of_gained hgained hq
    obtain ⟨p₁, d₁, he⟩ := exists_applyEntry hc hfirst hcounts hans d
    have hleaves := leaves_applyEntry hc hfirst hcounts he
    obtain ⟨p', d', hrest⟩ := ih hothers hanswers (hleaves.carries_gained hstate hgained) d₁
    exact ⟨p', d', returns_bind_iff.mpr ⟨p₁, d₁, he, hrest⟩⟩

end

section

variable {state : Tree} {multiplier : Binary64} {j : ℕ} {name : String} {new gain before : ℤ}

/-- What a multiplier of bounded size adds to a gain is bounded in turn. -/
theorem exists_multiplierExtra (hmultiplier : multiplier.Below j) (hj : j + 32 ≤ safeExponent)
    (hgain : gain.natAbs ≤ 2 ^ 30) :
    ∃ extra : ℤ, multiplierExtra multiplier (.int gain) = .ok extra ∧ extra.natAbs ≤ 2 ^ (j + 31) := by
  have hone : Binary64.one.Below j := (by decide +kernel : Binary64.one.Below 0).mono (Nat.zero_le j)
  have hfactor : (multiplier.sub Binary64.one).Below (j + 1) := hmultiplier.sub hone (by omega)
  obtain ⟨y, hy, hbelow⟩ := Amount.exists_mul_float hgain (by decide) hfactor (by omega)
  obtain ⟨extra, hextra, hle⟩ := Amount.exists_floor hbelow
  refine ⟨extra, bind_eq_ok_iff.mpr ⟨_, hy, hextra⟩, hle.trans (Nat.pow_le_pow_right (by decide) ?_)⟩
  omega

theorem exists_multiplyGain (name : String) (new : ℤ) (hmultiplier : multiplier.Below j) (hj : j + 32 ≤ safeExponent)
    (hgain : gain.natAbs ≤ 2 ^ 30) (t : Trace) :
    ∃ (extra : ℤ) (t' : Trace),
      multiplyGain multiplier name (.int new) (.int gain) t = .ok (.int (new + extra), t') ∧
        extra.natAbs ≤ 2 ^ (j + 31) := by
  have hsame : ∃ (extra : ℤ) (t' : Trace),
      (pure (Amount.int new, t) : Except Fault (Amount × Trace)) = .ok (.int (new + extra), t') ∧
        extra.natAbs ≤ 2 ^ (j + 31) :=
    ⟨0, t, by rw [add_zero]; rfl, Nat.zero_le _⟩
  obtain ⟨extra, hextra, hle⟩ := exists_multiplierExtra hmultiplier hj hgain
  have hwritten := Amount.written_of_le_two_pow hle (by omega)
  unfold multiplyGain
  split
  · exact hsame
  · simp only [hextra, bind, Except.bind]
    split
    · exact hsame
    · simp only [Amount.add_int, hwritten]
      exact ⟨extra, _, rfl, hle⟩

theorem exists_amplifyGain (name : String) (hj : j + 36 ≤ safeExponent) (hgain : (new - before).natAbs ≤ 2 ^ (j + 32))
    (t : Trace) :
    ∃ (scaled : ℤ) (t' : Trace), amplifyGain name (.int before) (.int new) t = .ok (.int scaled, t') := by
  have hdifference : before + (new - before) * amplifyFactor - before = (new - before) * 10 := by
    rw [amplifyFactor]
    ring
  have hbound : (before + (new - before) * amplifyFactor - before).natAbs ≤ 2 ^ (j + 36) := by
    have hpow : 2 ^ (j + 36) = 2 ^ (j + 32) * 16 := by ring
    rw [hdifference]
    omega
  have hwritten := Amount.written_of_le_two_pow hbound hj
  simp only [amplifyGain, Amount.sub_int, Amount.mul_int, Amount.add_int, hwritten, bind, Except.bind]
  exact ⟨_, _, rfl⟩

/-- Scaling comes through for resources that have moved by a bounded amount, and leaves whole numbers. -/
theorem exists_rescaled {v : Value} {m : ℕ} (hmultiplier : multiplier.Below j) (hj : j + 36 ≤ safeExponent)
    (hm : m ≤ 2 ^ 30) (hv : Gained state m name v) (amplify : Bool) :
    ∃ scaled : ℤ, rescaled state multiplier amplify name v = .ok (.int scaled) := by
  obtain ⟨before, new, hbefore, rfl, hle⟩ := hv
  have hgain := hle.trans hm
  obtain ⟨extra, t₁, hmore, hextra⟩ := exists_multiplyGain name new hmultiplier
    (by omega) hgain (Trace.empty "Effects")
  have hnew : (new + extra - before).natAbs ≤ 2 ^ (j + 32) := by
    have hpow : 2 ^ (j + 32) = 2 ^ (j + 31) + 2 ^ (j + 31) := by ring
    have hsmall : 2 ^ 30 ≤ 2 ^ (j + 31) := Nat.pow_le_pow_right (by decide) (by omega)
    omega
  obtain ⟨scaled, t₂, hamplified⟩ := exists_amplifyGain name hj hnew t₁
  have hscale : ∃ (scaled : ℤ) (t' : Trace),
      scaleGain state multiplier amplify name (.int new) (Trace.empty "Effects") = .ok (.int scaled, t') := by
    simp only [scaleGain, hbefore, Amount.sub_int, bind, Except.bind]
    split
    · exact ⟨new, _, rfl⟩
    · simp only [hmore]
      split
      · exact ⟨scaled, t₂, hamplified⟩
      · exact ⟨new + extra, t₁, rfl⟩
  obtain ⟨scaled, t', hscaled⟩ := hscale
  exact ⟨scaled, (rescaled_eq_ok_iff rfl _).mpr ⟨.int scaled, t', hscaled, rfl⟩⟩

variable {p p' : Progress} {m : ℕ} {amplify : Bool}

theorem carries_scaleGains (hmultiplier : multiplier.Below j) (hj : j + 36 ≤ safeExponent) (hm : m ≤ 2 ^ 30)
    (hgained : Delta.Carries p.delta state Section.resources.name (Gained state m))
    (h : scaleGains state multiplier amplify p = .ok p') :
    Delta.Carries p'.delta state Section.resources.name (fun _ v => ∃ n : ℤ, v = .int n) ∧
      ∀ (k : String) (P : String → Value → Prop), k ≠ Section.resources.name →
        Delta.Carries p.delta state k P → Delta.Carries p'.delta state k P := by
  obtain ⟨hdelta, -⟩ := delta_scaleGains h
  cases hlook : p.delta.lookup Section.resources.name with
  | mapping es =>
    rw [Tree.mapResources_of_mapping hlook] at hdelta
    rw [hdelta]
    have hkeys : OrderedMap.keys (es.map fun e => (e.1, rescale state multiplier amplify e.1 e.2)) =
        OrderedMap.keys es := by
      simp [OrderedMap.keys]
    obtain ⟨hnodup, hprefix⟩ := hgained.tidy.section_spec es hlook
    refine ⟨hgained.insert (fun _ => ⟨_, rfl, hkeys ▸ hnodup, hkeys ▸ hprefix, ?_⟩)
      fun hne => absurd rfl hne, fun k P hk hcarries => ?_⟩
    · intro e he
      obtain ⟨f, hf, rfl⟩ := List.mem_map.mp he
      have hmoved := hgained.entries_delta f (by rw [hlook]; exact hf)
      obtain ⟨scaled, hscaled⟩ := exists_rescaled hmultiplier hj hm hmoved amplify
      exact ⟨scaled, rescale_of_ok hscaled⟩
    · exact hcarries.insert (fun he => absurd he hk.symm) fun _ _ _ he => he
  | _ =>
    rw [Tree.mapResources_of_not_mapping (by simp [hlook])] at hdelta
    rw [hdelta]
    refine ⟨hgained.imp ?_, fun _ _ _ hcarries => hcarries⟩
    rintro name v ⟨before, n, hbefore, hn, hmoved⟩
    exact ⟨n, hn⟩

theorem exists_scaleGains_of_gained (amplify : Bool) (hmultiplier : multiplier.Below j) (hj : j + 36 ≤ safeExponent)
    (hm : m ≤ 2 ^ 30) (hgained : Delta.Carries p.delta state Section.resources.name (Gained state m)) :
    ∃ p', scaleGains state multiplier amplify p = .ok p' := by
  refine exists_scaleGains fun e he => ?_
  obtain ⟨scaled, hscaled⟩ := exists_rescaled hmultiplier hj hm (hgained.entries_delta e he) amplify
  exact ⟨_, hscaled⟩

end

section

variable {c : Content} {id : String} {state : Tree} {amplify : Bool} {d d' : Draws} {r : Resolution}

theorem exists_answer {k : Chance} (h : ∀ text, k.condition = some text →
    ∀ condition, Condition.read text = .ok condition → ∃ b, condition.holds state = .ok b) :
    ∃ answer, k.answer state = .ok answer := by
  unfold Chance.answer
  split
  · exact ⟨_, rfl⟩
  next text htext =>
    obtain ⟨hsome, -⟩ := Option.filter_eq_some_iff.mp htext
    split
    · exact ⟨_, rfl⟩
    next condition hread =>
      obtain ⟨b, hb⟩ := h text hsome condition hread
      exact ⟨_, by rw [hb]; rfl⟩

theorem action_mem_values {a : Action} (ha : c.action? id = some a) : a ∈ OrderedMap.values c.actions :=
  List.mem_map_of_mem (OrderedMap.mem_of_get? ha)

/-- A resource is moved by all entries together by no more than scaling can bear. -/
theorem length_mul_maxGain_le (hc : c.Orderly) {a : Action} (ha : a ∈ OrderedMap.values c.actions)
    {block : Tree} (hblock : block ∈ Content.effectBlocks a) : 0 + block.length * maxGain ≤ 2 ^ 30 := by
  have hshort := hc.short a ha block hblock
  unfold maxGain
  omega

/-- The sections of the delta hold what those of the state hold. -/
theorem carries_resolve (hc : c.Orderly) (hstate : state.Orderly c)
    (h : Returns (resolve c id state amplify) d r d') :
    Delta.Carries r.delta state Section.resources.name (fun _ v => ∃ n : ℤ, v = .int n) ∧
      ∀ (k : String) (P : String → Value → Prop), k ≠ Section.resources.name → state.HoldsOnly k P →
        (∀ q constant, Constant.Fits c q constant → q.head = k →
          ∃ name, q.rest = [name] ∧ P name constant.value) → Delta.Carries r.delta state k P := by
  have hnil : r.delta = [] →
      Delta.Carries r.delta state Section.resources.name (fun _ v => ∃ n : ℤ, v = .int n) ∧
      ∀ (k : String) (P : String → Value → Prop), k ≠ Section.resources.name → state.HoldsOnly k P →
        (∀ q constant, Constant.Fits c q constant → q.head = k →
          ∃ name, q.rest = [name] ∧ P name constant.value) → Delta.Carries r.delta state k P := by
    intro hr
    rw [hr]
    exact ⟨Delta.carries_nil hstate.resources, fun k P _ hP _ => Delta.carries_nil hP⟩
  cases ha : c.action? id with
  | none =>
    simp only [resolve, ha] at h
    obtain ⟨rfl, -⟩ := returns_pure_iff.mp h
    exact hnil rfl
  | some a =>
    obtain ⟨tier, htier, ⟨-, hr⟩ | ⟨effects, heffects, hr⟩⟩ := Resolution.exists_tier_of_returns ha h
    · exact hnil hr
    obtain ⟨around, p, p', haround, hp, hp', rfl⟩ := Resolution.returns_ofEffects_iff.mp hr
    obtain ⟨around', haround', rfl, hmodest⟩ := hstate.exists_circumstances hc.modest a
    cases haround.symm.trans haround'
    have hmem := action_mem_values ha
    have hblock := effects_mem_effectBlocks htier heffects
    obtain ⟨hgained, hsections⟩ := carries_applyEntries hmodest hstate.resources
      (hc.effects a hmem effects hblock) (Delta.carries_nil (holdsOnly_gained hstate.resources)) hp
    obtain ⟨hints, hothers⟩ := carries_scaleGains hmodest.bonus.multiplier (by decide)
      (length_mul_maxGain_le hc hmem hblock) hgained hp'
    refine ⟨hints, fun k P hk hP hfits => hothers k P hk ?_⟩
    exact hsections k P hk hP.distinct hfits (Delta.carries_nil hP)

/-- An action resolves when every condition of the content can be answered. -/
theorem exists_resolve (hc : c.Orderly) (hstate : state.Orderly c)
    (hanswers : ∀ text ∈ c.conditionTexts, ∀ condition, Condition.read text = .ok condition →
      ∃ b, condition.holds state = .ok b) (id : String) (amplify : Bool) (d : Draws) :
    ∃ r d', Returns (resolve c id state amplify) d r d' := by
  cases ha : c.action? id with
  | none =>
    unfold resolve
    rw [ha]
    exact ⟨_, d, returns_pure_iff.mpr ⟨rfl, rfl⟩⟩
  | some a =>
    have hmem := action_mem_values ha
    obtain ⟨tier, htier⟩ := hstate.exists_tier a
    cases heffects : tier.effects with
    | none =>
      unfold resolve
      rw [ha]
      refine ⟨.nothing (s!"{id}: no effects defined for level " ++ Gate.levelText tier.level), d,
        returns_bind_iff.mpr ⟨tier, d, returns_lift_iff.mpr ⟨htier, rfl⟩, ?_⟩⟩
      rw [heffects]
      exact returns_pure_iff.mpr ⟨rfl, rfl⟩
    | some effects =>
      have hblock := effects_mem_effectBlocks htier heffects
      have hfits := hc.effects a hmem effects hblock
      obtain ⟨around, haround, rfl, hmodest⟩ := hstate.exists_circumstances hc.modest a
      have hstart := Delta.carries_nil (holdsOnly_gained hstate.resources)
      have hanswer : ∀ e ∈ effects, ∀ k : Chance, Effect.ofValue e.2 = .ok (.chance k) →
          ∃ answer, k.answer around.state = .ok answer := by
        intro e he k hk
        refine exists_answer fun text htext => hanswers text (List.mem_flatMap.mpr ⟨a, hmem, ?_⟩)
        exact List.mem_filterMap.mpr ⟨e, List.mem_flatten.mpr ⟨effects, hblock, he⟩, by rw [hk]; exact htext⟩
      obtain ⟨p, d', hp⟩ := exists_applyEntries (p := Progress.start) hmodest hstate.resources hfits hanswer
        hstart d
      obtain ⟨hgained, -⟩ := carries_applyEntries hmodest hstate.resources hfits hstart hp
      obtain ⟨p', hp'⟩ := exists_scaleGains_of_gained amplify hmodest.bonus.multiplier (by decide)
        (length_mul_maxGain_le hc hmem hblock) hgained
      exact ⟨_, d', (Resolution.returns_resolve_iff ha htier heffects).mpr
        (Resolution.returns_ofEffects_iff.mpr ⟨around, p, p', haround, hp, hp', rfl⟩)⟩

end

end SurvivalRules
