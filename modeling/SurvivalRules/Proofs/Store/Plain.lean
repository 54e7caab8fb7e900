import SurvivalRules.Proofs.Resolve.Plain
import SurvivalRules.Proofs.Store.Cooldown
import SurvivalRules.Proofs.Store.Debt

/-!
# Dispatching plain actions

A plain action that is done writes the values at which its entries settle and the records of the store, and
nothing else: although sections are copied, scaled and clamped as wholes, its next state is the one that
these writes give directly.
-/
namespace SurvivalRules

open Drawing

/-- The action `id` is flat, and its effects and costs are directly below the resources or the flags. -/
structure Content.IsPlain (c : Content) (id : String) (p : FlatPlan) : Prop where
  isName : StatePath.IsName id
  action : ∃ a, c.action? id = some a ∧ a.plan = .flat p
  effects : p.effects.IsPlain
  cost : ∀ raw ∈ OrderedMap.keys p.cost, ∀ q, StatePath.parse raw = .ok q →
    q.head = Section.resources.name ∨ q.head = Section.flags.name

/-- The value at which a plain entry settles: added up, scaled and clamped. -/
def settled (c : Circumstances) (amplify : Bool) (q : StatePath) (v : Value) : Except Fault Value := do
  let total ← addedUp c q v
  match q.resource? with
  | some name =>
    return Store.clampAmount (← rescaled c.state c.bonus.resourceMultiplier amplify name total)
  | none => return total

/-- The writes at which plain effects settle. -/
def Settles (c : Circumstances) (amplify : Bool) (effects : Tree) (writes : List (StatePath × Value)) :
    Prop :=
  List.Forall₂ (fun e w => PlainEntry e.1 e.2 w.1 ∧ settled c amplify w.1 e.2 = .ok w.2) effects writes

/-- What scaling and clamping make of the value of a resource. -/
def settle (c : Circumstances) (amplify : Bool) (name : String) (v : Value) : Value :=
  Store.clampAmount (rescale c.state c.bonus.resourceMultiplier amplify name v)

section

variable {c : Circumstances} {amplify : Bool} {effects : Tree} {writes : List (StatePath × Value)}

theorem Adds.exists_entry (h : Adds c effects writes) {w : StatePath × Value} (hw : w ∈ writes) :
    ∃ e ∈ effects, PlainEntry e.1 e.2 w.1 ∧ addedUp c w.1 e.2 = .ok w.2 :=
  exists_of_mem_forall₂ h hw

theorem Settles.exists_entry (h : Settles c amplify effects writes) {w : StatePath × Value}
    (hw : w ∈ writes) :
    ∃ e ∈ effects, PlainEntry e.1 e.2 w.1 ∧ settled c amplify w.1 e.2 = .ok w.2 :=
  exists_of_mem_forall₂ h hw

theorem Adds.rest_ne_nil (h : Adds c effects writes) : ∀ w ∈ writes, w.1.rest ≠ [] := by
  intro w hw
  obtain ⟨e, -, hplain, -⟩ := h.exists_entry hw
  exact hplain.rest_ne_nil

theorem Adds.direct (h : Adds c effects writes) :
    ∀ w ∈ writes, w.1.head = Section.resources.name → ∃ name, w.1.rest = [name] := by
  intro w hw _
  obtain ⟨e, -, hplain, -⟩ := h.exists_entry hw
  exact hplain.rest

/-- Effects write each place once. -/
theorem Adds.pairwise (h : Adds c effects writes) (hnodup : (OrderedMap.keys effects).Nodup) :
    writes.Pairwise fun w w' => ¬ w'.1.Comparable w.1 := by
  induction h with
  | nil => exact .nil
  | cons hfirst hrest ih =>
    simp only [OrderedMap.keys_cons, List.nodup_cons] at hnodup
    refine List.pairwise_cons.mpr ⟨fun w hw => ?_, ih hnodup.2⟩
    obtain ⟨e, he, hplain, -⟩ := Adds.exists_entry hrest hw
    refine hplain.not_comparable hfirst.1 fun heq => hnodup.1 ?_
    exact heq ▸ List.mem_map_of_mem he

theorem addedUp_ne_null {q : StatePath} {v w : Value} (hv : (∃ n, v = .int n) ∨ ∃ b, v = .bool b)
    (h : addedUp c q v = .ok w) : w ≠ .null := by
  rcases hv with ⟨n, rfl⟩ | ⟨b, rfl⟩
  · unfold addedUp at h
    simp only [Value.amount?] at h
    split at h
    · obtain ⟨paid, -, h⟩ := bind_eq_ok_iff.mp h
      obtain ⟨total, -, h⟩ := bind_eq_ok_iff.mp h
      cases pure_eq_ok_iff.mp h
      cases total <;> simp [Value.ofAmount]
    · cases h
      simp
  · cases h
    simp

/-- What is found among the resources after writes is one of them, or was there before. -/
theorem mem_resources_setAll {t : Tree} {e : String × Value}
    (hw : ∀ w ∈ writes, w.1.head = Section.resources.name → ∃ name, w.1.rest = [name])
    (he : e ∈ ((t.setAll writes).lookup Section.resources.name).entries) :
    e ∈ (t.lookup Section.resources.name).entries ∨
      ∃ w ∈ writes, w.1.resource? = some e.1 ∧ w.2 = e.2 := by
  induction writes generalizing t with
  | nil => exact Or.inl he
  | cons w rest ih =>
    obtain ⟨hfirst, hrest⟩ := List.forall_mem_cons.mp hw
    rcases ih hrest he with hnow | ⟨w', hw', hfound⟩
    · by_cases hhead : w.1.head = Section.resources.name
      · obtain ⟨name, hname⟩ := hfirst hhead
        have hlook : (t.set w.1 w.2).lookup Section.resources.name =
            .mapping (OrderedMap.insert name w.2 (t.lookup Section.resources.name).entries) := by
          rw [Tree.set, StatePath.keys, hname, hhead]
          exact Tree.lookup_insert_self _ _ _
        rw [hlook] at hnow
        rcases OrderedMap.mem_insert hnow with rfl | hbefore
        · exact Or.inr ⟨w, List.mem_cons_self, StatePath.resource?_eq_some_iff.mpr ⟨hhead, hname⟩, rfl⟩
        · exact Or.inl hbefore
      · rw [Tree.lookup_set_of_head_ne hhead] at hnow
        exact Or.inl hnow
    · exact Or.inr ⟨w', List.mem_cons_of_mem w hw', hfound⟩

/-- What was added up settles once it is scaled and clamped. -/
theorem Adds.settles (h : Adds c effects writes)
    (hscaled : ∀ w ∈ writes, ∀ name, w.1.resource? = some name →
      ∃ v, rescaled c.state c.bonus.resourceMultiplier amplify name w.2 = .ok v) :
    Settles c amplify effects (writes.map (mapWrite (settle c amplify))) := by
  refine List.forall₂_map_right_iff.mpr ?_
  induction h with
  | nil => exact .nil
  | cons hfirst _ ih =>
    obtain ⟨hnow, hlater⟩ := List.forall_mem_cons.mp hscaled
    refine .cons ?_ (ih hlater)
    obtain ⟨hplain, hadded⟩ := hfirst
    unfold mapWrite settled
    split
    next name hname =>
      obtain ⟨v, hv⟩ := hnow name hname
      refine ⟨hplain, ?_⟩
      rw [hadded]
      simp only [hname, hv, bind, Except.bind, pure, Except.pure, settle, rescale_of_ok hv]
    next hnone =>
      refine ⟨hplain, ?_⟩
      rw [hadded]
      simp only [hnone, bind, Except.bind, pure, Except.pure]

/-- Effects that settle have been added up and can be scaled. -/
theorem Settles.exists_adds (h : Settles c amplify effects writes) :
    ∃ totals, Adds c effects totals ∧ ∀ w ∈ totals, ∀ name, w.1.resource? = some name →
      ∃ v, rescaled c.state c.bonus.resourceMultiplier amplify name w.2 = .ok v := by
  induction h with
  | nil => exact ⟨[], .nil, by simp⟩
  | @cons e w effects writes hfirst _ ih =>
    obtain ⟨totals, hadds, hscaled⟩ := ih
    obtain ⟨hplain, hsettled⟩ := hfirst
    obtain ⟨total, htotal, hlast⟩ := bind_eq_ok_iff.mp hsettled
    refine ⟨(w.1, total) :: totals, .cons ⟨hplain, htotal⟩ hadds, List.forall_mem_cons.mpr ⟨?_, hscaled⟩⟩
    intro name hname
    simp only [hname] at hlast
    obtain ⟨v, hv, -⟩ := bind_eq_ok_iff.mp hlast
    exact ⟨v, hv⟩

/-- Effects settle in one way. -/
theorem Settles.unique {writes' : List (StatePath × Value)} (h : Settles c amplify effects writes)
    (h' : Settles c amplify effects writes') : writes = writes' := by
  refine Relator.RightUnique.forall₂ ?_ h h'
  rintro e ⟨q, v⟩ ⟨q', v'⟩ ⟨hplain, hv⟩ ⟨hplain', hv'⟩
  cases hplain.parses.symm.trans hplain'.parses
  cases hv.symm.trans hv'
  rfl

end

namespace Delta.Covers

variable {delta state : Tree} {f : String → Value → Value}

/-- A rule that keeps the resources of the state can be applied before or after a delta is merged. -/
theorem merge_mapResources (h : Covers delta state)
    (hfixed : ∀ e ∈ (state.lookup Section.resources.name).entries, f e.1 e.2 = e.2) :
    Covers (Tree.mapResources f delta) state ∧
      merge state (Tree.mapResources f delta) = (merge state delta).mapResources f := by
  by_cases hmem : Section.resources.name ∈ OrderedMap.keys delta
  · obtain ⟨held, hheld⟩ := h.exists_entries _ hmem
    have hkeys : OrderedMap.keys (held.map fun e => (e.1, f e.1 e.2)) = OrderedMap.keys held := by
      simp [OrderedMap.keys]
    have hspec : ∀ es, Value.mapping (held.map fun e => (e.1, f e.1 e.2)) = .mapping es →
        (OrderedMap.keys es).Nodup ∧
          OrderedMap.keys (state.lookup Section.resources.name).entries <+: OrderedMap.keys es := by
      rintro es he
      cases he
      rw [hkeys]
      exact h.section_spec _ _ hheld
    have hmerged : (merge state delta).lookup Section.resources.name = .mapping held := by
      rw [h.lookup_merge, if_pos hmem, hheld]
    rw [Tree.mapResources_of_mapping hheld, Tree.mapResources_of_mapping hmerged,
      merge_insert h.nodup, mergeSection_eq hspec]
    refine ⟨⟨tidy_iff.mpr fun k => (h.tidyAt k).insert fun hk => hk ▸ hspec, fun k hk => ?_⟩, rfl⟩
    rw [Tree.lookup_insert]
    split
    · exact ⟨_, rfl⟩
    next hne =>
      exact h.exists_entries k ((OrderedMap.mem_keys_insert.mp hk).resolve_left fun he => hne he.symm)
  · have hnot : ∀ held, delta.lookup Section.resources.name ≠ .mapping held := by
      simp [Tree.lookup_of_not_mem hmem]
    have hmerged : (merge state delta).lookup Section.resources.name =
        state.lookup Section.resources.name := by
      rw [h.lookup_merge, if_neg hmem]
    rw [Tree.mapResources_of_not_mapping hnot, Tree.mapResources_of_fixed (hmerged ▸ hfixed)]
    exact ⟨h, rfl⟩

end Delta.Covers

namespace StatePath

/-- The upper case of a path character is made of path characters. -/
theorem all_upperChar {c : Char} (h : isPathChar c = true) : (Text.upperChar c).all isPathChar = true :=
  @forall_isPathChar (fun c => (Text.upperChar c).all isPathChar = true) (by decide +kernel) c h

theorem isName_seenKey {id : String} (h : IsName id) : IsName (seenKey id) := by
  obtain ⟨body, hne, hall, hid⟩ := isSegment_iff.mp h
  obtain ⟨c, rest, rfl⟩ := List.exists_cons_of_ne_nil hne
  simp only [List.all_cons, Bool.and_eq_true] at hall
  have hkey : ∀ tail, id.toList = c :: tail →
      (seenKey id).toList = "action".toList ++ Text.upperChar c ++ tail := by
    intro tail htail
    simp [seenKey, Text.capitalizeFirst, htail]
  have hbody : ("action".toList ++ Text.upperChar c ++ rest).all isPathChar = true := by
    rw [List.all_append, List.all_append, all_upperChar hall.1, hall.2]
    decide
  refine isSegment_iff.mpr ⟨"action".toList ++ Text.upperChar c ++ rest, by simp, hbody, ?_⟩
  rcases hid with hid | hid
  · exact Or.inl (hkey rest hid)
  · exact Or.inr (by rw [hkey (rest ++ ['\n']) (by simpa using hid)]; simp)

theorem parse_seen {key : String} (h : IsName key) :
    parse ("story.seen." ++ key) = .ok ⟨"story.seen." ++ key, "story", ["seen", key]⟩ := by
  have hraw : "story.seen." ++ key = "story" ++ "." ++ ("seen" ++ "." ++ key) := by
    rw [← String.append_assoc, ← String.append_assoc]
    rfl
  have hsegments : segments ("story.seen." ++ key) = ["story".toList, "seen".toList, key.toList] := by
    rw [hraw, segments_append (by decide), segments_append (by decide), segments_of_isName h]
  refine parse_eq_ok_iff.mpr ⟨rfl, by simp [keys, hsegments], ?_⟩
  rw [hsegments]
  simp only [List.forall_mem_cons, List.not_mem_nil, false_implies, implies_true, and_true]
  exact ⟨by decide, by decide, h⟩

end StatePath

namespace Store

variable {s s' : Store} {id : String} {p : FlatPlan} {cooldown : Binary64} {state delta : Tree}

/-- The bookkeeping of an action whose id is a name, as writes. -/
def recordWrites (id : String) (cooldown : Binary64) : List (StatePath × Value) :=
  (⟨"story.seen." ++ seenKey id, "story", ["seen", seenKey id]⟩, .bool true) ::
    if Amount.zero.lt (.float cooldown) then
      [(⟨"cooldowns." ++ id, "cooldowns", [id]⟩, .float cooldown),
        (⟨"cooldownDurations." ++ id, "cooldownDurations", [id]⟩, .float cooldown)]
    else []

theorem recordAll_bookkeeping (h : StatePath.IsName id) :
    recordAll state delta (bookkeeping id cooldown) =
      .ok (Delta.setAll delta state (recordWrites id cooldown)) := by
  have hseen := StatePath.parse_seen (StatePath.isName_seenKey h)
  have htimer := StatePath.parse_append_of_isName (show StatePath.IsName "cooldowns" by decide) h
  have hlength := StatePath.parse_append_of_isName (show StatePath.IsName "cooldownDurations" by decide) h
  rw [show "cooldowns" ++ "." ++ id = "cooldowns." ++ id from rfl] at htimer
  rw [show "cooldownDurations" ++ "." ++ id = "cooldownDurations." ++ id from rfl] at hlength
  unfold bookkeeping recordWrites
  split
  · simp only [recordAll, record, hseen, htimer, hlength, bind, Except.bind]
    rfl
  · simp only [recordAll, record, hseen, bind, Except.bind]
    rfl

theorem recordWrites_spec {w : StatePath × Value} (hw : w ∈ recordWrites id cooldown) :
    w = (⟨"story.seen." ++ seenKey id, "story", ["seen", seenKey id]⟩, .bool true) ∨
      w = (⟨"cooldowns." ++ id, "cooldowns", [id]⟩, .float cooldown) ∨
      w = (⟨"cooldownDurations." ++ id, "cooldownDurations", [id]⟩, .float cooldown) := by
  unfold recordWrites at hw
  split at hw
  · simpa using hw
  · exact Or.inl (by simpa using hw)

theorem head_recordWrites {w : StatePath × Value} (hw : w ∈ recordWrites id cooldown) :
    w.1.head ≠ Section.resources.name ∧ w.1.head ≠ Section.flags.name := by
  rcases recordWrites_spec hw with rfl | rfl | rfl <;> simp [Section.name]

theorem rest_recordWrites {w : StatePath × Value} (hw : w ∈ recordWrites id cooldown) :
    w.1.rest ≠ [] := by
  rcases recordWrites_spec hw with rfl | rfl | rfl <;> simp

theorem map_mapWrite_recordWrites (f : String → Value → Value) :
    (recordWrites id cooldown).map (mapWrite f) = recordWrites id cooldown := by
  refine (List.map_congr_left fun w hw => ?_).trans (List.map_id _)
  rw [mapWrite, StatePath.resource?_eq_none (head_recordWrites hw).1, id_eq]

theorem clampResources_eq_mapResources (t : Tree) :
    clampResources t = t.mapResources fun _ => clampAmount := rfl

/-- A value that is no debt is kept by the clamp. -/
theorem clampAmount_of_natural {v : Value} (h : ∀ a, v.amount? = some a → ∃ n : ℕ, a = .int n) :
    clampAmount v = v := by
  rcases clampAmount_spec v with ⟨⟨a, ha, hlt⟩, -⟩ | ⟨-, he⟩
  · obtain ⟨n, rfl⟩ := h a ha
    rw [Amount.zero, Amount.lt_int_iff] at hlt
    omega
  · exact he

theorem tier_of_flat {a : Action} (h : a.plan = .flat p) (state : Tree) :
    a.tier state = .ok ⟨none, p.showWhen, some p.cost, some p.effects, p.cooldown⟩ := by
  rw [Action.tier, h]
  rfl

/-- A resource that was written is among the resources of the delta. -/
theorem mem_resources_of_write {around : Circumstances} {effects : Tree}
    {totals : List (StatePath × Value)} (hadds : Adds around effects totals)
    (hnodup : (OrderedMap.keys effects).Nodup) {w : StatePath × Value} (hw : w ∈ totals) {name : String}
    (hname : w.1.resource? = some name) :
    (name, w.2) ∈ ((Delta.setAll [] state totals).lookup Section.resources.name).entries := by
  obtain ⟨hhead, hrest⟩ := StatePath.resource?_eq_some_iff.mp hname
  have hholds : Delta.Holds (Delta.setAll [] state totals) state w.1 w.2 :=
    Delta.holds_setAll hadds.rest_ne_nil (hadds.pairwise hnodup) hw
  have hcurrent := hholds.current_eq
  rw [Delta.current_of_mem (Delta.head_mem_keys_setAll hw), Tree.get_cons hrest, hhead,
    Value.descend_nil] at hcurrent
  obtain ⟨e, -, hplain, hadded⟩ := hadds.exists_entry hw
  have hnull := addedUp_ne_null hplain.constant hadded
  unfold Tree.lookup at hcurrent
  cases hget : OrderedMap.get? name
      ((Delta.setAll [] state totals).lookup Section.resources.name).entries with
  | none =>
    rw [Tree.lookup] at hget
    rw [hget] at hcurrent
    exact absurd hcurrent.symm hnull
  | some v =>
    have hmem := OrderedMap.mem_of_get? hget
    rw [Tree.lookup] at hget
    rw [hget, Option.getD_some] at hcurrent
    exact hcurrent ▸ hmem

/-- Writes below the resources that are collected, scaled by a rule, recorded, merged and clamped are the
writes of the scaled and clamped values, if the rule and the clamp keep the resources that are there. -/
theorem committed_eq_setAll {f : String → Value → Value} {totals : List (StatePath × Value)}
    (hd : state.Distinct) (hnat : state.NaturalResources) (hrest : ∀ w ∈ totals, w.1.rest ≠ [])
    (hdirect : ∀ w ∈ totals, w.1.head = Section.resources.name → ∃ name, w.1.rest = [name])
    (hfixed : ∀ e ∈ (state.lookup Section.resources.name).entries, f e.1 e.2 = e.2) :
    committed state (Delta.setAll (Tree.mapResources f (Delta.setAll [] state totals)) state
        (recordWrites id cooldown)) =
      state.setAll (totals.map (mapWrite fun name v => clampAmount (f name v)) ++
        recordWrites id cooldown) := by
  obtain ⟨hcovers, htotals⟩ := (Delta.covers_nil state).extend hd hrest
  obtain ⟨hcovers', hmerged⟩ := hcovers.merge_mapResources hfixed
  obtain ⟨-, hrecorded⟩ := hcovers'.extend hd fun w (hw : w ∈ recordWrites id cooldown) =>
    rest_recordWrites hw
  have hwrites : ∀ w ∈ totals.map (mapWrite f) ++ recordWrites id cooldown,
      w.1.head = Section.resources.name → ∃ name, w.1.rest = [name] := by
    intro w hw hhead
    rcases List.mem_append.mp hw with hmapped | hlater
    · obtain ⟨w₀, hw₀, rfl⟩ := List.mem_map.mp hmapped
      rw [mapWrite_fst] at hhead ⊢
      exact hdirect w₀ hw₀ hhead
    · exact absurd hhead (head_recordWrites hlater).1
  have hclamped : ∀ e ∈ (state.lookup Section.resources.name).entries, clampAmount e.2 = e.2 :=
    fun e he => clampAmount_of_natural (hnat e he)
  calc
    committed state _ = clampResources ((state.setAll totals).mapResources f |>.setAll
        (recordWrites id cooldown)) := by
      rw [committed, hrecorded, hmerged, htotals, Delta.merge_nil]
    _ = clampResources (state.setAll (totals.map (mapWrite f) ++ recordWrites id cooldown)) := by
      rw [Tree.mapResources_setAll hdirect, Tree.mapResources_of_fixed hfixed, Tree.setAll_setAll]
    _ = state.setAll ((totals.map (mapWrite f) ++ recordWrites id cooldown).map
        (mapWrite fun _ => clampAmount)) := by
      rw [clampResources_eq_mapResources, Tree.mapResources_setAll hwrites,
        Tree.mapResources_of_fixed hclamped]
    _ = _ := by
      rw [List.map_append, map_mapWrite_recordWrites, List.map_map]
      simp only [Function.comp_def, mapWrite_mapWrite]

/-- A plain action that is done has written where its entries settle, and the records of the store. -/
theorem exists_settles_of_performed {result : Performed} (hplain : s.content.IsPlain id p)
    (hd : s.state.Distinct) (hnat : s.state.NaturalResources)
    (hdone : s.dispatch id = (.ok (.performed result), s')) :
    ∃ a around writes, s.content.action? id = some a ∧
      Resolution.circumstances s.content a s.state = .ok around ∧
      Settles around s.amplify p.effects writes ∧
      s'.state = s.state.setAll (writes ++ recordWrites id result.cooldown) := by
  obtain ⟨-, r, d, delta, hres, hrecord, hstate, -⟩ := exists_delta_of_dispatch hdone
  obtain ⟨a, ha, hflat⟩ := hplain.action
  obtain ⟨around, p₀, p₁, haround, hentries, hscale, rfl⟩ := Resolution.returns_ofEffects_iff.mp
    ((Resolution.returns_resolve_iff ha (tier_of_flat hflat _) rfl).mp hres)
  have hhere : around.state = s.state := Resolution.state_of_circumstances haround
  obtain ⟨-, totals, hadds, rfl⟩ := (returns_applyEntries_iff hplain.effects
    fun _ _ q _ => Delta.holds_nil around.state q).mp hentries
  rw [← hhere] at hd hnat hscale
  obtain ⟨hdelta, hscaled⟩ := delta_scaleGains hscale
  rw [recordAll_bookkeeping hplain.isName] at hrecord
  cases hrecord
  refine ⟨a, around, totals.map (mapWrite (settle around s.amplify)), ha, haround, hadds.settles ?_, ?_⟩
  · exact fun w hw name hname =>
      hscaled _ (mem_resources_of_write hadds hplain.effects.nodup hw hname)
  · have hscaledDelta : (Resolution.ofProgress p₁).delta = Tree.mapResources
        (rescale around.state around.bonus.resourceMultiplier s.amplify)
        (Delta.setAll [] around.state totals) := hdelta
    rw [hstate, ← hhere, hscaledDelta]
    exact committed_eq_setAll hd hnat hadds.rest_ne_nil hadds.direct
      fun e he => rescale_of_ok (rescaled_of_natural (hd _) hnat he)

/-- A plain action that can be done is done if its entries settle. -/
theorem exists_performed_of_settles {a : Action} {around : Circumstances}
    {writes : List (StatePath × Value)} (hplain : s.content.IsPlain id p) (hd : s.state.Distinct)
    (hnat : s.state.NaturalResources) (hexec : s.isExecutable id = .ok true)
    (hcooldown : Gate.effectiveCooldown s.content id s.state = .ok cooldown)
    (ha : s.content.action? id = some a)
    (haround : Resolution.circumstances s.content a s.state = .ok around)
    (hsettles : Settles around s.amplify p.effects writes) :
    ∃ result s', s.dispatch id = (.ok (.performed result), s') ∧ result.cooldown = cooldown := by
  obtain ⟨a', ha', hflat⟩ := hplain.action
  cases ha.symm.trans ha'
  have hhere : around.state = s.state := Resolution.state_of_circumstances haround
  obtain ⟨totals, hadds, hscaled⟩ := hsettles.exists_adds
  rw [← hhere] at hd hnat
  have hentries : Returns (applyEntries around p.effects Progress.start) s.draws
      { Progress.start with delta := Delta.setAll [] around.state totals } s.draws :=
    (returns_applyEntries_iff hplain.effects fun _ _ q _ => Delta.holds_nil around.state q).mpr
      ⟨rfl, totals, hadds, rfl⟩
  obtain ⟨hcovers, htotals⟩ := (Delta.covers_nil around.state).extend hd hadds.rest_ne_nil
  obtain ⟨p₁, hscale⟩ := @exists_scaleGains around.state around.bonus.resourceMultiplier s.amplify
    { Progress.start with delta := Delta.setAll [] around.state totals } (by
      intro e he
      have hmem : e ∈ ((around.state.setAll totals).lookup Section.resources.name).entries := by
        rw [← Delta.merge_nil around.state, ← htotals, hcovers.lookup_merge]
        split
        · exact he
        next hnot =>
          rw [Tree.lookup_of_not_mem hnot] at he
          cases he
      rcases mem_resources_setAll hadds.direct hmem with hbefore | ⟨w, hw, hname, hvalue⟩
      · exact ⟨_, rescaled_of_natural (hd _) hnat hbefore⟩
      · exact hvalue ▸ hscaled w hw e.1 hname)
  have hres : Returns (resolve s.content id s.state s.amplify) s.draws (.ofProgress p₁) s.draws :=
    (Resolution.returns_resolve_iff ha (tier_of_flat hflat _) rfl).mpr
      (Resolution.returns_ofEffects_iff.mpr ⟨around, _, p₁, haround, hentries, hhere ▸ hscale, rfl⟩)
  obtain ⟨s', hcommit⟩ : ∃ s', (s.withDraws s.draws).commit id cooldown (.ofProgress p₁) = .ok s' :=
    ⟨_, bind_eq_ok_iff.mpr ⟨_, recordAll_bookkeeping hplain.isName, rfl⟩⟩
  refine ⟨performedOf cooldown (.ofProgress p₁), s', ?_, rfl⟩
  rw [dispatch_of_executable hexec hcooldown, perform_of_commit hres hcommit]
  rfl

end Store

end SurvivalRules
