import SurvivalRules.Proofs.Gate.Answers
import SurvivalRules.Proofs.Store.Cooldown
import SurvivalRules.Proofs.Store.Elapse

/-!
# Orderly stores

Doing an action and letting time pass keep an orderly state orderly, and what is marked stays marked. While
the resources are of moderate size, a dispatch always has a verdict and time can always pass.
-/
namespace SurvivalRules

open Drawing

/-- A constant that fits a section that the rules read is something that the section takes. -/
theorem Section.takes_of_fits {c : Content} {area : Section} (harea : area ∈ Section.consulted)
    (hne : area ≠ .resources) {q : StatePath} {k : Constant} (hk : k.Fits c q) (hhead : q.head = area.name) :
    ∃ name, q.rest = [name] ∧ area.Takes c name k.value := by
  cases hk with
  | gain hgain _ _ => exact absurd (Section.name_injective (hhead.symm.trans hgain)) hne
  | @level key n hlevel hrest hkey hn =>
    cases Section.name_injective (hhead.symm.trans hlevel)
    exact ⟨key, hrest, hkey, n, rfl, hn⟩
  | @mark _ name hmark hown hrest =>
    cases Section.name_injective (hhead.symm.trans hown)
    exact ⟨name, hrest, (Section.takes_of_mem_marks hmark).mpr ⟨true, rfl⟩⟩
  | tale hstory _ =>
    cases Section.name_injective (hhead.symm.trans hstory)
    exact absurd harea (by decide)

/-- Everything that is marked before is marked after. -/
def Tree.KeepsMarks (before after : Tree) : Prop :=
  ∀ area ∈ Section.marks, ∀ name, Tree.lookup (before.lookup area.name).entries name = .bool true →
    Tree.lookup (after.lookup area.name).entries name = .bool true

theorem Tree.KeepsMarks.trans {t u v : Tree} (h : t.KeepsMarks u) (h' : u.KeepsMarks v) : t.KeepsMarks v :=
  fun area harea name hname => h' area harea name (h area harea name hname)

/-- The section marks what the state marks. -/
def StillMarked (state : Tree) (area : Section) (name : String) (v : Value) : Prop :=
  Tree.lookup (state.lookup area.name).entries name = .bool true → v = .bool true

/-- What a player can ask of the store: an action, or time in seconds. -/
def Request.IsPlayed : Request → Prop
  | .dispatch _ => True
  | .tick v => ∃ x, v = .float x
  | .replace _ => False

namespace Store

variable {c : Content} {s s' : Store} {id : String} {cooldown : Binary64} {state delta delta' : Tree}
  {k : String} {P : String → Value → Prop}

/-- What is recorded besides the effects goes to the story and to the timers. -/
theorem carries_bookkeeping (hd : state.DistinctAt k) (hstory : k ≠ Section.story.name)
    (hdurations : k ≠ Section.cooldownDurations.name)
    (htimer : k = Section.cooldowns.name → StatePath.IsName id ∧ P id (.float cooldown))
    (h : Delta.Carries delta state k P) (hrecord : recordAll state delta (bookkeeping id cooldown) = .ok delta') :
    Delta.Carries delta' state k P := by
  have htidy := tidyAt_bookkeeping hd h.tidy hrecord
  refine ⟨htidy, ?_⟩
  by_cases hown : Amount.zero.lt (.float cooldown) = true ∧ k = Section.cooldowns.name
  · obtain ⟨hlt, rfl⟩ := hown
    obtain ⟨hname, hP⟩ := htimer rfl
    obtain ⟨hmem, hlook⟩ := lookup_own_timer (k := Section.cooldowns.name) hname hlt hrecord (Or.inl rfl)
    have hmerged := htidy.lookup_merge
    rw [if_pos hmem] at hmerged
    refine .of_lookup (hmerged.trans hlook)
      (OrderedMap.nodup_keys_insert (h.tidy.base_spec hd).1 id _) fun e he => ?_
    rcases OrderedMap.mem_insert he with rfl | hheld
    · exact hP
    · exact h.merged.entries e (h.base_eq ▸ hheld)
  · obtain ⟨hlook, hkeys⟩ := sameSection_bookkeeping hstory
      (fun hlt => ⟨fun hk => hown ⟨hlt, hk⟩, hdurations⟩) hrecord
    refine h.merged.congr ?_
    rw [htidy.lookup_merge, h.tidy.lookup_merge, hlook]
    simp only [hkeys]

theorem holdsOnly_committed_of_ne (h : Delta.Carries delta state k P) (hk : k ≠ Section.resources.name) :
    (committed state delta).HoldsOnly k P :=
  h.merged.congr (lookup_clampResources_of_ne hk _)

/-- Clamping leaves whole numbers. -/
theorem holdsOnly_committed_resources
    (h : Delta.Carries delta state Section.resources.name fun _ v => ∃ n : ℤ, v = .int n) :
    (committed state delta).HoldsOnly Section.resources.name fun _ v => ∃ n : ℤ, v = .int n := by
  have hmerged := h.merged
  have hlook : (committed state delta).lookup Section.resources.name = .mapping (OrderedMap.mapValues clampAmount
      ((Delta.merge state delta).lookup Section.resources.name).entries) := by
    rw [committed, clampResources, hmerged.lookup_eq]
    exact Tree.lookup_insert_self _ _ _
  refine .of_lookup hlook (by rw [OrderedMap.keys_mapValues]; exact hmerged.distinct) fun e he => ?_
  obtain ⟨f, hf, rfl⟩ := List.mem_map.mp he
  obtain ⟨n, hn⟩ := hmerged.entries f hf
  simp only [hn, clampAmount, Value.amount?]
  split
  · exact ⟨0, rfl⟩
  · exact ⟨n, rfl⟩

/-- The names of actions can stand in paths and be listed. -/
theorem isName_of_action (hc : c.Orderly) {a : Action} (ha : c.action? id = some a) :
    StatePath.IsName id ∧ Key.isText id = true :=
  (hc.ids (id, a) (OrderedMap.mem_of_get? ha)).2

theorem exists_action_of_executable (h : s.isExecutable id = .ok true) :
    ∃ a, s.content.action? id = some a := by
  obtain ⟨-, a, -, -, ha, -⟩ := Gate.isExecutable_spec h
  exact ⟨a, ha⟩

section

variable {result : Performed} (hc : s.content.Orderly) (hstate : s.state.Orderly s.content)
  (hdone : s.dispatch id = (.ok (.performed result), s'))
include hc hstate hdone

theorem orderly_dispatch_performed : s'.state.Orderly s'.content := by
  obtain ⟨hexec, r, d, delta, hres, hrecord, hnext, hcontent⟩ := exists_delta_of_dispatch hdone
  obtain ⟨a, ha⟩ := exists_action_of_executable hexec
  obtain ⟨hname, htext⟩ := isName_of_action hc ha
  obtain ⟨hresources, hothers⟩ := carries_resolve hc hstate hres
  rw [hcontent]
  intro area harea
  rw [hnext]
  by_cases hne : area = .resources
  · subst hne
    exact holdsOnly_committed_resources (carries_bookkeeping hstate.resources.distinct (by decide) (by decide)
      (fun he => absurd he (by decide)) hresources hrecord)
  · have hheld := hstate area harea
    have hname' : area.name ≠ Section.resources.name := fun he => hne (Section.name_injective he)
    have hcarries := hothers area.name (area.Takes s.content) hname' hheld
      fun q k hk hhead => Section.takes_of_fits harea hne hk hhead
    refine holdsOnly_committed_of_ne (carries_bookkeeping hheld.distinct ?_ ?_ ?_ hcarries hrecord) hname'
    · exact Section.name_ne harea (by decide)
    · exact Section.name_ne harea (by decide)
    · intro he
      cases Section.name_injective he
      exact ⟨hname, htext, _, rfl⟩

theorem keepsMarks_dispatch_performed : s.state.KeepsMarks s'.state := by
  obtain ⟨-, r, d, delta, hres, hrecord, hnext, -⟩ := exists_delta_of_dispatch hdone
  intro area harea name hmarked
  have hname : area.name ≠ Section.resources.name := Section.name_ne harea (by decide)
  have hmarks := hstate.mark harea
  have hheld : s.state.HoldsOnly area.name (StillMarked s.state area) := by
    refine hmarks.imp fun e he _ hname => ?_
    rwa [Tree.lookup, OrderedMap.get?_of_mem hmarks.distinct he, Option.getD_some] at hname
  have hcarries := (carries_resolve hc hstate hres).2 area.name (StillMarked s.state area) hname hheld
    fun q k hk hhead => by
      cases hk with
      | gain hgain _ _ => exact absurd (hhead.symm.trans hgain) hname
      | level hlevel _ _ _ =>
        cases Section.name_injective (hhead.symm.trans hlevel)
        exact absurd harea (by decide)
      | @mark _ name _ _ hrest => exact ⟨name, hrest, fun _ => rfl⟩
      | tale hstory _ =>
        cases Section.name_injective (hhead.symm.trans hstory)
        exact absurd harea (by decide)
  have hrecorded := carries_bookkeeping hmarks.distinct
    (Section.name_ne harea (by decide)) (Section.name_ne harea (by decide))
    (fun he => absurd he (Section.name_ne harea (by decide))) hcarries hrecord
  have hmem : name ∈ OrderedMap.keys (s.state.lookup area.name).entries := by
    by_contra hmem
    rw [Tree.lookup_of_not_mem hmem] at hmarked
    cases hmarked
  obtain ⟨v, hv⟩ := OrderedMap.exists_get?_of_mem_keys (hrecorded.mem_keys hmarks.distinct hmem)
  have hstill : v = .bool true :=
    hrecorded.merged.entries (name, v) (OrderedMap.mem_of_get? hv) hmarked
  rw [hnext, committed, lookup_clampResources_of_ne hname, Tree.lookup, hv, hstill]
  rfl

end

/-- Time can always pass, and what becomes ready can be listed. -/
theorem exists_advance (hstate : s.state.Orderly c) (x : Binary64) :
    ∃ ready s', s.advance (.float x) = .ok (ready, s') ∧ s'.content = s.content ∧ s'.state.Orderly c ∧
      (∀ name ∈ ready, Key.isText name = true) ∧
      ∀ k, k ≠ Section.cooldowns.name → s'.state.lookup k = s.state.lookup k := by
  unfold advance
  split
  · exact ⟨[], s, rfl, rfl, hstate, by simp, fun _ _ => rfl⟩
  · have htimers := hstate.cooldowns
    have hfloats := fun e he => (htimers.entries e he).2
    obtain ⟨running, ready, helapses⟩ := exists_elapses x hfloats
    have hof := timersOf_of_section? htimers.section?_eq
    have hnames : ∀ name ∈ OrderedMap.keys (s.state.lookup Section.cooldowns.name).entries,
        Key.isText name = true := by
      intro name hname
      obtain ⟨e, he, rfl⟩ := List.mem_map.mp hname
      exact (htimers.entries e he).1
    have hothers : ∀ k, k ≠ Section.cooldowns.name →
        Tree.lookup (OrderedMap.insert Section.cooldowns.name (.mapping running) s.state) k = s.state.lookup k :=
      fun k hk => Tree.lookup_insert_of_ne hk.symm _ _
    refine ⟨ready, s.replace (OrderedMap.insert Section.cooldowns.name (.mapping running) s.state), ?_, rfl,
      fun area harea => ?_, fun name hname => ?_, hothers⟩
    · exact bind_eq_ok_iff.mpr ⟨_, hof, bind_eq_ok_iff.mpr ⟨_, helapses.elapse_eq, rfl⟩⟩
    · by_cases hcool : area = .cooldowns
      · subst hcool
        refine .of_lookup (Tree.lookup_insert_self _ _ _) (helapses.sublist.nodup htimers.distinct) fun e he => ?_
        exact ⟨hnames e.1 (helapses.sublist.subset (List.mem_map_of_mem he)), helapses.floats hfloats e he⟩
      · exact (hstate area harea).congr (hothers area.name fun he => hcool (Section.name_injective he))
    · obtain ⟨timer, -, hmem, -⟩ := helapses.exists_of_mem_ready hname
      exact hnames name (List.mem_map_of_mem hmem)

/-- The content is orderly, and so is the state. -/
structure Orderly (s : Store) : Prop where
  content : s.content.Orderly
  state : s.state.Orderly s.content

theorem Orderly.serve (h : s.Orderly) {request : Request} (hplayed : request.IsPlayed) :
    (s.serve request).Orderly ∧ (s.serve request).content = s.content ∧
      s.state.KeepsMarks (s.serve request).state := by
  cases request with
  | dispatch id =>
    rcases dispatch_cases s id with ⟨result, hdone⟩ | ⟨hstate, hcontent⟩
    · obtain ⟨-, -, -, -, -, -, -, hcontent⟩ := exists_delta_of_dispatch hdone
      exact ⟨⟨hcontent ▸ h.content, orderly_dispatch_performed h.content h.state hdone⟩, hcontent,
        keepsMarks_dispatch_performed h.content h.state hdone⟩
    · simp only [Store.serve]
      refine ⟨⟨hcontent ▸ h.content, ?_⟩, hcontent, ?_⟩
      · rw [hstate, hcontent]
        exact h.state
      · rw [hstate]
        exact fun _ _ _ hmarked => hmarked
  | tick v =>
    obtain ⟨x, rfl⟩ := hplayed
    obtain ⟨ready, next, hnext, hcontent, hstate, -, hothers⟩ := exists_advance h.state x
    have htick : s.tick (.float x) = .ok (ready, next) := hnext
    simp only [Store.serve, htick]
    refine ⟨⟨hcontent ▸ h.content, hcontent.symm ▸ hstate⟩, hcontent, fun area harea name hmarked => ?_⟩
    rwa [hothers area.name (Section.name_ne harea (by decide))]
  | replace v => exact hplayed.elim

theorem Orderly.serveAll (h : s.Orderly) {requests : List Request}
    (hplayed : ∀ request ∈ requests, request.IsPlayed) :
    (s.serveAll requests).Orderly ∧ (s.serveAll requests).content = s.content ∧
      s.state.KeepsMarks (s.serveAll requests).state := by
  induction requests generalizing s with
  | nil => exact ⟨h, rfl, fun _ _ _ hmarked => hmarked⟩
  | cons request rest ih =>
    obtain ⟨hfirst, hrest⟩ := List.forall_mem_cons.mp hplayed
    obtain ⟨hnext, hcontent, hkeeps⟩ := h.serve hfirst
    obtain ⟨hlast, hcontent', hkeeps'⟩ := ih hnext hrest
    exact ⟨hlast, hcontent'.trans hcontent, hkeeps.trans hkeeps'⟩

/-- While the resources are of moderate size, every dispatch has a verdict. -/
theorem Orderly.exists_verdict (h : s.Orderly) (hbound : s.state.Bounded) (id : String) :
    ∃ verdict, (s.dispatch id).1 = .ok verdict := by
  obtain ⟨executable, hexec⟩ := Gate.exists_isExecutable h.content h.state hbound id
  cases executable with
  | false =>
    obtain ⟨reasons, hreasons⟩ := Gate.exists_unmetRequirements h.content h.state hbound id
    rw [dispatch_of_not_executable hexec]
    exact ⟨.rejected reasons, by simp only [refusal, hreasons]; rfl⟩
  | true =>
    obtain ⟨a, ha⟩ := exists_action_of_executable hexec
    obtain ⟨cooldown, hcooldown⟩ := Gate.exists_effectiveCooldown h.content.modest h.state id
    obtain ⟨r, d, hres⟩ := exists_resolve h.content h.state
      (fun text htext condition hread => exists_condition_holds h.state hbound h.content htext hread)
      id s.amplify s.draws
    have hseen := h.content.seen (id, a) (OrderedMap.mem_of_get? ha)
    obtain ⟨next, hcommit⟩ : ∃ next, (s.withDraws d).commit id cooldown r = .ok next :=
      exists_commit_iff.mpr (forall_bookkeeping_parses hseen fun _ => (isName_of_action h.content ha).1)
    rw [dispatch_of_executable hexec hcooldown, perform_of_commit hres hcommit]
    exact ⟨_, rfl⟩

end Store

end SurvivalRules
