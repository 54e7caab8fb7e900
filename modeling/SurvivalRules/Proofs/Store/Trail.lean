import SurvivalRules.Proofs.Store.Calls
import SurvivalRules.Proofs.Store.Cooldown
import SurvivalRules.Proofs.Store.Frame
import SurvivalRules.Proofs.Store.Plain

/-!
# The audit trail

A store leaves two records of what was done: everyone who listens hears the ids, stamped by the clock, and the
story keeps a mark for each. While no effect comes near the marks, both say exactly what the log of all calls
says. The marks go by the key under which an action is remembered, and two ids may share one.
-/
namespace SurvivalRules

open Drawing

/-- The place where the story marks that an action was done. -/
def seenPath (id : String) : StatePath := ⟨"story.seen." ++ seenKey id, "story", ["seen", seenKey id]⟩

/-- Every id is a single segment of a path, and no effect writes to the mark of an action, to what is above it
or to what is below it. -/
structure Content.SeenApart (c : Content) : Prop where
  isName : ∀ id ∈ OrderedMap.keys c.actions, StatePath.IsName id
  apart : ∀ id ∈ OrderedMap.keys c.actions, ∀ a ∈ OrderedMap.values c.actions,
    ∀ block ∈ Content.effectBlocks a, (seenPath id).IsApart (OrderedMap.keys block)

theorem parse_seenPath {id : String} (h : StatePath.IsName id) :
    StatePath.parse ("story.seen." ++ seenKey id) = .ok (seenPath id) :=
  StatePath.parse_seen (StatePath.isName_seenKey h)

theorem seenPath_congr {id a : String} (h : seenKey id = seenKey a) : seenPath id = seenPath a := by
  rw [seenPath, seenPath, h]

theorem seenPath_apart {id a : String} (h : seenKey id ≠ seenKey a) :
    ¬ (seenPath id).Comparable (seenPath a) := by
  simp [seenPath, StatePath.Comparable, StatePath.keys, h, Ne.symm h]

/-- A timer is no part of the story. -/
theorem StatePath.isApart_timers {q : StatePath} (hhead : q.head = "story") (id : String)
    (cooldown : Binary64) : q.IsApart
      (if Amount.zero.lt (.float cooldown) then ["cooldowns." ++ id, "cooldownDurations." ++ id] else []) := by
  intro raw hraw p hp
  have harea : ∀ area : String, '.' ∉ area.toList → area ≠ "story" → raw = area ++ "." ++ id →
      ¬ p.Comparable q := by
    rintro area hdot hne rfl
    refine StatePath.not_comparable_of_head_ne ?_
    rw [(StatePath.keys_of_parse_append hdot hp).1, hhead]
    exact hne
  split at hraw
  · rcases List.mem_pair.mp hraw with hraw | hraw
    · exact harea "cooldowns" (by decide) (by decide) hraw
    · exact harea "cooldownDurations" (by decide) (by decide) hraw
  · cases hraw

namespace Store

variable {c : Content} {s s' : Store} {id a : String} {log : List (Call × Reply)}

/-- What the story shows of an action after others were done. -/
def markOf (done : List String) (a : String) : Value :=
  if seenKey a ∈ done.map seenKey then .bool true else .null

theorem markOf_concat (done : List String) (id a : String) : markOf (done ++ [id]) a =
    if seenKey id = seenKey a then .bool true else markOf done a := by
  unfold markOf
  by_cases h : seenKey id = seenKey a <;> simp [h, eq_comm]

/-- An action that is done leaves its mark. -/
theorem get_seenPath_self {result : Performed} (hname : StatePath.IsName id)
    (hd : s.state.DistinctAt "story") (hdone : s.dispatch id = (.ok (.performed result), s')) :
    s'.state.get (seenPath id) = .bool true := by
  obtain ⟨-, r, d, delta, hres, hrecord, hstate, -⟩ := exists_delta_of_dispatch hdone
  have htidy := tidyAt_bookkeeping hd (tidyAt_resolve hd hres) hrecord
  obtain ⟨delta₁, hfirst, hrest⟩ := bind_eq_ok_iff.mp hrecord
  obtain ⟨q, hq, rfl⟩ := record_eq_ok_iff.mp hfirst
  cases (parse_seenPath hname).symm.trans hq
  have hmark := Delta.holds_set_self r.delta s.state (q := seenPath id) (List.cons_ne_nil _ _) (.bool true)
  have htimers : (seenPath id).IsApart ((bookkeeping id result.cooldown).tail.map Prod.fst) := by
    rw [List.map_tail, map_fst_bookkeeping]
    exact StatePath.isApart_timers rfl id result.cooldown
  have hstory : (seenPath id).head ≠ Section.resources.name := show "story" ≠ "resources" by decide
  have hkept := (keeps_clampResources (Delta.merge s.state delta) (seenPath id)).elsewhere
    fun he => absurd he hstory
  rw [hstate, committed, hkept]
  exact (holds_recordAll htimers hrest hmark).get_merge htidy

/-- An action that is done leaves the marks of others alone. -/
theorem get_seenPath_of_ne {result : Performed} (hc : s.content.SeenApart)
    (ha : a ∈ OrderedMap.keys s.content.actions) (hd : s.state.DistinctAt "story")
    (hne : seenKey id ≠ seenKey a) (hdone : s.dispatch id = (.ok (.performed result), s')) :
    s'.state.get (seenPath a) = s.state.get (seenPath a) := by
  obtain ⟨hexec, -⟩ := exists_delta_of_dispatch hdone
  obtain ⟨-, action, tier, -, haction, htier, -⟩ := Gate.isExecutable_spec hexec
  have hmem := OrderedMap.mem_of_get? haction
  have hname : StatePath.IsName id := hc.isName id (OrderedMap.mem_keys_of_get? haction)
  have hstory : (seenPath a).head ≠ Section.resources.name := show "story" ≠ "resources" by decide
  refine (keeps_dispatch hd haction htier (fun he => absurd he hstory) ?_ hdone).elsewhere
    fun he => absurd he hstory
  intro raw hraw p hp
  rcases List.mem_append.mp hraw with heffect | hrecord
  · cases heffects : tier.effects with
    | none =>
      rw [heffects] at heffect
      cases heffect
    | some effects =>
      rw [heffects] at heffect
      exact hc.apart a ha action (List.mem_map_of_mem hmem) effects
        (effects_mem_effectBlocks htier heffects) raw heffect p hp
  · rcases List.mem_cons.mp hrecord with rfl | htimer
    · cases (parse_seenPath hname).symm.trans hp
      exact seenPath_apart hne
    · exact StatePath.isApart_timers rfl id result.cooldown raw htimer p hp

/-- Both records of what was done are up to date. -/
structure Recorded (c : Content) (log : List (Call × Reply)) (s : Store) : Prop where
  content : s.content = c
  distinct : s.state.DistinctAt "story"
  clock : s.clock = (doneIn log).length
  heard : s.heard = (doneIn log).zipIdx 1
  seen : ∀ a ∈ OrderedMap.keys c.actions, s.state.get (seenPath a) = markOf (doneIn log) a

theorem recorded_start {state : Tree} (hnone : state.lookup "story" = .null) (draws : Draws) (amplify : Bool) :
    Recorded c [] (start c state draws amplify) where
  content := rfl
  distinct := by
    rw [Tree.DistinctAt, show (start c state draws amplify).state = state from rfl, hnone]
    exact List.nodup_nil
  clock := rfl
  heard := rfl
  seen a _ := by
    rw [Tree.get_eq_descend, show (start c state draws amplify).state = state from rfl, seenPath, hnone]
    rfl

theorem Recorded.performed (h : Recorded c log s) (hc : c.SeenApart) {result : Performed}
    (hdone : s.dispatch id = (.ok (.performed result), s')) :
    Recorded c (log ++ [(.dispatch id, .verdict (.ok (.performed result)))]) s' := by
  have hlog : doneIn (log ++ [(.dispatch id, .verdict (.ok (.performed result)))]) = doneIn log ++ [id] :=
    doneIn_concat _ _
  obtain ⟨hexec, -⟩ := exists_delta_of_dispatch hdone
  obtain ⟨-, action, tier, -, haction, -, -⟩ := Gate.isExecutable_spec hexec
  have hname : StatePath.IsName id :=
    hc.isName id (h.content ▸ OrderedMap.mem_keys_of_get? haction)
  have hdistinct := distinctAt_dispatch h.distinct hdone
  obtain ⟨-, -, r, d, delta, -, -, -, hwhole⟩ := committedAs_of_dispatch hdone
  refine ⟨?_, hdistinct, ?_, ?_, fun a ha => ?_⟩
  · rw [hwhole]
    exact h.content
  · rw [hwhole, hlog, List.length_append, h.clock]
    rfl
  · rw [hwhole, hlog, List.zipIdx_append, h.heard, h.clock, Nat.add_comm]
    rfl
  · rw [hlog, markOf_concat]
    split
    next heq =>
      rw [← seenPath_congr heq]
      exact get_seenPath_self hname h.distinct hdone
    next hne =>
      rw [get_seenPath_of_ne (h.content ▸ hc) (h.content ▸ ha) h.distinct hne hdone]
      exact h.seen a ha

/-- What does not touch the story and does no action keeps both records. -/
theorem Recorded.unchanged (h : Recorded c log s) {e : Call × Reply} (he : doneBy? e = none)
    (hcontent : s'.content = s.content) (hclock : s'.clock = s.clock) (hheard : s'.heard = s.heard)
    (hstory : s'.state.lookup "story" = s.state.lookup "story") : Recorded c (log ++ [e]) s' := by
  have hlog : doneIn (log ++ [e]) = doneIn log := by rw [doneIn_concat, he]; simp
  refine ⟨hcontent.trans h.content, ?_, ?_, ?_, fun a ha => ?_⟩
  · rw [Tree.DistinctAt, hstory]
    exact h.distinct
  · rw [hlog, hclock, h.clock]
  · rw [hlog, hheard, h.heard]
  · rw [hlog, ← h.seen a ha, Tree.get_eq_descend, Tree.get_eq_descend, seenPath, hstory]

theorem Recorded.comes (h : Recorded c log s) (hc : c.SeenApart) {e : Call × Reply} (he : s.Comes e s') :
    Recorded c (log ++ [e]) s' := by
  cases he with
  | performed hdone => exact h.performed hc hdone
  | passed htick =>
    obtain ⟨state, rfl, hothers⟩ := tick_frame htick
    exact h.unchanged rfl rfl rfl rfl (hothers "story" (by decide))
  | idle hnot => exact h.unchanged hnot rfl rfl rfl rfl

/-- After every run from a state without a story, those who listen have heard the ids that were done, in their
order and stamped from one on, and the story has the mark of an action exactly when one that is remembered
under the same key was done; otherwise it has nothing there. -/
theorem audit_trail_exact {state : Tree} {draws : Draws} {amplify : Bool} (hc : c.SeenApart)
    (hnone : state.lookup "story" = .null) {cs : List Call}
    (hrun : (start c state draws amplify).calls cs = (log, s)) :
    s.heard = (doneIn log).zipIdx 1 ∧ ∀ a ∈ OrderedMap.keys c.actions,
      (s.state.get (seenPath a) = .bool true ↔ ∃ id ∈ doneIn log, seenKey id = seenKey a) ∧
      ((∀ id ∈ doneIn log, seenKey id ≠ seenKey a) → s.state.get (seenPath a) = .null) := by
  have h : Recorded c log s := by
    have hall := calls_induction (motive := Recorded c) (recorded_start hnone draws amplify)
      (fun log t e t' ht he => ht.comes hc he) cs
    rwa [hrun] at hall
  refine ⟨h.heard, fun a ha => ?_⟩
  rw [h.seen a ha, markOf]
  simp only [List.mem_map]
  split
  next hmarked => exact ⟨iff_of_true rfl hmarked, fun hnot => absurd hmarked (by simpa using hnot)⟩
  next hunmarked => exact ⟨iff_of_false (by simp) hunmarked, fun _ => rfl⟩

/-- Goes on with the story, beside the marks. -/
def sleepAction : Action :=
  { fireNamed "sleep" with plan := .flat ⟨some [], [], [("story.chapter", .int 2)], Binary64.zero⟩ }

/-- Two actions are remembered under one key. -/
def eveningContent : Content :=
  ⟨[("fire", fireNamed "fire"), ("Fire", fireNamed "Fire"), ("hunt", fireNamed "hunt"),
    ("sleep", sleepAction)], [], [], []⟩

theorem eveningContent_seenApart : eveningContent.SeenApart := ⟨by decide, by decide +kernel⟩

/-- Some are done, one has to wait, one is unknown, and one tick fails. -/
def eveningCalls : List Call :=
  [.dispatch "fire", .dispatch "fire", .tick (.int 4), .read .snapshot, .dispatch "dance",
    .tick (.text "soon"), .dispatch "sleep"]

def evening : List (Call × Reply) × Store := (start eveningContent [] zeroDraws false).calls eveningCalls

theorem evening_trail :
    eveningContent.SeenApart ∧ doneIn evening.1 = ["fire", "sleep"] ∧
      evening.2.heard = [("fire", 1), ("sleep", 2)] ∧
      evening.2.state.get (seenPath "Fire") = .bool true ∧
      evening.2.state.get (seenPath "hunt") = .null := by
  have hdone : doneIn evening.1 = ["fire", "sleep"] := by decide +kernel
  have hrun : (start eveningContent [] zeroDraws false).calls eveningCalls = (evening.1, evening.2) := rfl
  obtain ⟨hheard, hmarks⟩ := audit_trail_exact eveningContent_seenApart rfl hrun
  rw [hdone] at hheard hmarks
  refine ⟨eveningContent_seenApart, hdone, hheard, ?_, ?_⟩
  · exact (hmarks "Fire" (by decide)).1.mpr ⟨"fire", by simp, by decide⟩
  · exact (hmarks "hunt" (by decide)).2 (by decide)

end Store

end SurvivalRules
