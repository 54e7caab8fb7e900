import SurvivalRules.Proofs.Store.Orderly
import SurvivalRules.Session.Opening

/-!
# Every line is answered

In an orderly session whose resources are of moderate size every line that a player can type is answered. What
a session does to its store is to serve a dispatch, to let time pass, or nothing.
-/
namespace SurvivalRules

/-- What a command asks of the store. -/
def Command.request? : Command → Option Request
  | .perform id => some (.dispatch id)
  | .tick seconds => some (.tick (.float seconds))
  | _ => none

theorem Command.isPlayed_of_request? {command : Command} {request : Request}
    (h : command.request? = some request) : request.IsPlayed := by
  cases command with
  | perform id =>
    cases h
    trivial
  | tick seconds =>
    cases h
    exact ⟨seconds, rfl⟩
  | _ => cases h

namespace Session

/-- The session after some lines. -/
def executeAll (s : Session) (lines : List String) : Session :=
  lines.foldl (fun s line => (s.execute line).2) s

/-- What the lines ask of the store. -/
def requestsOf (lines : List String) : List Request := lines.filterMap fun line => (Command.read line).request?

variable {s : Session}

theorem store_run (s : Session) (command : Command) :
    (s.run command).2.store = (command.request?.map s.store.serve).getD s.store := by
  cases command with
  | tick seconds =>
    have htick : s.store.tick (.float seconds) = s.store.advance (.float seconds) := rfl
    simp only [run, tick, Command.request?, Option.map_some, Option.getD_some, Store.serve, htick]
    cases s.store.advance (.float seconds) <;> rfl
  | _ => rfl

theorem store_executeAll (s : Session) (lines : List String) :
    (s.executeAll lines).store = s.store.serveAll (requestsOf lines) := by
  induction lines generalizing s with
  | nil => rfl
  | cons line rest ih =>
    have hstep : s.executeAll (line :: rest) = (s.execute line).2.executeAll rest := by
      rw [executeAll, List.foldl_cons, executeAll]
    have hstore : (s.execute line).2.store =
        ((Command.read line).request?.map s.store.serve).getD s.store := by
      rw [execute, store_run s (Command.read line)]
    rw [hstep, ih, hstore, requestsOf, requestsOf, List.filterMap_cons]
    cases (Command.read line).request? <;> rfl

theorem isPlayed_of_mem_requestsOf {lines : List String} {request : Request}
    (h : request ∈ requestsOf lines) : request.IsPlayed := by
  obtain ⟨line, -, hline⟩ := List.mem_filterMap.mp h
  exact Command.isPlayed_of_request? hline

theorem exists_listHeld (counts : Tree) (h : ∀ e ∈ counts, e.2.IsSmall) :
    ∃ lines, listHeld counts = .ok lines := by
  refine exists_mapM fun e he => ?_
  obtain ⟨text, htext⟩ := (h e (List.mem_of_mem_filter he)).exists_displayed
  exact ⟨_, bind_eq_ok_iff.mpr ⟨text, htext, rfl⟩⟩

section

variable {c : Content} {state : Tree} (hstate : state.Orderly c)
include hstate

theorem exists_isMarked (id : String) (slots : List Slot) : ∃ b, isMarked state id slots = .ok b := by
  induction slots with
  | nil => exact ⟨false, rfl⟩
  | cons slot rest ih =>
    simp only [isMarked, (hstate.slot slot).section?_eq, bind, Except.bind]
    split
    · exact ⟨true, rfl⟩
    · exact ih

theorem exists_markedNames (items : List (String × Item)) : ∃ names, markedNames state items = .ok names := by
  induction items with
  | nil => exact ⟨[], rfl⟩
  | cons e rest ih =>
    obtain ⟨id, item⟩ := e
    obtain ⟨marked, hmarked⟩ := exists_isMarked hstate id Slot.all
    obtain ⟨more, hmore⟩ := ih
    exact ⟨_, bind_eq_ok_iff.mpr ⟨marked, hmarked, bind_eq_ok_iff.mpr ⟨more, hmore, rfl⟩⟩⟩

end

theorem exists_view {x : Except Fault (List String)} (hx : ∃ lines, x = .ok lines) :
    ∃ lines, (s.view x).1 = .ok lines := by
  obtain ⟨lines, rfl⟩ := hx
  exact ⟨lines, rfl⟩

theorem exists_bonusLines (h : s.store.Orderly) : ∃ lines, s.bonusLines = .ok lines := by
  obtain ⟨t, ht, hwithin⟩ := h.state.exists_totals h.content.modest
  obtain ⟨lines, hlines⟩ := hwithin.exists_explain (by decide)
  exact ⟨lines, bind_eq_ok_iff.mpr ⟨t, ht, hlines⟩⟩

section

variable (h : s.store.Orderly) (hbound : s.state.Bounded)
include h hbound

theorem exists_statusLines : ∃ lines, s.statusLines = .ok lines := by
  have hstate : s.state.Orderly s.content := h.state
  obtain ⟨held, hheld⟩ := exists_listHeld (s.state.lookup Section.resources.name).entries
    fun e he => Value.isSmall_of_within (hbound e he) le_rfl
  obtain ⟨built, hbuilt⟩ := exists_listHeld (s.state.lookup Section.buildings.name).entries
    fun e he => Value.isSmall_of_within (hstate.buildings.entries e he).2 (by decide)
  obtain ⟨owned, howned⟩ := exists_markedNames hstate s.content.items
  exact ⟨_, bind_eq_ok_iff.mpr ⟨_, hstate.resources.section?_eq, bind_eq_ok_iff.mpr ⟨_,
    hstate.buildings.section?_eq, bind_eq_ok_iff.mpr ⟨held, hheld, bind_eq_ok_iff.mpr ⟨built, hbuilt,
      bind_eq_ok_iff.mpr ⟨owned, howned, rfl⟩⟩⟩⟩⟩⟩

theorem exists_actionLine (id : String) : ∃ line, s.actionLine id = .ok line := by
  have hstanding : ∃ tag, s.standing id = .ok tag := by
    obtain ⟨left, hleft⟩ := Gate.exists_cooldownRemaining h.state id
    obtain ⟨executable, hexec⟩ := Gate.exists_isExecutable h.content h.state hbound id
    have hgate : Gate.isExecutable s.content id s.state = .ok executable := hexec
    have hremaining : Gate.cooldownRemaining id s.state = .ok left := hleft
    simp only [standing, hremaining, hgate, bind, Except.bind]
    split <;> exact ⟨_, rfl⟩
  obtain ⟨tag, htag⟩ := hstanding
  obtain ⟨cost, hcost⟩ := Gate.exists_costText h.content h.state id
  exact ⟨_, bind_eq_ok_iff.mpr ⟨tag, htag, bind_eq_ok_iff.mpr ⟨cost, hcost, rfl⟩⟩⟩

theorem exists_actionLines : ∃ lines, s.actionLines = .ok lines := by
  obtain ⟨ids, hids⟩ := Gate.exists_visibleActions h.content h.state hbound
  obtain ⟨lines, hlines⟩ := exists_mapM (l := ids) fun id _ => exists_actionLine h hbound id
  exact ⟨_, bind_eq_ok_iff.mpr ⟨ids, hids, bind_eq_ok_iff.mpr ⟨lines, hlines, rfl⟩⟩⟩

theorem exists_reasonLines (id : String) : ∃ lines, s.reasonLines id = .ok lines := by
  obtain ⟨reasons, hreasons⟩ := Gate.exists_unmetRequirements h.content h.state hbound id
  exact ⟨_, bind_eq_ok_iff.mpr ⟨reasons, hreasons, rfl⟩⟩

theorem exists_perform (id : String) : ∃ lines, (s.perform id).1 = .ok lines := by
  obtain ⟨verdict, hverdict⟩ := h.exists_verdict hbound id
  have hlines : (s.perform id).1 = (s.store.dispatch id).1.map (s.verdictLines id) := rfl
  rw [hlines, hverdict]
  exact ⟨_, rfl⟩

/-- Every line has an answer. -/
theorem exists_answer_of_orderly (line : String) : ∃ lines, (s.execute line).1 = .ok lines := by
  unfold execute
  cases Command.read line with
  | status => exact exists_view (exists_statusLines h hbound)
  | actions => exact exists_view (exists_actionLines h hbound)
  | bonuses => exact exists_view (exists_bonusLines h)
  | perform id => exact exists_perform h hbound id
  | explain id => exact exists_view (exists_reasonLines h hbound id)
  | tick seconds =>
    obtain ⟨ready, next, hnext, -, -, htexts, -⟩ := Store.exists_advance h.state seconds
    have hall : ready.all Key.isText = true := List.all_eq_true.mpr htexts
    simp only [run, tick, hnext, tickLines, hall, if_true]
    exact ⟨_, rfl⟩
  | _ => exact ⟨_, rfl⟩

end

end Session

end SurvivalRules
