import SurvivalRules.CommandLine
import SurvivalRules.Proofs.Condition
import SurvivalRules.Proofs.Content.Checks
import SurvivalRules.Proofs.Session.Answers
import SurvivalRules.Proofs.Session.Opening

/-!
# The bundled game is well-formed

The bundled content is orderly. What it declares is looked through once; its rules are then those of every
orderly game.
-/
namespace SurvivalRules

namespace Bundled

open Content

set_option maxRecDepth 10000

/-- The conditions of the effects. -/
def conditions : List String :=
  ["!relics.ancient_scroll", "resources.wood >= 20 && !flags.villageUnlocked",
    "!relics.old_trinket && buildings.cabin >= 1", "!tools.blacksmith_hammer"]

theorem mem_conditions : ∀ text ∈ content.conditionTexts, text ∈ conditions := by decide +kernel

theorem isPlain_conditions : ∀ text ∈ conditions, Condition.IsPlain text := by
  intro text htext
  simp only [conditions, List.mem_cons, List.not_mem_nil, or_false] at htext
  rcases htext with rfl | rfl | rfl | rfl
  · exact Condition.isPlain_clause (by decide +kernel) (by decide +kernel)
  · exact Condition.isPlain_clauses "resources.wood >= 20" "!flags.villageUnlocked" (by decide +kernel)
      (by decide +kernel) (by decide +kernel)
  · exact Condition.isPlain_clauses "!relics.old_trinket" "buildings.cabin >= 1" (by decide +kernel)
      (by decide +kernel) (by decide +kernel)
  · exact Condition.isPlain_clause (by decide +kernel) (by decide +kernel)

-- One evaluation for each kind of entry: a single one over all of them would hold every text at once.
theorem passesChecks : content.PassesChecks := by
  have hmodest : content.IsModest := by decide +kernel
  have heffects : ∀ a ∈ OrderedMap.values content.actions, ∀ block ∈ effectBlocks a,
      block.length ≤ 2 ^ 10 ∧ ∀ e ∈ block, content.entryFits e = true := by decide +kernel
  have hrequirements : ∀ a ∈ OrderedMap.values content.actions, ∀ block ∈ showBlocks a, ∀ e ∈ block,
      requirementFits e = true := by decide +kernel
  have hcosts : ∀ a ∈ OrderedMap.values content.actions, ∀ block ∈ costBlocks a, ∀ e ∈ block,
      costFits e = true := by decide +kernel
  have hids : ∀ e ∈ content.actions, e.2.id = e.1 ∧ StatePath.IsName e.1 ∧ Key.isText e.1 = true := by
    decide +kernel
  have hraised : ∀ e ∈ content.buildingActions, content.IsRaised e := by decide +kernel
  refine ⟨hmodest, fun a ha => ⟨heffects a ha, hrequirements a ha, hcosts a ha⟩, ?_, hraised⟩
  intro e he
  obtain ⟨hid, hname, htext⟩ := hids e he
  exact isListed_of_isName hid hname htext

theorem orderly : content.Orderly :=
  orderly_of_passesChecks passesChecks fun text htext => isPlain_conditions text (mem_conditions text htext)

end Bundled

namespace Session

variable {s : Session}

theorem inPlay_executeAll (h : s.store.InPlay) (lines : List String) :
    (s.executeAll lines).store.InPlay ∧ (s.executeAll lines).content = s.content ∧
      s.state.Advances s.content (s.executeAll lines).state := by
  have hserved := h.serveAll fun request (hrequest : request ∈ requestsOf lines) =>
    isPlayed_of_mem_requestsOf hrequest
  rwa [← store_executeAll] at hserved

/-- A game with the bundled content stays well-formed, whatever is typed: what has been built and what is
owned stays, and as long as the resources are of moderate size every line is answered. A run takes only
finitely many draws, so that the draws replayed from lists stand for those of any source. -/
theorem bundled_game_stays_wellFormed (settings : Settings) (draws : Draws) (before later : List String) :
    let s := (ofContent Bundled.content settings draws none).executeAll before
    s.state.WellFormed Bundled.content ∧
      s.state.Advances Bundled.content (s.executeAll later).state ∧
      (s.state.Bounded → ∀ line, ∃ lines, (s.execute line).1 = .ok lines) := by
  intro s
  have hstart : (ofContent Bundled.content settings draws none).store.InPlay :=
    inPlay_start Bundled.orderly draws settings.amplifyGains
  obtain ⟨hplay, hcontent, -⟩ := inPlay_executeAll hstart before
  have hbundled : s.content = Bundled.content := hcontent
  refine ⟨?_, ?_, fun hbound line => exists_answer_of_orderly hplay.orderly hbound line⟩
  · rw [← hbundled]
    exact hplay.wellFormed
  · rw [← hbundled]
    exact (inPlay_executeAll hplay later).2.2

/-- In a new game the resources are of moderate size. -/
theorem first_line_is_answered :
    let s := ofContent Bundled.content Settings.standard (Draws.ofSeed none) none
    s.state.Bounded ∧ ∃ lines, (s.execute "do gatherWood").1 = .ok lines := by
  intro s
  have hbound : s.state.Bounded := bounded_newState Bundled.content
  obtain ⟨-, -, hanswer⟩ := bundled_game_stays_wellFormed Settings.standard (Draws.ofSeed none) [] []
  exact ⟨hbound, hanswer hbound "do gatherWood"⟩

end Session

end SurvivalRules
