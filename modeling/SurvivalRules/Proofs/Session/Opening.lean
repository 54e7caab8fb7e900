import SurvivalRules.Proofs.Store.Course
import SurvivalRules.Session.Opening

/-!
# A new game

In a new game every resource and every building is at zero, nothing is owned or come to pass, and no timer
runs. In orderly content such a game is in play.
-/
namespace SurvivalRules

theorem TieredPlan.lastLevel_nonneg (p : TieredPlan) : 0 ≤ p.lastLevel := by
  unfold lastLevel
  induction OrderedMap.keys p.cost with
  | nil => exact le_rfl
  | cons level _ ih => exact ih.trans (le_max_right _ _)

namespace GameState

variable {α : Type} {names : List String} {a : α} {f : α → Value} {t : Tree} {k : String}

theorem mem_constantMap {e : String × α} (h : e ∈ constantMap names a) : e.1 ∈ names ∧ e.2 = a := by
  rcases OrderedMap.mem_overlay h with hnil | hlisted
  · cases hnil
  · obtain ⟨name, hname, rfl⟩ := List.mem_map.mp hlisted
    exact ⟨hname, rfl⟩

/-- A section that gives every name the same value. -/
theorem holdsOnly_of_constantMap (h : t.lookup k = .mapping (OrderedMap.mapValues f (constantMap names a))) :
    t.HoldsOnly k fun name v => name ∈ names ∧ v = f a := by
  have hnodup : (OrderedMap.keys (constantMap names a)).Nodup :=
    OrderedMap.nodup_keys_ofList _
  refine .of_lookup h (by rwa [OrderedMap.keys_mapValues]) fun e he => ?_
  obtain ⟨entry, hentry, rfl⟩ := List.mem_map.mp he
  obtain ⟨hname, hvalue⟩ := mem_constantMap hentry
  exact ⟨hname, congrArg f hvalue⟩

end GameState

namespace Session

open GameState

variable {c : Content}

theorem holdsOnly_newState_resources (c : Content) :
    (newState c).HoldsOnly Section.resources.name fun _ v => v = .int 0 :=
  (holdsOnly_of_constantMap (f := Value.ofAmount) (a := Amount.zero) rfl).imp fun _ _ h => h.2

theorem holdsOnly_newState_buildings (c : Content) : (newState c).HoldsOnly Section.buildings.name
    fun key v => key ∈ OrderedMap.keys c.buildingActions ∧ v = .int 0 :=
  holdsOnly_of_constantMap rfl

/-- Nothing is marked. -/
theorem holdsOnly_newState_mark {area : Section} (harea : area ∈ Section.marks) :
    (newState c).HoldsOnly area.name fun _ v => v = .bool false := by
  simp only [Section.marks, List.mem_cons, List.not_mem_nil, or_false] at harea
  rcases harea with rfl | rfl | rfl | rfl | rfl | rfl <;>
    exact (holdsOnly_of_constantMap rfl).imp fun _ _ h => h.2

theorem orderly_newState (c : Content) : (newState c).Orderly c := by
  intro area harea
  rcases List.mem_append.mp harea with hsection | hcooldowns
  · rcases List.mem_append.mp hsection with hcounter | hmark
    · simp only [Section.counters, List.mem_cons, List.not_mem_nil, or_false] at hcounter
      rcases hcounter with rfl | rfl | rfl
      · exact (holdsOnly_newState_resources c).imp fun _ _ h => ⟨0, h⟩
      · exact (holdsOnly_newState_buildings c).imp fun _ _ h => ⟨h.1, 0, h.2, Nat.zero_le _⟩
      · have hdistinct : (OrderedMap.keys (OrderedMap.mapValues Value.ofAmount baseStats)).Nodup := by decide
        refine .of_lookup rfl hdistinct fun e he => ?_
        have hall : ∀ e ∈ OrderedMap.mapValues Value.ofAmount baseStats, e.2.Within largestDeclared := by
          decide
        exact hall e he
    · exact (holdsOnly_newState_mark hmark).imp fun _ _ h => (Section.takes_of_mem_marks hmark).mpr ⟨false, h⟩
  · cases List.mem_singleton.mp hcooldowns
    exact .of_lookup rfl List.nodup_nil fun e he => by cases he

theorem debtFree_newState (c : Content) : (newState c).DebtFree := by
  intro held hheld e he
  have hsection := holdsOnly_newState_resources c
  have hentries : ((newState c).lookup Section.resources.name).entries = held := by rw [hheld]; rfl
  have hzero : e.2 = .int 0 := hsection.entries e (hentries ▸ he)
  rintro ⟨a, ha, hdebt⟩
  rw [hzero] at ha
  cases ha
  exact absurd hdebt (by decide)

theorem bounded_newState (c : Content) : (newState c).Bounded := by
  intro e he
  rw [(holdsOnly_newState_resources c).entries e he]
  exact ⟨0, rfl, Nat.zero_le _⟩

theorem inPlay_start (hc : c.Orderly) (draws : Draws) (amplify : Bool) :
    (Store.start c (newState c) draws amplify).InPlay where
  orderly := ⟨hc, orderly_newState c⟩
  debtFree := debtFree_newState c
  stands := by
    intro e he
    have hheld := holdsOnly_newState_buildings c
    refine ⟨0, hc.raises e he, hheld.distinct, ?_, le_rfl, e.2.2.lastLevel_nonneg⟩
    rcases hheld.get (TieredPlan.head_counter e.2.2) rfl with hnull | ⟨-, hzero⟩
    · exact Or.inr ⟨hnull, rfl⟩
    · exact Or.inl hzero

end Session

end SurvivalRules
