import SurvivalRules.Proofs.Store.Orderly

/-!
# The course of a game

All through a game in orderly content nothing is owed and every building stands at one of its levels.
Buildings only rise, and what is marked stays marked.
-/
namespace SurvivalRules

/-- Resources are natural numbers, each building stands at one of its levels or not at all, and flags and
ownership are marked by truth values. -/
structure Tree.WellFormed (c : Content) (t : Tree) : Prop where
  resources : t.HoldsOnly Section.resources.name fun _ v => ∃ n : ℕ, v = .int n
  buildings : t.HoldsOnly Section.buildings.name fun key v =>
    ∃ a p, OrderedMap.get? key c.buildingActions = some (a, p) ∧
      ∃ n : ℤ, v = .int n ∧ 0 ≤ n ∧ n ≤ p.lastLevel
  marks : ∀ area ∈ Section.marks, t.HoldsOnly area.name fun _ v => ∃ b, v = .bool b

/-- No building stands lower than before, and everything marked is still marked. -/
structure Tree.Advances (c : Content) (before after : Tree) : Prop where
  levels : ∀ e ∈ c.buildingActions, ∀ m : ℤ, (before.get e.2.2.counter).Counts m →
    ∃ n, m ≤ n ∧ (after.get e.2.2.counter).Counts n
  marks : before.KeepsMarks after

theorem Value.Counts.eq {v : Value} {m n : ℤ} (h : v.Counts m) (h' : v.Counts n) : m = n := by
  rcases h with rfl | ⟨rfl, rfl⟩ <;> rcases h' with h' | ⟨h', rfl⟩
  · exact Value.int.inj h'
  · cases h'
  · cases h'
  · rfl

theorem Request.IsPlayed.ne_replace {request : Request} (h : request.IsPlayed) (v : Value) :
    request ≠ .replace v := by
  rintro rfl
  exact h

namespace Store

variable {s : Store} {requests : List Request}

/-- The store is orderly, nothing is owed and every building stands at one of its levels. -/
structure InPlay (s : Store) : Prop where
  orderly : s.Orderly
  debtFree : s.state.DebtFree
  stands : ∀ e ∈ s.content.buildingActions, ∃ n, s.StandsAt e.2.1.id e.2.2 n

theorem InPlay.wellFormed (h : s.InPlay) : s.state.WellFormed s.content where
  resources := by
    have hheld := h.orderly.state.resources
    refine hheld.imp fun e he hwhole => ?_
    obtain ⟨n, hn⟩ := hwhole
    have hdebt := h.debtFree _ hheld.lookup_eq e he
    have hnonneg : 0 ≤ n := by
      by_contra hneg
      refine hdebt ⟨.int n, by rw [hn]; rfl, ?_⟩
      rw [Amount.zero, Amount.lt_int_iff]
      omega
    exact ⟨n.toNat, by rw [hn, Int.toNat_of_nonneg hnonneg]⟩
  buildings := by
    have hheld := h.orderly.state.buildings
    refine hheld.imp fun e he htaken => ?_
    obtain ⟨hkey, k, hk, -⟩ := htaken
    obtain ⟨⟨a, p⟩, hget⟩ := OrderedMap.exists_get?_of_mem_keys hkey
    have hraised : (e.1, a, p) ∈ s.content.buildingActions := OrderedMap.mem_of_get? hget
    obtain ⟨n, hstands⟩ := h.stands _ hraised
    have hcounter : s.state.get p.counter = e.2 := by
      have hrest : p.counter.rest = [e.1] :=
        congrArg (fun key => [key]) (h.orderly.content.buildingKeys _ hraised)
      rw [Tree.get_cons hrest, Value.descend_nil, TieredPlan.head_counter, Tree.lookup,
        OrderedMap.get?_of_mem hheld.distinct he, Option.getD_some]
    have hcounts : e.2.Counts n := hcounter ▸ hstands.counts
    have hlevel : k = n := Value.Counts.eq (Or.inl hk) hcounts
    subst hlevel
    exact ⟨a, p, hget, k, hk, hstands.nonneg, hstands.le_last⟩
  marks := fun _ harea => h.orderly.state.mark harea

/-- A game in play stays in play, whatever is done and however much time passes. -/
theorem InPlay.serveAll (h : s.InPlay) (hplayed : ∀ request ∈ requests, request.IsPlayed) :
    (s.serveAll requests).InPlay ∧ (s.serveAll requests).content = s.content ∧
      s.state.Advances s.content (s.serveAll requests).state := by
  have hkeep : ∀ request ∈ requests, ∀ v, request ≠ .replace v :=
    fun request hrequest v => (hplayed request hrequest).ne_replace v
  have hrise : ∀ e ∈ s.content.buildingActions, ∀ m, s.StandsAt e.2.1.id e.2.2 m →
      ∃ k : ℕ, (s.serveAll requests).StandsAt e.2.1.id e.2.2 (m + k) := by
    intro e he m hstands
    obtain ⟨k, -, hrisen⟩ := hstands.serveAll (h.orderly.content.lastLevels e he) hkeep
    exact ⟨k, hrisen⟩
  obtain ⟨horderly, hcontent, hmarks⟩ := h.orderly.serveAll hplayed
  refine ⟨⟨horderly, debtFree_serveAll h.debtFree hkeep, fun e he => ?_⟩, hcontent, ⟨fun e he m hm => ?_, hmarks⟩⟩
  · rw [hcontent] at he
    obtain ⟨m, hstands⟩ := h.stands e he
    obtain ⟨k, hrisen⟩ := hrise e he m hstands
    exact ⟨m + k, hrisen⟩
  · obtain ⟨m', hstands⟩ := h.stands e he
    cases hm.eq hstands.counts
    obtain ⟨k, hrisen⟩ := hrise e he m hstands
    exact ⟨m + k, by omega, hrisen.counts⟩

end Store

end SurvivalRules
