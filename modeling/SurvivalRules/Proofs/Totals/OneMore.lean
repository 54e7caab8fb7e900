import SurvivalRules.Proofs.Numeric.Monotone
import SurvivalRules.Proofs.Totals.Granted

/-!
# One more item

An item that is gained stands among those that are owned already. Superseded or not, every item brings its reductions
into the totals, so neither total reduction becomes less by it.
-/
namespace SurvivalRules

namespace Content

variable {c : Content} {i : Item} {mark : Value} {state : Tree}

/-- The state in which an item is marked as owned, by any value that counts as true. -/
def gained (state : Tree) (i : Item) (mark : Value) : Tree := state.write mark [i.slot.name, i.id]

/-- A list with one more member somewhere in it. -/
def OneMore {α : Type} (a : α) (l more : List α) : Prop := ∃ front back, l = front ++ back ∧ more = front ++ a :: back

theorem oneMore_flatMap {α β : Type} {l : List α} {a : α} {b : β} {f g : α → List β} (hl : l.Nodup) (ha : a ∈ l)
    (hat : OneMore b (f a) (g a)) (helse : ∀ x, x ≠ a → g x = f x) : OneMore b (l.flatMap f) (l.flatMap g) := by
  obtain ⟨before, after, rfl⟩ := List.append_of_mem ha
  obtain ⟨-, hafter, hapart⟩ := List.nodup_append.mp hl
  obtain ⟨front, back, hf, hg⟩ := hat
  have hbefore : before.flatMap g = before.flatMap f :=
    List.flatMap_congr fun x hx => helse x (hapart x hx a List.mem_cons_self)
  have hbehind : after.flatMap g = after.flatMap f :=
    List.flatMap_congr fun x hx => helse x fun he => (List.nodup_cons.mp hafter).1 (he ▸ hx)
  refine ⟨before.flatMap f ++ front, back ++ after.flatMap f, ?_, ?_⟩
  · simp [hf]
  · simp [hg, hbefore, hbehind]

theorem itemIn_mark (hi : c.item? i.id = some i) (hmark : mark.truthy = true) :
    c.itemIn i.slot (i.id, mark) = some i := by
  simp [itemIn, hmark, hi, Option.filter]

/-- Marking an item that a section does not mark as owned yet. -/
theorem oneMore_filterMap_insert {entries : Tree} (hi : c.item? i.id = some i) (hmark : mark.truthy = true)
    (hnot : i ∉ entries.filterMap (c.itemIn i.slot)) : OneMore i (entries.filterMap (c.itemIn i.slot))
      ((OrderedMap.insert i.id mark entries).filterMap (c.itemIn i.slot)) := by
  induction entries with
  | nil => exact ⟨[], [], rfl, by simp [OrderedMap.insert, itemIn_mark hi hmark]⟩
  | cons e rest ih =>
    obtain ⟨key, v⟩ := e
    by_cases hkey : key = i.id
    · subst hkey
      have hunmarked : c.itemIn i.slot (i.id, v) = none := by
        by_cases hv : v.truthy = true
        · exact absurd (List.mem_filterMap.mpr ⟨_, List.mem_cons_self, itemIn_mark hi hv⟩) hnot
        · simp [itemIn, hv]
      refine ⟨[], rest.filterMap (c.itemIn i.slot), List.filterMap_cons_none hunmarked, ?_⟩
      rw [OrderedMap.insert, if_pos rfl, List.filterMap_cons_some (itemIn_mark hi hmark)]
      rfl
    · have hrest : i ∉ rest.filterMap (c.itemIn i.slot) := fun hmem => by
        obtain ⟨e, he, hitem⟩ := List.mem_filterMap.mp hmem
        exact hnot (List.mem_filterMap.mpr ⟨e, List.mem_cons_of_mem _ he, hitem⟩)
      obtain ⟨front, back, hbefore, hafter⟩ := ih hrest
      rw [OrderedMap.insert, if_neg hkey]
      refine ⟨(c.itemIn i.slot (key, v)).toList ++ front, back, ?_, ?_⟩
      · cases hitem : c.itemIn i.slot (key, v) <;> simp [hitem, hbefore]
      · cases hitem : c.itemIn i.slot (key, v) <;> simp [hitem, hafter]

theorem oneMore_ownedItems (hi : c.item? i.id = some i) (hmark : mark.truthy = true)
    (hnot : i ∉ c.ownedItems state) : OneMore i (c.ownedItems state) (c.ownedItems (gained state i mark)) := by
  have hlisted : i.slot ∈ Slot.all := by cases i.slot <;> decide
  refine oneMore_flatMap (by decide) hlisted ?_ fun s hs => ?_
  · have hlook : (gained state i mark).lookup i.slot.name =
        .mapping (OrderedMap.insert i.id mark (state.lookup i.slot.name).entries) :=
      Tree.lookup_insert_self _ _ _
    rw [ownedIn_eq, ownedIn_eq, hlook]
    exact oneMore_filterMap_insert hi hmark fun hmem => hnot (List.mem_flatMap.mpr ⟨i.slot, hlisted, hmem⟩)
  · have hname : i.slot.name ≠ s.name := fun he => hs (Slot.name_injective he).symm
    rw [ownedIn_eq, ownedIn_eq, gained, Tree.lookup_write_of_ne hname]

end Content

namespace Totals

open Binary64

variable {c : Content} {i : Item} {mark : Value} {state : Tree} {t t' : Totals} {r r' : Binary64 × Binary64}

theorem capped_mono {x y : Binary64} (h : x.AtMost y) : (Amount.float (capped x)).le (.float (capped y)) = true := by
  have hone : (Amount.float Binary64.one).point? = (Amount.int 1).point? :=
    Amount.point?_float (toRat?_ofInt (by decide))
  have htop : (Amount.float (capped x)).le (.float Binary64.one) = true := by
    simpa only [Amount.le, hone] using capped_le_one x
  rcases h with rfl | rfl | h
  · exact htop
  · exact htop
  · unfold capped
    by_cases hy : (Amount.float y).lt (.int 1) = true
    · rwa [if_pos hy, if_pos (Amount.lt_of_le_of_lt h hy)]
    · rw [if_neg hy]
      exact htop

/-- Both reductions of a pair are at most those of another one. -/
def AtMostPair (r r' : Binary64 × Binary64) : Prop := r.1.AtMost r'.1 ∧ r.2.AtMost r'.2

theorem AtMostPair.foldl (h : AtMostPair r r') (pairs : List (Binary64 × Binary64)) :
    AtMostPair (pairs.foldl addPair r) (pairs.foldl addPair r') := by
  induction pairs generalizing r r' with
  | nil => exact h
  | cons first rest ih => exact ih ⟨h.1.add first.1, h.2.add first.2⟩

/-- One item more has its shares added somewhere on the way. -/
theorem summedReductions_of_oneMore {owned more : List Item} (hi : i.generalBonuses.HasShares)
    (h : Content.OneMore i owned more) (standing : List (String × Action)) :
    AtMostPair (summedReductions owned standing) (summedReductions more standing) := by
  obtain ⟨front, back, rfl, rfl⟩ := h
  have hadded (r : Binary64 × Binary64) : AtMostPair r (addPair r i.reductions) :=
    ⟨atMost_add_self r.1 (nonNegative_of_isShare hi.1), atMost_add_self r.2 (nonNegative_of_isShare hi.2)⟩
  simp only [summedReductions, List.map_append, List.map_cons, List.append_assoc, List.cons_append, List.foldl_append,
    List.foldl_cons]
  exact ((hadded _).foldl _).foldl _

/-- No total reduction becomes less by an item that is gained. -/
theorem reductions_of_gained (hc : c.IsFiled) (hi : c.item? i.id = some i) (hmark : mark.truthy = true)
    (hnot : i ∉ c.ownedItems state) (h : ofState c state = .ok t)
    (h' : ofState c (Content.gained state i mark) = .ok t') :
    (Amount.float t.craftingCostReduction).le (.float t'.craftingCostReduction) = true ∧
      (Amount.float t.buildingCostReduction).le (.float t'.buildingCostReduction) = true := by
  obtain ⟨standing, hstanding, hsum⟩ := reductions_ofState h
  obtain ⟨standing', hstanding', hsum'⟩ := reductions_ofState h'
  cases ((standingBuildings_write c state i mark).trans hstanding).symm.trans hstanding'
  obtain ⟨hcrafting, hbuilding⟩ := Prod.mk.inj hsum
  obtain ⟨hcrafting', hbuilding'⟩ := Prod.mk.inj hsum'
  have hshares := (hc.itemsChecked i (List.mem_map_of_mem (OrderedMap.mem_of_get? hi))).shares
  have hless := summedReductions_of_oneMore hshares (Content.oneMore_ownedItems hi hmark hnot) standing
  rw [hcrafting, hbuilding, hcrafting', hbuilding']
  exact ⟨capped_mono hless.1, capped_mono hless.2⟩

end Totals

end SurvivalRules
