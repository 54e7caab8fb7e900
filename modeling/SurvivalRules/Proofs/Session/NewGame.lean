import SurvivalRules.Proofs.Raising.Gate
import SurvivalRules.Proofs.Session.Opening
import SurvivalRules.Proofs.State.Spelling

/-!
# What a new game meets

The start of a game is put together from names that are cut off paths, and read back along paths. Resources that
costs and effects name are at zero, buildings are at no level and nothing is owned. A flag that is required to be
down is down if its path has two segments; a longer path leads below a name that is no section, to nothing.
-/
namespace SurvivalRules

theorem mem_sortedDistinct {names : List String} {name : String} : name ∈ sortedDistinct names ↔ name ∈ names := by
  simp [sortedDistinct]

namespace GameState

variable {α : Type} {names : List String} {name k : String} {a : α} {f : α → Value} {t : Tree}

theorem get?_constantMap (h : name ∈ names) : OrderedMap.get? name (constantMap names a) = some a := by
  have hkey : name ∈ OrderedMap.keys (constantMap names a) :=
    OrderedMap.mem_keys_overlay.mpr (Or.inr (List.mem_map.mpr ⟨(name, a), List.mem_map_of_mem h, rfl⟩))
  obtain ⟨b, hb⟩ := OrderedMap.exists_get?_of_mem_keys hkey
  have hvalue : b = a := (mem_constantMap (OrderedMap.mem_of_get? hb)).2
  rw [hb, hvalue]

/-- Every name is there with the value that all have. -/
theorem get_of_constantMap (h : t.lookup k = .mapping (OrderedMap.mapValues f (constantMap names a)))
    {p : StatePath} (hhead : p.head = k) (hrest : p.rest = [name]) (hname : name ∈ names) : t.get p = f a := by
  rw [Tree.get_cons hrest, hhead, h, Value.descend_nil]
  simp only [Value.entries, Tree.lookup, OrderedMap.get?_mapValues, get?_constantMap hname, Option.map_some,
    Option.getD_some]

end GameState

namespace Content

variable {c : Content} {a : Action} {block : Tree} {e : String × Value} {p : StatePath} {area : Section}

theorem below?_of_rest_eq {name : String} (hp : StatePath.parse e.1 = .ok p) (hhead : p.head = area.name)
    (hrest : p.rest = [name]) : below? area e.1 = some name := by
  have hne : name.toList ≠ [] := by
    obtain ⟨key, hkey, hname⟩ := (StatePath.exists_parse_iff.mp ⟨p, hp, rfl⟩).forall_mem name
      (by simp [StatePath.keys, hrest])
    have hfilled := hkey.nonempty
    rcases hname with rfl | rfl
    · simpa using hfilled
    · simp
  have hjoined : ".".intercalate p.rest = name := by rw [hrest, String.intercalate_singleton]
  unfold below?
  rw [StatePath.cutAtChar_of_parse hp (by simp [hrest]), hjoined]
  simp [hhead, hne]

/-- A flag of two segments that a requirement or a cost compares with a truth value is among the flags. -/
theorem mem_flagNames {b : Bool} {name : String} (ha : a ∈ c.actions.values)
    (hblock : block ∈ showBlocks a ++ costBlocks a) (he : e ∈ block) (hp : StatePath.parse e.1 = .ok p)
    (hhead : p.head = Section.flags.name) (hrest : p.rest = [name]) (hb : e.2 = .bool b) :
    name ∈ c.flagNames := by
  refine List.mem_filterMap.mpr ⟨e, List.mem_flatMap.mpr ⟨a, ha, List.mem_flatten.mpr ⟨block, hblock, he⟩⟩, ?_⟩
  rw [hb, below?_of_rest_eq hp hhead hrest]
  rfl

theorem mem_resourceNames {name : String} (ha : a ∈ c.actions.values)
    (hblock : block ∈ costBlocks a ++ effectBlocks a) (he : e ∈ block) (hp : StatePath.parse e.1 = .ok p)
    (hhead : p.head = Section.resources.name) (hrest : p.rest = [name]) : name ∈ c.resourceNames := by
  have hdot : '.' ∉ name.toList := StatePath.dot_not_mem_of_mem_keys hp (by simp [StatePath.keys, hrest])
  have hpath : e.1 ∈ c.actions.values.flatMap fun a => (costBlocks a ++ effectBlocks a).flatMap OrderedMap.keys :=
    List.mem_flatMap.mpr ⟨a, ha, List.mem_flatMap.mpr ⟨block, hblock, List.mem_map_of_mem he⟩⟩
  refine List.mem_filter.mpr ⟨List.mem_filterMap.mpr ⟨e.1, hpath, below?_of_rest_eq hp hhead hrest⟩, ?_⟩
  simpa using hdot

end Content

namespace Session

open GameState

variable {c : Content} {p : StatePath} {name : String}

/-- A path that goes on below a mark leads to nothing. -/
theorem get_newState_of_long (hhead : p.head = Section.flags.name) (hrest : 2 ≤ p.rest.length) :
    (newState c).get p = .null := by
  obtain ⟨first, second, more, hkeys⟩ : ∃ first second more, p.rest = first :: second :: more := by
    rcases hlist : p.rest with _ | ⟨first, _ | ⟨second, more⟩⟩
    · simp [hlist] at hrest
    · simp [hlist] at hrest
    · exact ⟨first, second, more, rfl⟩
  have hflags : (newState c).HoldsOnly Section.flags.name fun _ v => v = .bool false :=
    holdsOnly_newState_mark (by decide)
  rw [Tree.get_cons hkeys, hhead]
  rcases hflags.entry first with hnull | hfalse
  · rw [hnull, Value.descend_null]
  · rw [hfalse]
    rfl

theorem currentLevel_newState (c : Content) (plan : TieredPlan) : plan.currentLevel (newState c) = .ok 0 := by
  have hbuildings := holdsOnly_newState_buildings c
  have hcount : Requirement.orZero (Tree.lookup ((newState c).lookup Section.buildings.name).entries
      plan.buildingKey) = .int 0 := by
    rcases hbuildings.entry plan.buildingKey with hnull | ⟨-, hzero⟩
    · rw [hnull]
      rfl
    · rw [hzero]
      rfl
  have hnumber : (Value.int 0).toNumber = .ok .zero := by decide +kernel
  simp only [TieredPlan.currentLevel, hbuildings.section?_eq, hcount, hnumber, bind, Except.bind]
  decide +kernel

theorem ownedItems_newState (c : Content) : c.ownedItems (newState c) = [] := by
  refine List.flatMap_eq_nil_iff.mpr fun s _ => List.filterMap_eq_nil_iff.mpr fun e he => ?_
  have hmarks : (newState c).HoldsOnly s.name fun _ v => v = .bool false := by
    cases s <;> exact holdsOnly_newState_mark (by decide)
  rw [hmarks.entries e he]
  rfl

/-- A required flag that is expected to be down is down if nothing stands below it on its path. -/
theorem requirementHolds_newState {a : Action} {block : Tree} {e : String × Value} (ha : a ∈ c.actions.values)
    (hblock : block ∈ Content.showBlocks a) (he : e ∈ block) (hp : StatePath.parse e.1 = .ok p)
    (hhead : p.head = Section.flags.name) (hrest : p.rest ≠ []) (hexpected : e.2 = .bool false) :
    Raising.requirementHolds e.1 e.2 (newState c) = .ok (decide (p.rest.length = 1)) := by
  have hholds : Requirement.holdsOf e.2 ((newState c).get p) = .ok (decide (p.rest.length = 1)) := by
    rw [hexpected]
    by_cases hshort : p.rest.length = 1
    · obtain ⟨name, hname⟩ := List.length_eq_one_iff.mp hshort
      have hlisted : name ∈ sortedDistinct c.flagNames := mem_sortedDistinct.mpr
        (Content.mem_flagNames ha (List.mem_append_left _ hblock) he hp hhead hname hexpected)
      have hdown : (newState c).get p = .bool false :=
        get_of_constantMap (f := Value.bool) (a := false) rfl hhead hname hlisted
      rw [hdown, hname]
      rfl
    · have hlong : 2 ≤ p.rest.length := by
        have := List.length_pos_iff.mpr hrest
        omega
      rw [get_newState_of_long hhead hlong, decide_eq_false hshort]
      rfl
  unfold Raising.requirementHolds
  rw [Raising.getPath_of_parse hp]
  exact congrArg raise hholds

/-- A new game has every named resource at zero, every building before its first level and no item. What is
required to be down is down, if its path has two segments, and otherwise it is not. -/
theorem newState_as_named (c : Content) :
    (∀ a ∈ c.actions.values,
      (∀ block ∈ Content.showBlocks a, ∀ e ∈ block, ∀ p, StatePath.parse e.1 = .ok p →
        p.head = Section.flags.name → p.rest ≠ [] → e.2 = .bool false →
          Raising.requirementHolds e.1 e.2 (newState c) = .ok (decide (p.rest.length = 1))) ∧
      (∀ block ∈ Content.costBlocks a ++ Content.effectBlocks a, ∀ e ∈ block, ∀ p name,
        StatePath.parse e.1 = .ok p → p.resource? = some name → Raising.getPath e.1 (newState c) = .ok (.int 0)) ∧
      ∀ plan, a.tiered? = some plan → plan.currentLevel (newState c) = .ok 0) ∧
    c.ownedItems (newState c) = [] ∧
    ∀ e ∈ c.items, Tree.lookup ((newState c).lookup e.2.slot.name).entries e.1 = .bool false := by
  refine ⟨fun a ha => ⟨fun block hblock e he p hp => ?_, fun block hblock e he p name hp hname => ?_,
    fun plan _ => currentLevel_newState c plan⟩, ownedItems_newState c, fun e he => ?_⟩
  · exact requirementHolds_newState ha hblock he hp
  · obtain ⟨hhead, hrest⟩ := StatePath.resource?_eq_some_iff.mp hname
    have hlisted : name ∈ sortedDistinct c.resourceNames :=
      mem_sortedDistinct.mpr (Content.mem_resourceNames ha hblock he hp hhead hrest)
    have hzero : (newState c).get p = .int 0 :=
      get_of_constantMap (f := Value.ofAmount) (a := Amount.zero) rfl hhead hrest hlisted
    rw [Raising.getPath_of_parse hp, hzero]
  · have hlisted : e.1 ∈ itemsOf c e.2.slot := List.mem_filterMap.mpr ⟨e, he, if_pos rfl⟩
    have hmarks : (newState c).lookup e.2.slot.name =
        .mapping (OrderedMap.mapValues Value.bool (constantMap (itemsOf c e.2.slot) false)) := by
      cases e.2.slot <;> rfl
    rw [hmarks]
    simp only [Value.entries, Tree.lookup, OrderedMap.get?_mapValues, get?_constantMap hlisted, Option.map_some,
      Option.getD_some]

/-- An action that is shown while the flag at a path is down, and burns wood. -/
def relight (path : String) : Action :=
  ⟨"relight", "Relight", "", none, [], .zero, .zero,
    .flat ⟨some [(path, .bool false)], [("resources.wood", .int 2)], [], .zero⟩⟩

def campsite (path : String) : Content := ⟨[("relight", relight path)], [], [], []⟩

theorem lit_is_down :
    Content.ofRecords [(relight "flags.lit").toValue] [] [] = .ok (campsite "flags.lit") ∧
    Raising.requirementHolds "flags.lit" (.bool false) (newState (campsite "flags.lit")) = .ok true ∧
    Raising.getPath "resources.wood" (newState (campsite "flags.lit")) = .ok (.int 0) := by
  obtain ⟨hactions, -, -⟩ := newState_as_named (campsite "flags.lit")
  obtain ⟨hshown, hnamed, -⟩ := hactions (relight "flags.lit") (List.mem_singleton.mpr rfl)
  refine ⟨by decide +kernel, ?_, ?_⟩
  · exact hshown _ (List.mem_singleton.mpr rfl) ("flags.lit", .bool false) (List.mem_singleton.mpr rfl)
      ⟨"flags.lit", "flags", ["lit"]⟩ (by decide +kernel) rfl (by decide) rfl
  · exact hnamed [("resources.wood", .int 2)] (by decide) ("resources.wood", .int 2) (List.mem_singleton.mpr rfl)
      ⟨"resources.wood", "resources", ["wood"]⟩ "wood" (by decide +kernel) (by decide)

/-- The flag is kept under the whole rest of its path, where the path itself does not lead. -/
theorem camp_lit_is_not_down :
    Content.ofRecords [(relight "flags.camp.lit").toValue] [] [] = .ok (campsite "flags.camp.lit") ∧
    StatePath.parse "flags.camp.lit" = .ok ⟨"flags.camp.lit", "flags", ["camp", "lit"]⟩ ∧
    (newState (campsite "flags.camp.lit")).lookup "flags" = .mapping [("camp.lit", .bool false)] ∧
    Raising.requirementHolds "flags.camp.lit" (.bool false) (newState (campsite "flags.camp.lit")) = .ok false := by
  have hparse : StatePath.parse "flags.camp.lit" = .ok ⟨"flags.camp.lit", "flags", ["camp", "lit"]⟩ := by
    decide +kernel
  have hholds := requirementHolds_newState (c := campsite "flags.camp.lit") (e := ("flags.camp.lit", .bool false))
    (List.mem_singleton.mpr rfl) (List.mem_singleton.mpr rfl) (List.mem_singleton.mpr rfl) hparse rfl
    (by decide) rfl
  exact ⟨by decide +kernel, hparse, by decide +kernel, hholds⟩

end Session

end SurvivalRules
