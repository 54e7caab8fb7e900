import SurvivalRules.Proofs.State.Sections
import SurvivalRules.Proofs.Store.Levels
import SurvivalRules.Proofs.Totals.Bounds
import SurvivalRules.Proofs.Value.Small

/-!
# Orderly content

Content is orderly when its effects keep to the section that they write into: resources are gained and lost
in whole numbers, buildings get levels, and flags and ownership are only ever marked. A state is orderly when
its sections hold just that.
-/
namespace SurvivalRules

namespace Section

/-- The sections that count something. -/
def counters : List Section := [.resources, .buildings, .stats]

/-- The sections that mark something as owned or as come to pass. -/
def marks : List Section := [.tools, .weapons, .clothing, .relics, .blessings, .flags]

/-- The sections that the rules read. -/
def consulted : List Section := counters ++ marks ++ [.cooldowns]

/-- What a section that the rules read may hold under a name. -/
def Takes (c : Content) (area : Section) (name : String) (v : Value) : Prop :=
  match area with
  | .resources => ∃ n : ℤ, v = .int n
  | .buildings => name ∈ OrderedMap.keys c.buildingActions ∧ v.Within largestDeclared
  | .stats => v.Within largestDeclared
  | .cooldowns => Key.isText name = true ∧ ∃ x, v = .float x
  | .tools | .weapons | .clothing | .relics | .blessings | .flags => ∃ b, v = .bool b
  | .story | .cooldownDurations | .other => True

theorem name_injective {a b : Section} (h : a.name = b.name) : a = b := by
  cases a <;> cases b <;> first | rfl | exact absurd h (by decide)

/-- A section in a list has another name than one that is not in it. -/
theorem name_ne {a b : Section} {l : List Section} (ha : a ∈ l) (hb : b ∉ l) : a.name ≠ b.name :=
  fun he => hb (name_injective he ▸ ha)

theorem name_of_ofName {s : String} {area : Section} (h : ofName s = area) (hne : area ≠ .other) :
    s = area.name := by
  unfold ofName at h
  cases hfind : named.find? (·.name = s) with
  | none =>
    rw [hfind] at h
    exact absurd h.symm hne
  | some found =>
    rw [hfind, Option.getD_some] at h
    have hname := List.find?_some hfind
    rw [decide_eq_true_eq, h] at hname
    exact hname.symm

theorem takes_of_mem_marks {c : Content} {area : Section} (h : area ∈ marks) {name : String} {v : Value} :
    area.Takes c name v ↔ ∃ b, v = .bool b := by
  simp only [marks, List.mem_cons, List.not_mem_nil, or_false] at h
  rcases h with rfl | rfl | rfl | rfl | rfl | rfl <;> exact Iff.rfl

theorem mem_consulted_of_mem_marks {area : Section} (h : area ∈ marks) : area ∈ consulted :=
  List.mem_append_left _ (List.mem_append_right _ h)

end Section

/-- Every section that the rules read is there and holds what it may. -/
def Tree.Orderly (c : Content) (t : Tree) : Prop :=
  ∀ area ∈ Section.consulted, t.HoldsOnly area.name (area.Takes c)

/-- How a constant may be written: as a gain or loss, as a level, as a mark, or as part of the story. -/
inductive Constant.Fits (c : Content) (q : StatePath) : Constant → Prop
  | gain {name : String} {n : ℤ} (hhead : q.head = Section.resources.name) (hrest : q.rest = [name])
      (hn : n.natAbs ≤ largestDeclared) : Fits c q (.amount (.int n))
  | level {key : String} {n : ℤ} (hhead : q.head = Section.buildings.name) (hrest : q.rest = [key])
      (hkey : key ∈ OrderedMap.keys c.buildingActions) (hn : n.natAbs ≤ largestDeclared) :
      Fits c q (.amount (.int n))
  | mark {area : Section} {name : String} (harea : area ∈ Section.marks) (hhead : q.head = area.name)
      (hrest : q.rest = [name]) : Fits c q (.truth true)
  | tale {k : Constant} (hhead : q.head = Section.story.name) (hrest : q.rest ≠ []) : Fits c q k

/-- Whether a constant fits where it is written. -/
def Constant.fits (c : Content) (q : StatePath) (k : Constant) : Bool :=
  match q.rest, k with
  | [name], .amount (.int n) =>
    (q.area = .resources || q.area = .buildings && OrderedMap.contains name c.buildingActions)
      && n.natAbs ≤ largestDeclared || q.area = .story
  | [_], .truth true => Section.marks.contains q.area || q.area = .story
  | [], _ => false
  | _, _ => q.area = .story

theorem Constant.fits_of_check {c : Content} {q : StatePath} {k : Constant} (h : k.fits c q = true) :
    k.Fits c q := by
  have hhead : ∀ area : Section, area ≠ .other → q.area = area → q.head = area.name :=
    fun area hne harea => Section.name_of_ofName harea hne
  have hstory : q.rest ≠ [] → q.area = .story → k.Fits c q :=
    fun hrest harea => .tale (hhead .story (by decide) harea) hrest
  unfold fits at h
  split at h
  next name n hrest =>
    simp only [Bool.or_eq_true, Bool.and_eq_true, decide_eq_true_eq] at h
    rcases h with ⟨hres | ⟨hbuild, hkey⟩, hn⟩ | htale
    · exact .gain (hhead .resources (by decide) hres) hrest hn
    · exact .level (hhead .buildings (by decide) hbuild) hrest
        ((OrderedMap.contains_iff_mem_keys name _).mp hkey) hn
    · exact hstory (by simp [hrest]) htale
  next name hrest =>
    simp only [Bool.or_eq_true, List.contains_iff_mem, decide_eq_true_eq] at h
    rcases h with hmark | htale
    · have hne : q.area ≠ .other := fun he => absurd (he ▸ hmark) (by decide)
      exact .mark hmark (hhead _ hne rfl) hrest
    · exact hstory (by simp [hrest]) htale
  next => cases h
  next hempty _ _ => exact hstory hempty (decide_eq_true_eq.mp h)

/-- Constants fit by themselves, and random amounts are only for resources. -/
inductive Outcome.Fits (c : Content) (q : StatePath) : Outcome → Prop
  | constant {k : Constant} (hk : k.Fits c q) : Fits c q (.constant k)
  | range {name : String} {r : RandomRange} (hhead : q.head = Section.resources.name)
      (hrest : q.rest = [name]) (hlow : r.low.natAbs ≤ largestDeclared)
      (hhigh : r.high.natAbs ≤ largestDeclared) : Fits c q (.range r)

/-- Whether an outcome fits where it is written. -/
def Outcome.fits (c : Content) (q : StatePath) : Outcome → Bool
  | .constant k => k.fits c q
  | .range r => q.resource?.isSome && r.low.natAbs ≤ largestDeclared && r.high.natAbs ≤ largestDeclared

theorem Outcome.fits_of_check {c : Content} {q : StatePath} {o : Outcome} (h : o.fits c q = true) :
    o.Fits c q := by
  cases o with
  | constant k => exact .constant (Constant.fits_of_check h)
  | range r =>
    simp only [fits, Bool.and_eq_true, decide_eq_true_eq] at h
    obtain ⟨⟨hresource, hlow⟩, hhigh⟩ := h
    obtain ⟨name, hname⟩ := Option.isSome_iff_exists.mp hresource
    obtain ⟨hhead, hrest⟩ := StatePath.resource?_eq_some_iff.mp hname
    exact .range hhead hrest hlow hhigh

/-- Whether an entry of effects can be read and keeps to the section that it writes into. -/
def Content.entryFits (c : Content) (e : String × Value) : Bool :=
  match StatePath.parse e.1, Effect.ofValue e.2 with
  | .ok q, .ok (.sure outcome) => outcome.fits c q
  | .ok q, .ok (.chance k) => k.outcome.toOption.any (·.fits c q)
  | _, _ => false

/-- An entry that fits is an outcome that fits, by itself or behind a chance. -/
theorem Content.exists_of_entryFits {c : Content} {e : String × Value} (h : c.entryFits e = true) :
    ∃ q o, StatePath.parse e.1 = .ok q ∧ o.Fits c q ∧ (Effect.ofValue e.2 = .ok (.sure o) ∨
      ∃ k : Chance, Effect.ofValue e.2 = .ok (.chance k) ∧ k.outcome = .ok o) := by
  unfold entryFits at h
  split at h
  next q o hq ho => exact ⟨q, o, hq, Outcome.fits_of_check h, Or.inl ho⟩
  next q k hq hk =>
    cases ho : k.outcome with
    | error cause => simp [ho, Except.toOption] at h
    | ok o =>
      rw [ho] at h
      exact ⟨q, o, hq, Outcome.fits_of_check h, Or.inr ⟨k, hk, ho⟩⟩
  next => cases h

/-- A place directly in a section of counters or marks. -/
def StatePath.isPlain (q : StatePath) : Bool :=
  (Section.counters ++ Section.marks).contains q.area && q.rest.length = 1

/-- A requirement on a plain place, of something that can be written. -/
def requirementFits (e : String × Value) : Bool :=
  (StatePath.parse e.1).toOption.any StatePath.isPlain && e.2.isWritable

/-- A price in resources. -/
def costFits (e : String × Value) : Bool :=
  (StatePath.parse e.1).toOption.any (·.resource?.isSome) && e.2.Within largestDeclared

/-- A term that asks about a plain place, and compares only with a number. -/
def Term.isPlain (t : Term) : Bool :=
  t.path.isPlain && match t with
    | .compare _ _ (.text _) => false
    | _ => true

/-- A condition whose terms are plain, if it can be read at all. -/
def Condition.IsPlain (text : String) : Prop :=
  ∀ condition, Condition.read text = .ok condition → ∀ clause ∈ condition.clauses, ∀ t ∈ clause,
    t.isPlain = true

/-- The conditions of the effects. -/
def Content.conditionTexts (c : Content) : List String :=
  c.actions.values.flatMap fun a => (effectBlocks a).flatten.filterMap fun e =>
    match Effect.ofValue e.2 with
    | .ok (.chance k) => k.condition
    | _ => none

structure Content.Orderly (c : Content) : Prop where
  modest : c.IsModest
  effects : ∀ a ∈ OrderedMap.values c.actions, ∀ block ∈ effectBlocks a, ∀ e ∈ block, c.entryFits e = true
  conditions : ∀ text ∈ c.conditionTexts, Condition.IsPlain text
  requirements : ∀ a ∈ OrderedMap.values c.actions, ∀ block ∈ showBlocks a, ∀ e ∈ block,
    requirementFits e = true
  short : ∀ a ∈ OrderedMap.values c.actions, ∀ block ∈ effectBlocks a, block.length ≤ 2 ^ 10
  costs : ∀ a ∈ OrderedMap.values c.actions, ∀ block ∈ costBlocks a, ∀ e ∈ block, costFits e = true
  ids : ∀ e ∈ c.actions, e.2.id = e.1 ∧ StatePath.IsName e.1 ∧ Key.isText e.1 = true
  seen : ∀ e ∈ c.actions, ∃ q, StatePath.parse ("story.seen." ++ seenKey e.1) = .ok q
  raises : ∀ e ∈ c.buildingActions, c.Raises e.2.1.id e.2.2
  buildingKeys : ∀ e ∈ c.buildingActions, e.2.2.buildingKey = e.1
  lastLevels : ∀ e ∈ c.buildingActions, e.2.2.lastLevel ≤ significandBound

end SurvivalRules
