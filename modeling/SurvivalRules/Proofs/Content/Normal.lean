import SurvivalRules.Proofs.Content.Reread

/-!
# Definitions that are read again

The record of a definition has every field filled in and every field in its own kind. Such a record is in order, and
it is read as the definition that it was written from.
-/
namespace SurvivalRules

/-! ## Items -/

theorem Bonus.settles : Field.Settles (Field.record ofRecord) toValue := by
  refine Field.settles_record fun r b h => ?_
  obtain ⟨hgains, hrule⟩ := ofRecord_spec h
  have hagain := Field.settles_amount.mapping.optional rfl hgains
  simp [toValue, ofRecord, Field.optional, OrderedMap.get?, hagain, Field.binary64, hrule]

theorem GeneralBonuses.record_toValue {g : GeneralBonuses} (h : checkShares g = .ok g) :
    Field.record ofRecord g.toValue = .ok g := by
  have hamount (a : Amount) : Field.amount (Value.ofAmount a) = .ok a := by simp [Field.amount]
  have hfloat (x : Binary64) : Field.binary64 (Value.ofAmount (.float x)) = .ok x := rfl
  simp [toValue, ofRecord, fields, OrderedMap.mapValues, Field.optional, OrderedMap.get?, hamount, hfloat, h]

theorem GeneralBonuses.settles : Field.Settles (Field.record ofRecord) toValue :=
  Field.settles_record fun _ _ h => record_toValue (checkShares_of_ofRecord h)

theorem Item.settles : Field.Settles ofValue toValue := by
  refine Field.settles_record fun r i h => ?_
  obtain ⟨hbonuses, hgeneral⟩ := ofRecord_spec h
  have hnone : GeneralBonuses.none.checkShares = .ok GeneralBonuses.none := by decide +kernel
  have hagain := Bonus.settles.mapping.optional rfl hbonuses
  have hgeneralAgain := GeneralBonuses.settles.optional (GeneralBonuses.record_toValue hnone) hgeneral
  simp [toValue, ofRecord, Field.required, Field.optional, OrderedMap.get?, hagain, hgeneralAgain, Field.text,
    Field.word, Slot.ofName?_name]

/-! ## Families -/

theorem Family.list_tiersValue (tiers : List String) : Field.list Field.text (tiersValue tiers) = .ok tiers :=
  Checked.items_map fun _ _ => rfl

theorem Family.settles : Field.Settles ofValue toValue := by
  refine Field.settles_record fun r f h => ?_
  cases f with
  | equipment f =>
    obtain ⟨r', hr'⟩ := isRead_of_ofRecord h
    have hrule := EquipmentFamily.checkTiers_of_ofRecord hr'
    simp [toValue, ofRecord, EquipmentFamily.ofRecord, Field.required, OrderedMap.get?, Field.text, Field.word,
      Slot.ofName?_name, list_tiersValue, hrule, Checked.map]
  | building c =>
    obtain ⟨r', hr'⟩ := isRead_of_ofRecord h
    have hrule := BuildingChain.checkTiers_of_ofRecord hr'
    simp [toValue, ofRecord, BuildingChain.ofRecord, Field.required, OrderedMap.get?, Field.text, list_tiersValue,
      hrule, Checked.map]

/-! ## Actions -/

theorem Cooldown.settles : Field.Settles read Action.cooldownValue := by
  intro v c h
  cases c with
  | fixed x => rfl
  | byLevel table =>
    cases v with
    | mapping es =>
      obtain ⟨table', htable, hsame⟩ := Checked.map_eq_ok_iff.mp h
      cases hsame
      have hagain := Field.settles_binary64.levels (.mapping es) table htable
      change (Field.levels Field.binary64 (Action.levelsValue .float table)).map Cooldown.byLevel = _
      rw [hagain]
      rfl
    | _ =>
      obtain ⟨x, -, hsame⟩ := Checked.map_eq_ok_iff.mp h
      cases hsame

namespace Plan

theorem settles_block : Field.Settles block .mapping := by
  intro v es h
  have hagain : Field.mapping Field.any (.mapping (OrderedMap.mapValues id es)) = .ok es :=
    Field.settles_any.mapping v es h
  have hsame : OrderedMap.mapValues id es = es := by simp [OrderedMap.mapValues]
  rwa [hsame] at hagain

theorem settles_levels : Field.Settles (Field.levels block) (Action.levelsValue .mapping) := settles_block.levels

end Plan

/-- A plan that is complete is complete with its own building key. -/
theorem TieredPlan.complete_again {id : String} {key : Option String} {p q : TieredPlan}
    (h : p.complete id key = .ok q) :
    q = { p with buildingKey := q.buildingKey } ∧ p.complete id (some q.buildingKey) = .ok q := by
  unfold complete at h
  split at h
  next => cases h
  next found hfound =>
    split at h
    next hlevels =>
      cases h
      refine ⟨rfl, ?_⟩
      simp [complete, hlevels]
    next => cases h

theorem Action.settles_statsEffects :
    Field.Settles (Field.mappingBy (fun k => Field.word Stat.ofName? (.text k)) Field.amount)
      fun m => .mapping (m.map fun e => (e.1.name, Value.ofAmount e.2)) :=
  Field.settles_amount.mappingBy fun _ stat _ => Field.settles_word Stat.ofName?_name (.text stat.name) stat
    (by simp [Field.word, Stat.ofName?_name])

namespace Action

variable {r : Tree} {common : Plan → Action}

/-- What is read apart from the plan is kept beside any plan, and it is read again. -/
theorem readCommon_fields (h : readCommon r = .ok common) (plan : Plan) :
    (common plan).plan = plan ∧ ∀ rest, readCommon ((common plan).commonFields ++ rest) = .ok common := by
  obtain ⟨id, label, description, category, stats, crafting, building, hstats, rfl⟩ := readCommon_spec h
  have hcategory : Field.nullable Field.text (optionalText category) = .ok category := by cases category <;> rfl
  have hagain := settles_statsEffects.optional rfl hstats
  refine ⟨rfl, fun rest => ?_⟩
  simp [readCommon, commonFields, Field.required, Field.optional, OrderedMap.get?, Field.text, Field.binary64,
    hcategory, hagain]

theorem readFlat_fields {p : FlatPlan} (h : Plan.readFlat r = .ok p) (a : Action) :
    Plan.readFlat (a.commonFields ++ planFields (.flat p)) = .ok p := by
  obtain ⟨draft, cooldown, hdraft, -, rfl⟩ := Checked.seq_eq_ok_iff.mp h
  obtain ⟨draft₁, effects, hdraft₁, heffects, rfl⟩ := Checked.seq_eq_ok_iff.mp hdraft
  obtain ⟨draft₂, cost, hdraft₂, hcost, rfl⟩ := Checked.seq_eq_ok_iff.mp hdraft₁
  obtain ⟨showWhen, hshowWhen, rfl⟩ := Checked.map_eq_ok_iff.mp hdraft₂
  have hshow := (Plan.settles_block.nullable (by simp)).optional rfl hshowWhen
  have hprice := Plan.settles_block.optional rfl hcost
  have houtcome := Plan.settles_block.optional rfl heffects
  simp [Plan.readFlat, commonFields, planFields, Field.optional, OrderedMap.get?, Field.binary64, hshow, hprice,
    houtcome]

theorem readTiered_fields {key : Option String} {p : TieredPlan} (h : Plan.readTiered r = .ok (key, p)) (a : Action)
    (building : String) :
    Plan.readTiered (a.commonFields ++ planFields (.tiered { p with buildingKey := building })) =
      .ok (some building, p) := by
  obtain ⟨draft, cooldown, hdraft, hcooldown, hread⟩ := Checked.seq_eq_ok_iff.mp h
  obtain ⟨draft₁, effects, hdraft₁, heffects, rfl⟩ := Checked.seq_eq_ok_iff.mp hdraft
  obtain ⟨draft₂, cost, hdraft₂, hcost, rfl⟩ := Checked.seq_eq_ok_iff.mp hdraft₁
  obtain ⟨draft₃, showWhen, hdraft₃, hshowWhen, rfl⟩ := Checked.seq_eq_ok_iff.mp hdraft₂
  obtain ⟨key', -, rfl⟩ := Checked.map_eq_ok_iff.mp hdraft₃
  cases hread
  have hshow := Plan.settles_levels.optional rfl hshowWhen
  have hprice := Plan.settles_levels.optional rfl hcost
  have houtcome := Plan.settles_levels.optional rfl heffects
  have hpause := Cooldown.settles.optional rfl hcooldown
  simp [Plan.readTiered, commonFields, planFields, Field.optional, OrderedMap.get?, Field.nullable, Field.text,
    Checked.map, hshow, hprice, houtcome, hpause]

theorem get?_kind (a : Action) : OrderedMap.get? "kind" (a.commonFields ++ planFields a.plan) =
    some (.text (match a.plan with
      | .flat _ => "flat"
      | .tiered _ => "tiered")) := by
  cases h : a.plan <;> simp [commonFields, planFields, OrderedMap.get?]

theorem settles : Field.Settles ofValue toValue := by
  refine Field.settles_record fun r a h => ?_
  cases isReadAs_of_ofRecord h with
  | @flat common p hcommon hplan =>
    obtain ⟨hkept, hagain⟩ := readCommon_fields hcommon (.flat p)
    have hkind := get?_kind (common (.flat p))
    rw [hkept] at hkind
    have hread := readFlat_fields hplan (common (.flat p))
    simp [toValue, hkept, ofRecord, hkind, ofFlat, hagain, hread, Checked.map]
  | @tiered common key draft p hcommon hplan hcomplete =>
    obtain ⟨hkept, hagain⟩ := readCommon_fields hcommon (.tiered p)
    have hkind := get?_kind (common (.tiered p))
    rw [hkept] at hkind
    obtain ⟨hsame, hcompleteAgain⟩ := TieredPlan.complete_again hcomplete
    have hread := readTiered_fields hplan (common (.tiered p)) p.buildingKey
    rw [← hsame] at hread
    simp [toValue, hkept, ofRecord, hkind, ofTiered, hagain, hread, hcompleteAgain, Checked.map]

end Action

/-! ## All definitions -/

namespace Definition

/-- The record of a definition with every field filled in. -/
def toValue : Definition → Value
  | .action a => a.toValue
  | .item i => i.toValue
  | .family f => f.toValue

theorem settles (group : RecordGroup) : Field.Settles (ofValue group) toValue := by
  intro v d h
  cases group with
  | actions =>
    obtain ⟨a, ha, rfl⟩ := Checked.map_eq_ok_iff.mp h
    simp [ofValue, toValue, Action.settles v a ha, Checked.map]
  | items =>
    obtain ⟨i, hi, rfl⟩ := Checked.map_eq_ok_iff.mp h
    simp [ofValue, toValue, Item.settles v i hi, Checked.map]
  | families =>
    obtain ⟨f, hf, rfl⟩ := Checked.map_eq_ok_iff.mp h
    simp [ofValue, toValue, Family.settles v f hf, Checked.map]

/-- The record of a definition names its kind, so nothing is added to it. -/
theorem exists_fields {group : RecordGroup} {v : Value} {d : Definition} (h : ofValue group v = .ok d) :
    ∃ fields, d.toValue = .mapping fields ∧ group.tagged fields = fields := by
  cases group with
  | actions =>
    obtain ⟨a, -, rfl⟩ := Checked.map_eq_ok_iff.mp h
    have hkind : OrderedMap.contains "kind" (a.commonFields ++ Action.planFields a.plan) = true := by
      rw [OrderedMap.contains, Action.get?_kind, Option.isSome_some]
    exact ⟨_, rfl, if_pos hkind⟩
  | items =>
    obtain ⟨i, -, rfl⟩ := Checked.map_eq_ok_iff.mp h
    exact ⟨_, rfl, rfl⟩
  | families =>
    obtain ⟨f, -, rfl⟩ := Checked.map_eq_ok_iff.mp h
    cases f <;> exact ⟨_, rfl, rfl⟩

/-- Whatever record a definition is loaded from, the record that it is written as is loaded as the very same
definition, and it names its kind itself. -/
theorem loaded_again {group : RecordGroup} {raw : Tree} {d : Definition}
    (h : ofValue group (.mapping (group.tagged raw)) = .ok d) :
    ∃ fields, d.toValue = .mapping fields ∧ group.tagged fields = fields ∧
      ofValue group (.mapping (group.tagged fields)) = .ok d := by
  obtain ⟨fields, hfields, htagged⟩ := exists_fields h
  refine ⟨fields, hfields, htagged, ?_⟩
  rw [htagged, ← hfields]
  exact settles group _ d h

/-- A building by its flag, with numbers, levels and cooldowns in unusual spellings. -/
def loftRecord : Tree :=
  [("building", .int 1), ("label", .text "Loft"), ("id", .text "buildLoft"),
    ("statsEffects",
      .mapping [("luck", .bool true), ("madness", .text " 2.5 "), ("strength", .float (.infinity true))]),
    ("cost", .mapping [("01", .mapping [("resources.wood", .float Binary64.one)]), ("+1_0.0", .mapping [])]),
    ("effects", .mapping [("1", .mapping [("resources.stone", .text "random(1,2)"), ("flags.loft", .bool true)])]),
    ("cooldown", .mapping [(" -3 ", .text "1e1"), ("1", .bool false)])]

def loft : Action where
  id := "buildLoft"
  label := "Loft"
  description := ""
  category := none
  statsEffects :=
    [(.luck, .int 1), (.madness, .float (Binary64.nearest (5 / 2))), (.strength, .float (.infinity true))]
  craftingCostReduction := Binary64.zero
  buildingCostReduction := Binary64.zero
  plan := .tiered {
    buildingKey := "loft"
    showWhen := []
    cost := [(1, [("resources.wood", .float Binary64.one)]), (10, [])]
    effects := [(1, [("resources.stone", .text "random(1,2)"), ("flags.loft", .bool true)])]
    cooldown := .byLevel [(-3, Binary64.ofInt 10), (1, Binary64.zero)] }

theorem loft_is_loaded_again :
    ofValue .actions (.mapping (RecordGroup.tagged .actions loftRecord)) = .ok (.action loft) ∧
      ∃ fields, (action loft).toValue = .mapping fields ∧ RecordGroup.tagged .actions fields = fields ∧
        ofValue .actions (.mapping (RecordGroup.tagged .actions fields)) = .ok (.action loft) := by
  have hread : ofValue .actions (.mapping (RecordGroup.tagged .actions loftRecord)) = .ok (.action loft) := by
    decide +kernel
  exact ⟨hread, loaded_again hread⟩

end Definition

end SurvivalRules
