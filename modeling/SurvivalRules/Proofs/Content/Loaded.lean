import SurvivalRules.Content.Pack
import SurvivalRules.Proofs.Drawing
import SurvivalRules.Proofs.OrderedMap

/-!
# Content that is loaded

What is checked of each record when content is loaded holds of the content. Every item of it has cost reductions
that are shares, and no multiplier at or below zero.
-/
namespace SurvivalRules

namespace Checked

variable {α β : Type} {b : β}

theorem map_eq_ok_iff {f : α → β} {x : Checked α} : f <$> x = .ok b ↔ ∃ a, x = .ok a ∧ f a = b := by
  cases x <;> simp [Functor.map, map]

theorem seq_eq_ok_iff {f : Checked (α → β)} {x : Checked α} :
    f <*> x = .ok b ↔ ∃ g a, f = .ok g ∧ x = .ok a ∧ g a = b :=
  both_eq_ok_iff

theorem andThen_eq_ok_iff {x : Checked α} {rule : α → Checked β} :
    x.andThen rule = .ok b ↔ ∃ a, x = .ok a ∧ rule a = .ok b := by
  cases x <;> simp [andThen]

/-- A rule that gives back what it is asked about has been asked about what it gives. -/
theorem of_andThen_rule {x : Checked α} {rule : α → Checked α} {a : α}
    (hrule : ∀ draft, rule draft = .ok a → draft = a) (h : x.andThen rule = .ok a) : x = .ok a ∧ rule a = .ok a := by
  obtain ⟨draft, hdraft, hok⟩ := andThen_eq_ok_iff.mp h
  cases hrule draft hok
  exact ⟨hdraft, hok⟩

theorem exists_of_mem_entries {κ : Type} {readKey : String → Checked κ} {read : Value → Checked α}
    {es : List (String × Value)} {out : List (κ × α)} (h : entries readKey read es = .ok out) :
    ∀ e ∈ out, (∃ k, readKey k = .ok e.1) ∧ ∃ v, read v = .ok e.2 := by
  induction es generalizing out with
  | nil =>
    cases h
    simp
  | cons e rest ih =>
    obtain ⟨first, more, hfirst, hmore, rfl⟩ := both_eq_ok_iff.mp h
    obtain ⟨k, a, hk, ha, rfl⟩ := both_eq_ok_iff.mp hfirst
    exact List.forall_mem_cons.mpr ⟨⟨⟨e.1, hk⟩, e.2, ha⟩, ih hmore⟩

end Checked

namespace Field

variable {α : Type} {read : Value → Checked α}

theorem optional_eq_ok {r : Tree} {name : String} {default a : α} (h : optional r name default read = .ok a) :
    a = default ∨ ∃ v, read v = .ok a := by
  unfold optional at h
  split at h
  next v _ =>
    cases hread : read v with
    | ok b =>
      rw [hread] at h
      cases h
      exact Or.inr ⟨v, hread⟩
    | invalid e =>
      rw [hread] at h
      cases h
  next =>
    cases h
    exact Or.inl rfl

/-- Every key and every value of a mapping has been read. -/
theorem exists_of_mem_mappingBy {κ : Type} [DecidableEq κ] {readKey : String → Checked κ} {v : Value}
    {m : OrderedMap κ α} (h : mappingBy readKey read v = .ok m) :
    ∀ e ∈ m, (∃ k, readKey k = .ok e.1) ∧ ∃ v, read v = .ok e.2 := by
  unfold mappingBy at h
  split at h
  next es =>
    obtain ⟨out, hout, rfl⟩ := Checked.map_eq_ok_iff.mp h
    intro e he
    exact Checked.exists_of_mem_entries hout e ((OrderedMap.mem_overlay he).resolve_left (by simp))
  next => cases h

theorem exists_of_mem_mapping {v : Value} {m : OrderedMap String α} (h : mapping read v = .ok m) :
    ∀ e ∈ m, ∃ v, read v = .ok e.2 :=
  fun e he => (exists_of_mem_mappingBy h e he).2

theorem nodup_keys_of_mappingBy {κ : Type} [DecidableEq κ] {readKey : String → Checked κ} {v : Value}
    {m : OrderedMap κ α} (h : mappingBy readKey read v = .ok m) : (OrderedMap.keys m).Nodup := by
  unfold mappingBy at h
  split at h
  next es =>
    obtain ⟨out, -, rfl⟩ := Checked.map_eq_ok_iff.mp h
    exact OrderedMap.nodup_keys_ofList out
  next => cases h

theorem exists_of_record {read : Tree → Checked α} {v : Value} {a : α} (h : record read v = .ok a) :
    ∃ r, read r = .ok a := by
  cases v with
  | mapping es => exact ⟨es, h⟩
  | _ => cases h

end Field

theorem Bonus.ofRecord_spec {r : Tree} {b : Bonus} (h : Bonus.ofRecord r = .ok b) :
    Field.optional r "resourceBonus" [] (Field.mapping Field.amount) = .ok b.resourceBonus ∧
      checkMultiplier b = .ok b := by
  obtain ⟨hdraft, hrule⟩ := Checked.of_andThen_rule (fun draft hok => by
    unfold checkMultiplier at hok
    split at hok
    · cases hok
    · exact Checked.ok.inj hok) h
  obtain ⟨draft₁, chance, hdraft₁, -, rfl⟩ := Checked.seq_eq_ok_iff.mp hdraft
  obtain ⟨draft₂, cooldown, hdraft₂, -, rfl⟩ := Checked.seq_eq_ok_iff.mp hdraft₁
  obtain ⟨draft₃, multiplier, hdraft₃, -, rfl⟩ := Checked.seq_eq_ok_iff.mp hdraft₂
  obtain ⟨gains, hgains, rfl⟩ := Checked.map_eq_ok_iff.mp hdraft₃
  exact ⟨hgains, hrule⟩

theorem Bonus.multiplier_of_ofRecord {r : Tree} {b : Bonus} (h : Bonus.ofRecord r = .ok b) :
    (Amount.float b.resourceMultiplier).le .zero = false := by
  have hrule := (Bonus.ofRecord_spec h).2
  unfold checkMultiplier at hrule
  split at hrule
  next => cases hrule
  next hnot => exact Bool.eq_false_iff.mpr hnot

namespace GeneralBonuses

/-- Both cost reductions are shares of a price. -/
def HasShares (g : GeneralBonuses) : Prop :=
  isShare g.craftingCostReduction = true ∧ isShare g.buildingCostReduction = true

instance (g : GeneralBonuses) : Decidable g.HasShares := inferInstanceAs (Decidable (_ ∧ _))

theorem hasShares_none : none.HasShares := by
  decide +kernel

theorem isShare_of_shareFault {name : String} {x : Binary64} (h : shareFault name x = []) :
    isShare x = true := by
  unfold shareFault at h
  split at h
  next hshare => exact hshare
  next => cases h

theorem checkShares_of_ofRecord {r : Tree} {g : GeneralBonuses} (h : ofRecord r = .ok g) : checkShares g = .ok g := by
  refine (Checked.of_andThen_rule (fun draft hok => ?_) h).2
  unfold checkShares at hok
  split at hok
  · exact Checked.ok.inj hok
  · cases hok

theorem hasShares_of_ofRecord {r : Tree} {g : GeneralBonuses} (h : ofRecord r = .ok g) : g.HasShares := by
  have hrule := checkShares_of_ofRecord h
  unfold checkShares at hrule
  split at hrule
  next hfaults =>
    obtain ⟨hcrafting, hbuilding⟩ := List.append_eq_nil_iff.mp hfaults
    exact ⟨isShare_of_shareFault hcrafting, isShare_of_shareFault hbuilding⟩
  next => cases hrule

end GeneralBonuses

/-- An item that has passed its checks. -/
structure Item.IsChecked (i : Item) : Prop where
  multipliers : ∀ e ∈ i.actionBonuses, (Amount.float e.2.resourceMultiplier).le .zero = false
  shares : i.generalBonuses.HasShares

theorem Item.ofRecord_spec {r : Tree} {i : Item} (h : Item.ofRecord r = .ok i) :
    Field.optional r "actionBonuses" [] (Field.mapping (Field.record Bonus.ofRecord)) = .ok i.actionBonuses ∧
      Field.optional r "generalBonuses" GeneralBonuses.none (Field.record GeneralBonuses.ofRecord) =
        .ok i.generalBonuses := by
  obtain ⟨draft, general, hdraft, hgeneral, rfl⟩ := Checked.seq_eq_ok_iff.mp h
  obtain ⟨draft₁, bonuses, hdraft₁, hbonuses, rfl⟩ := Checked.seq_eq_ok_iff.mp hdraft
  obtain ⟨draft₂, slot, hdraft₂, -, rfl⟩ := Checked.seq_eq_ok_iff.mp hdraft₁
  obtain ⟨draft₃, description, hdraft₃, -, rfl⟩ := Checked.seq_eq_ok_iff.mp hdraft₂
  obtain ⟨draft₄, name, hdraft₄, -, rfl⟩ := Checked.seq_eq_ok_iff.mp hdraft₃
  obtain ⟨id, -, rfl⟩ := Checked.map_eq_ok_iff.mp hdraft₄
  exact ⟨hbonuses, hgeneral⟩

/-- The bonuses of an item are read from records, too. -/
theorem Item.bonuses_of_ofRecord {r : Tree} {i : Item} (h : Item.ofRecord r = .ok i) :
    (∀ e ∈ i.actionBonuses, ∃ r', Bonus.ofRecord r' = .ok e.2) ∧
      (i.generalBonuses = GeneralBonuses.none ∨ ∃ r', GeneralBonuses.ofRecord r' = .ok i.generalBonuses) := by
  obtain ⟨hbonuses, hgeneral⟩ := Item.ofRecord_spec h
  refine ⟨fun e he => ?_, (Field.optional_eq_ok hgeneral).imp_right fun ⟨v, hread⟩ => Field.exists_of_record hread⟩
  rcases Field.optional_eq_ok hbonuses with hnil | ⟨v, hread⟩
  · rw [hnil] at he
    cases he
  · obtain ⟨w, hw⟩ := Field.exists_of_mem_mapping hread e he
    exact Field.exists_of_record hw

theorem Item.isChecked_of_ofRecord {r : Tree} {i : Item} (h : Item.ofRecord r = .ok i) : i.IsChecked := by
  obtain ⟨hbonuses, hgeneral⟩ := Item.bonuses_of_ofRecord h
  refine ⟨fun e he => ?_, ?_⟩
  · obtain ⟨r', hr'⟩ := hbonuses e he
    exact Bonus.multiplier_of_ofRecord hr'
  · rcases hgeneral with hnone | ⟨r', hr'⟩
    · exact hnone ▸ GeneralBonuses.hasShares_none
    · exact GeneralBonuses.hasShares_of_ofRecord hr'

/-- A bonus names a resource once. -/
theorem Bonus.nodup_resourceBonus {r : Tree} {b : Bonus} (h : Bonus.ofRecord r = .ok b) :
    (OrderedMap.keys b.resourceBonus).Nodup := by
  rcases Field.optional_eq_ok (Bonus.ofRecord_spec h).1 with hnil | ⟨v, hread⟩
  · rw [hnil]
    exact List.nodup_nil
  · exact Field.nodup_keys_of_mappingBy hread

/-- What a fold through fallible steps keeps in every step. -/
theorem foldlM_induction {ε α β : Type} {P : β → Prop} {f : β → α → Except ε β} {l : List α} {b b' : β}
    (hf : ∀ b a b', P b → f b a = .ok b' → P b') (hb : P b) (h : l.foldlM f b = .ok b') : P b' := by
  induction l generalizing b with
  | nil =>
    cases pure_eq_ok_iff.mp h
    exact hb
  | cons a rest ih =>
    rw [List.foldlM_cons] at h
    obtain ⟨b₁, hfirst, hrest⟩ := bind_eq_ok_iff.mp h
    exact ih (hf b a b₁ hb hfirst) hrest

/-- A fold over joined lists is a fold of folds. -/
theorem foldlM_flatMap {ε α β γ : Type} (f : γ → β → Except ε γ) (g : α → List β) (l : List α) (start : γ) :
    (l.flatMap g).foldlM f start = l.foldlM (fun found a => (g a).foldlM f found) start := by
  induction l generalizing start with
  | nil => rfl
  | cons a rest ih =>
    rw [List.flatMap_cons, List.foldlM_append, List.foldlM_cons]
    exact congrArg _ (funext ih)

/-- The entries that a record of the group is checked by. -/
def RecordGroup.tagged (group : RecordGroup) (es : Tree) : Tree :=
  match group with
  | .actions => Action.tag es
  | _ => es

theorem Pack.loadRecord_mapping (group : RecordGroup) (file : String) (c : Content) (es : Tree) :
    Pack.loadRecord group file c (.mapping es) =
      c.addChecked (some file) (Definition.ofValue group (.mapping (group.tagged es))) := by
  cases group <;> rfl

theorem nodup_eraseDups : ∀ names : List String, names.eraseDups.Nodup
  | [] => List.nodup_nil
  | name :: rest => by
    rw [List.eraseDups_cons]
    exact List.nodup_cons.mpr ⟨by simp, nodup_eraseDups (rest.filter fun other => !other == name)⟩
termination_by names => names.length
decreasing_by exact Nat.lt_succ_of_le (List.length_filter_le _ _)

theorem nodup_of_not_hasRepeat {names : List String} (h : hasRepeat names = false) : names.Nodup := by
  have hlength : names.eraseDups.length = names.length := by simpa [hasRepeat] using h
  have hsubset : names.eraseDups ⊆ names := fun name hname => List.mem_eraseDups.mp hname
  have hperm := (List.subperm_of_subset (nodup_eraseDups names) hsubset).perm_of_length_le hlength.ge
  exact hperm.nodup_iff.mp (nodup_eraseDups names)

theorem EquipmentFamily.checkTiers_of_ofRecord {r : Tree} {f : EquipmentFamily} (h : ofRecord r = .ok f) :
    checkTiers f = .ok f := by
  refine (Checked.of_andThen_rule (fun draft hok => ?_) h).2
  unfold checkTiers at hok
  split_ifs at hok
  · cases hok
  · cases hok
  · exact Checked.ok.inj hok

theorem EquipmentFamily.nodup_tiers {r : Tree} {f : EquipmentFamily} (h : ofRecord r = .ok f) : f.tiers.Nodup := by
  have hrule := checkTiers_of_ofRecord h
  unfold checkTiers at hrule
  split_ifs at hrule with hempty hrepeat
  · cases hrule
  · cases hrule
  · exact nodup_of_not_hasRepeat (by simpa using hrepeat)

theorem BuildingChain.checkTiers_of_ofRecord {r : Tree} {c : BuildingChain} (h : ofRecord r = .ok c) :
    checkTiers c = .ok c := by
  refine (Checked.of_andThen_rule (fun draft hok => ?_) h).2
  unfold checkTiers at hok
  split_ifs at hok
  · cases hok
  · cases hok
  · exact Checked.ok.inj hok

theorem BuildingChain.nodup_tiers {r : Tree} {b : BuildingChain} (h : ofRecord r = .ok b) : b.tiers.Nodup := by
  have hrule := checkTiers_of_ofRecord h
  unfold checkTiers at hrule
  split_ifs at hrule with hempty hrepeat
  · cases hrule
  · cases hrule
  · exact nodup_of_not_hasRepeat (by simpa using hrepeat)

namespace Action

variable {r : Tree} {common : Plan → Action}

/-- What the statistics that an action raises are read by. -/
def statsField (r : Tree) : Checked (OrderedMap Stat Amount) :=
  Field.optional r "statsEffects" [] (Field.mappingBy (fun k => Field.word Stat.ofName? (.text k)) Field.amount)

theorem readCommon_spec (h : readCommon r = .ok common) :
    ∃ id label description category stats crafting building, statsField r = .ok stats ∧
      common = Action.mk id label description category stats crafting building := by
  obtain ⟨draft, building, hdraft, -, rfl⟩ := Checked.seq_eq_ok_iff.mp h
  obtain ⟨draft₁, crafting, hdraft₁, -, rfl⟩ := Checked.seq_eq_ok_iff.mp hdraft
  obtain ⟨draft₂, stats, hdraft₂, hstats, rfl⟩ := Checked.seq_eq_ok_iff.mp hdraft₁
  obtain ⟨draft₃, category, hdraft₃, -, rfl⟩ := Checked.seq_eq_ok_iff.mp hdraft₂
  obtain ⟨draft₄, description, hdraft₄, -, rfl⟩ := Checked.seq_eq_ok_iff.mp hdraft₃
  obtain ⟨draft₅, label, hdraft₅, -, rfl⟩ := Checked.seq_eq_ok_iff.mp hdraft₄
  obtain ⟨id, -, rfl⟩ := Checked.map_eq_ok_iff.mp hdraft₅
  exact ⟨id, label, description, category, stats, crafting, building, hstats, rfl⟩

/-- An action is read as what is common to all of them, with a plan of the kind that its record names. -/
inductive IsReadAs (r : Tree) : Action → Prop
  | flat {common : Plan → Action} {p : FlatPlan} (hcommon : readCommon r = .ok common)
      (hplan : Plan.readFlat r = .ok p) : IsReadAs r (common (.flat p))
  | tiered {common : Plan → Action} {key : Option String} {draft p : TieredPlan}
      (hcommon : readCommon r = .ok common) (hplan : Plan.readTiered r = .ok (key, draft))
      (hcomplete : draft.complete (common (.tiered draft)).id key = .ok p) : IsReadAs r (common (.tiered p))

theorem isReadAs_of_ofRecord {a : Action} (h : ofRecord r = .ok a) : IsReadAs r a := by
  unfold ofRecord at h
  split at h
  next =>
    split_ifs at h
    · obtain ⟨common, plan, hcommon, hplan, rfl⟩ := Checked.seq_eq_ok_iff.mp h
      obtain ⟨p, hp, rfl⟩ := Checked.map_eq_ok_iff.mp hplan
      exact .flat hcommon hp
    · obtain ⟨⟨common, key, draft⟩, hboth, hplan⟩ := Checked.andThen_eq_ok_iff.mp h
      obtain ⟨common', tiered, hcommon, htiered, hpair⟩ := Checked.both_eq_ok_iff.mp hboth
      cases hpair
      obtain ⟨p, hp, rfl⟩ := Checked.map_eq_ok_iff.mp hplan
      exact .tiered hcommon htiered hp
    · cases h
  next => cases h

/-- A name is listed once among the statistics that an action raises. -/
theorem nodup_statsEffects {a : Action} (h : ofRecord r = .ok a) : (OrderedMap.keys a.statsEffects).Nodup := by
  have hcommon : ∀ common plan, readCommon r = .ok common → (OrderedMap.keys (common plan).statsEffects).Nodup := by
    intro common plan hread
    obtain ⟨_, _, _, _, stats, _, _, hstats, rfl⟩ := readCommon_spec hread
    rcases Field.optional_eq_ok hstats with rfl | ⟨v, hv⟩
    · exact List.nodup_nil
    · exact Field.nodup_keys_of_mappingBy hv
  cases isReadAs_of_ofRecord h with
  | flat hread => exact hcommon _ _ hread
  | tiered hread => exact hcommon _ _ hread

end Action

/-- A definition is what some record is read as. -/
def Definition.IsRead : Definition → Prop
  | .action a => ∃ r, Action.ofRecord r = .ok a
  | .item i => ∃ r, Item.ofRecord r = .ok i
  | .family (.equipment f) => ∃ r, EquipmentFamily.ofRecord r = .ok f
  | .family (.building b) => ∃ r, BuildingChain.ofRecord r = .ok b

theorem Family.isRead_of_ofRecord {r : Tree} {f : Family} (h : ofRecord r = .ok f) :
    (Definition.family f).IsRead := by
  unfold ofRecord at h
  split at h
  next =>
    split_ifs at h
    · obtain ⟨e, he, rfl⟩ := Checked.map_eq_ok_iff.mp h
      exact ⟨r, he⟩
    · obtain ⟨b, hb, rfl⟩ := Checked.map_eq_ok_iff.mp h
      exact ⟨r, hb⟩
    · cases h
  next => cases h

theorem Definition.isRead_of_ofValue {group : RecordGroup} {v : Value} {d : Definition}
    (h : ofValue group v = .ok d) : d.IsRead := by
  cases group with
  | actions =>
    obtain ⟨a, ha, rfl⟩ := Checked.map_eq_ok_iff.mp h
    exact Field.exists_of_record ha
  | items =>
    obtain ⟨i, hi, rfl⟩ := Checked.map_eq_ok_iff.mp h
    exact Field.exists_of_record hi
  | families =>
    obtain ⟨f, hf, rfl⟩ := Checked.map_eq_ok_iff.mp h
    obtain ⟨r, hr⟩ := Field.exists_of_record hf
    exact Family.isRead_of_ofRecord hr

namespace Content

variable {c c' : Content} {group : RecordGroup} {v : Value}

/-- Content that has been loaded, from records in memory or from a pack. -/
def IsLoaded (c : Content) : Prop :=
  (∃ actions items families, ofRecords actions items families = .ok c) ∨ ∃ p : Pack, p.load = .ok c

/-- Every definition has been read and is filed under its id. -/
structure IsFiled (c : Content) : Prop where
  actions : ∀ e ∈ c.actions, e.1 = e.2.id ∧ (Definition.action e.2).IsRead
  items : ∀ e ∈ c.items, e.1 = e.2.id ∧ (Definition.item e.2).IsRead
  families : ∀ e ∈ c.families, e.1 = e.2.id ∧ (Definition.family (.equipment e.2)).IsRead
  chains : ∀ e ∈ c.chains, e.1 = e.2.id ∧ (Definition.family (.building e.2)).IsRead

theorem isFiled_empty : empty.IsFiled := by
  constructor <;> simp [empty]

theorem IsFiled.insert (hc : c.IsFiled) {d : Definition} (hd : d.IsRead) : (c.insert d).IsFiled := by
  have hentry : ∀ {α : Type} {P : String × α → Prop} {m : OrderedMap String α} {k : String} {a : α},
      (∀ e ∈ m, P e) → P (k, a) → ∀ e ∈ OrderedMap.insert k a m, P e := by
    intro α P m k a hm hnew e he
    rcases OrderedMap.mem_insert he with rfl | hmem
    · exact hnew
    · exact hm e hmem
  cases d with
  | action a => exact { hc with actions := hentry hc.actions ⟨rfl, hd⟩ }
  | item i => exact { hc with items := hentry hc.items ⟨rfl, hd⟩ }
  | family f =>
    cases f with
    | equipment f => exact { hc with families := hentry hc.families ⟨rfl, hd⟩ }
    | building b => exact { hc with chains := hentry hc.chains ⟨rfl, hd⟩ }

theorem IsFiled.addChecked {file : Option String} (hc : c.IsFiled)
    (h : c.addChecked file (Definition.ofValue group v) = .ok c') : c'.IsFiled := by
  unfold Content.addChecked at h
  split at h
  next d hd =>
    unfold add at h
    split at h
    · cases h
    · cases h
      exact hc.insert (Definition.isRead_of_ofValue hd)
  next => cases h

theorem isFiled_ofRecords {actions items families : List Value}
    (h : ofRecords actions items families = .ok c) : c.IsFiled := by
  have hstep : ∀ group (b : Content) (v : Value) (b' : Content), b.IsFiled →
      addRecord group b v = .ok b' → b'.IsFiled := by
    intro group b v b' hb hadd
    unfold addRecord at hadd
    split at hadd
    · exact hb.addChecked hadd
    · cases hadd
  obtain ⟨c₁, hactions, h⟩ := bind_eq_ok_iff.mp h
  obtain ⟨c₂, hitems, hfamilies⟩ := bind_eq_ok_iff.mp h
  exact foldlM_induction (hstep .families)
    (foldlM_induction (hstep .items) (foldlM_induction (hstep .actions) isFiled_empty hactions) hitems)
    hfamilies

theorem isFiled_load {p : Pack} (h : p.load = .ok c) : c.IsFiled := by
  refine foldlM_induction (fun b group b' hb hgroup => ?_) isFiled_empty h
  refine foldlM_induction (fun b f b' hb hfile => ?_) hb hgroup
  obtain ⟨records, -, hrecords⟩ := bind_eq_ok_iff.mp hfile
  refine foldlM_induction (fun b v b' hb hrecord => ?_) hb hrecords
  unfold Pack.loadRecord at hrecord
  split at hrecord
  · cases hrecord
  · exact hb.addChecked hrecord

theorem IsLoaded.isFiled (h : c.IsLoaded) : c.IsFiled := by
  rcases h with ⟨actions, items, families, h⟩ | ⟨p, h⟩
  · exact isFiled_ofRecords h
  · exact isFiled_load h

/-- Every item has passed its checks. -/
def ItemsChecked (c : Content) : Prop := ∀ i ∈ OrderedMap.values c.items, i.IsChecked

theorem IsFiled.itemsChecked (hc : c.IsFiled) : c.ItemsChecked := by
  intro i hi
  obtain ⟨e, he, rfl⟩ := List.mem_map.mp hi
  obtain ⟨-, r, hr⟩ := hc.items e he
  exact Item.isChecked_of_ofRecord hr

theorem IsFiled.nodup_resourceBonus (hc : c.IsFiled) {i : Item} (hi : i ∈ OrderedMap.values c.items) :
    ∀ e ∈ i.actionBonuses, (OrderedMap.keys e.2.resourceBonus).Nodup := by
  obtain ⟨f, hf, rfl⟩ := List.mem_map.mp hi
  obtain ⟨-, r, hr⟩ := hc.items f hf
  intro e he
  obtain ⟨r', hr'⟩ := (Item.bonuses_of_ofRecord hr).1 e he
  exact Bonus.nodup_resourceBonus hr'

theorem IsFiled.nodup_statsEffects (hc : c.IsFiled) {a : Action} (ha : a ∈ OrderedMap.values c.actions) :
    (OrderedMap.keys a.statsEffects).Nodup := by
  obtain ⟨e, he, rfl⟩ := List.mem_map.mp ha
  obtain ⟨-, r, hr⟩ := hc.actions e he
  exact Action.nodup_statsEffects hr

theorem IsFiled.nodup_familyTiers (hc : c.IsFiled) {f : EquipmentFamily} (hf : f ∈ OrderedMap.values c.families) :
    f.tiers.Nodup := by
  obtain ⟨e, he, rfl⟩ := List.mem_map.mp hf
  obtain ⟨-, r, hr⟩ := hc.families e he
  exact EquipmentFamily.nodup_tiers hr

theorem IsFiled.nodup_chainTiers (hc : c.IsFiled) {b : BuildingChain} (hb : b ∈ OrderedMap.values c.chains) :
    b.tiers.Nodup := by
  obtain ⟨e, he, rfl⟩ := List.mem_map.mp hb
  obtain ⟨-, r, hr⟩ := hc.chains e he
  exact BuildingChain.nodup_tiers hr

end Content

end SurvivalRules
