import SurvivalRules.Proofs.Content.Loaded

/-!
# Content split over files

Loading a pack gives what its records give in memory, in the order in which the files hold them. An id that is
taken, or a record that fails its checks, ends both at the same record. So it does not matter how the records are
split over files.
-/
namespace SurvivalRules

theorem mapError_bind {ε ε' α β : Type} (g : ε → ε') (x : Except ε α) (f : α → Except ε β) :
    (x >>= f).mapError g = x.mapError g >>= fun a => (f a).mapError g := by
  cases x <;> rfl

/-- A fold whose errors are told in another way takes the steps that tell them so. -/
theorem mapError_foldlM {ε ε' α β : Type} (g : ε → ε') {f : β → α → Except ε β} {f' : β → α → Except ε' β}
    {l : List α} (h : ∀ a ∈ l, ∀ b, (f b a).mapError g = f' b a) (b : β) :
    (l.foldlM f b).mapError g = l.foldlM f' b := by
  induction l generalizing b with
  | nil => rfl
  | cons a rest ih =>
    obtain ⟨ha, hrest⟩ := List.forall_mem_cons.mp h
    rw [List.foldlM_cons, List.foldlM_cons, mapError_bind, ha]
    exact congrArg _ (funext (ih hrest))

/-- The error of a fold is that of one of its steps. -/
theorem of_foldlM_error {ε α β : Type} {P : ε → Prop} {f : β → α → Except ε β} {l : List α} {b : β} {e : ε}
    (hf : ∀ a ∈ l, ∀ b e, f b a = .error e → P e) (h : l.foldlM f b = .error e) : P e := by
  induction l generalizing b with
  | nil => cases h
  | cons a rest ih =>
    obtain ⟨ha, hrest⟩ := List.forall_mem_cons.mp hf
    rw [List.foldlM_cons] at h
    cases hfirst : f b a with
    | error cause =>
      rw [hfirst] at h
      cases h
      exact ha b e hfirst
    | ok b' =>
      rw [hfirst] at h
      exact ih hrest h

/-- A mapping with entries. -/
def Value.isObject : Value → Bool
  | .mapping es => !es.isEmpty
  | _ => false

namespace ContentError

/-- The same error as content in memory gives it, without the file. -/
def withoutFile : ContentError → ContentError
  | .duplicate group id _ => .duplicate group id none
  | e => e

/-- The errors of records that could be read. -/
inductive IsOfRecord : ContentError → Prop
  | invalid (faults : Invalid) : IsOfRecord (.invalid faults)
  | duplicate (group : RecordGroup) (id : String) (file : Option String) : IsOfRecord (.duplicate group id file)

theorem isOfRecord_of_withoutFile {e : ContentError} (h : e.withoutFile.IsOfRecord) : e.IsOfRecord := by
  cases e with
  | invalid faults => exact .invalid faults
  | duplicate group id file => exact .duplicate group id file
  | unreadableFile cause => cases h
  | fault cause => cases h

end ContentError

namespace PackFile

/-- The values of a file that holds one or a list of them. -/
def objects (f : PackFile) : List Value :=
  match f.read with
  | .ok (.list vs) => vs
  | .ok v => [v]
  | .error _ => []

/-- A file of one object or of a list of objects. -/
def holdsObjects (f : PackFile) : Bool := f.read.isOk && f.objects.all Value.isObject

end PackFile

namespace Pack

def HoldsObjects (p : Pack) : Prop := ∀ group, ∀ f ∈ p.filesOf group, f.holdsObjects = true

/-- The objects of a folder in the order of the paths. -/
def objectsOf (p : Pack) (group : RecordGroup) : List Value := (p.filesOf group).flatMap PackFile.objects

end Pack

/-! ## Records of a file -/

section

variable {f : PackFile} {group : RecordGroup} {v : Value} {c : Content}

theorem isVacant_of_isObject (h : v.isObject = true) : v.isVacant = false := by
  cases v with
  | mapping es => simpa [Value.isObject, Value.isVacant] using h
  | _ => cases h

theorem isObject_of_mem_objects (h : f.holdsObjects = true) : ∀ v ∈ f.objects, v.isObject = true :=
  List.all_eq_true.mp (Bool.and_eq_true_iff.mp h).2

/-- No object is left out. -/
theorem records_of_holdsObjects (h : f.holdsObjects = true) : f.records = .ok f.objects := by
  have hobjects := isObject_of_mem_objects h
  unfold PackFile.records
  unfold PackFile.objects at hobjects ⊢
  cases hread : f.read with
  | error cause => simp [PackFile.holdsObjects, hread, Except.isOk, Except.toBool] at h
  | ok v =>
    rw [hread] at hobjects
    cases v with
    | list vs =>
      have hkept : ∀ v ∈ vs, (!v.isVacant) = true := fun v hv => by
        rw [isVacant_of_isObject (hobjects v hv)]
        rfl
      exact congrArg Except.ok (List.filter_eq_self.mpr hkept)
    | mapping es =>
      have hfilled := isVacant_of_isObject (hobjects _ List.mem_cons_self)
      simp [PackFile.recordsOf, hfilled]
    | _ => cases hobjects _ List.mem_cons_self

theorem Content.addRecord_mapping (c : Content) (es : Tree) : c.addRecord group (.mapping es) =
    c.addChecked none (Definition.ofValue group (.mapping (group.tagged es))) := by
  cases group <;> rfl

theorem mapError_addChecked (file : Option String) (d : Checked Definition) :
    (c.addChecked file d).mapError ContentError.withoutFile = c.addChecked none d := by
  cases d with
  | invalid faults => rfl
  | ok d =>
    simp only [Content.addChecked, Content.add]
    split <;> rfl

theorem mapError_loadRecord (file : String) (h : v.isObject = true) (c : Content) :
    (Pack.loadRecord group file c v).mapError ContentError.withoutFile = c.addRecord group v := by
  cases v with
  | mapping es => rw [Pack.loadRecord_mapping, mapError_addChecked, Content.addRecord_mapping]
  | _ => cases h

theorem isOfRecord_of_addRecord {e : ContentError} (h : v.isObject = true)
    (he : c.addRecord group v = .error e) : e.IsOfRecord := by
  cases v with
  | mapping es =>
    rw [Content.addRecord_mapping] at he
    cases hd : Definition.ofValue group (.mapping (group.tagged es)) with
    | invalid faults =>
      rw [hd] at he
      cases he
      exact .invalid faults
    | ok d =>
      rw [hd] at he
      simp only [Content.addChecked, Content.add] at he
      split at he
      · cases he
        exact .duplicate d.group d.id none
      · cases he
  | _ => cases h

end

namespace Pack

variable {p q : Pack}

theorem mapError_loadFile {root : String} {group : RecordGroup} {f : PackFile} (h : f.holdsObjects = true)
    (c : Content) : (loadFile root group c f).mapError ContentError.withoutFile =
      f.objects.foldlM (Content.addRecord group) c := by
  rw [loadFile, records_of_holdsObjects h]
  exact mapError_foldlM _ (fun v hv => mapError_loadRecord _ (isObject_of_mem_objects h v hv)) c

theorem mapError_loadGroup (h : p.HoldsObjects) (group : RecordGroup) (c : Content) :
    (p.loadGroup c group).mapError ContentError.withoutFile =
      (p.objectsOf group).foldlM (Content.addRecord group) c := by
  rw [objectsOf, foldlM_flatMap]
  exact mapError_foldlM _ (fun f hf => mapError_loadFile (h group f hf)) c

theorem mapError_load (h : p.HoldsObjects) : p.load.mapError ContentError.withoutFile =
    RecordGroup.all.foldlM (fun c group => (p.objectsOf group).foldlM (Content.addRecord group) c)
      Content.empty :=
  mapError_foldlM _ (fun group _ => mapError_loadGroup h group) Content.empty

theorem isOfRecord_of_load (h : p.HoldsObjects) {e : ContentError} (he : p.load = .error e) : e.IsOfRecord := by
  have hload := mapError_load h
  rw [he] at hload
  refine ContentError.isOfRecord_of_withoutFile (of_foldlM_error (fun group _ c e hgroup => ?_) hload.symm)
  refine of_foldlM_error (fun v hv c e hadd => ?_) hgroup
  obtain ⟨f, hf, hmem⟩ := List.mem_flatMap.mp hv
  exact isOfRecord_of_addRecord (isObject_of_mem_objects (h group f hf) v hmem) hadd

end Pack

/-- Loading a pack gives the content or the error, but for the file in it, that its objects give in memory, and the
error is that of a record. Packs of the same objects in other files do not differ. -/
theorem load_eq_ofRecords (p : Pack) (h : p.HoldsObjects) :
    p.load.mapError ContentError.withoutFile =
        Content.ofRecords (p.objectsOf .actions) (p.objectsOf .items) (p.objectsOf .families) ∧
    (∀ e, p.load = .error e → e.IsOfRecord) ∧
    ∀ q : Pack, q.HoldsObjects → (∀ group, q.objectsOf group = p.objectsOf group) →
      q.load.mapError ContentError.withoutFile = p.load.mapError ContentError.withoutFile := by
  refine ⟨?_, fun e => Pack.isOfRecord_of_load h, fun q hq hsame => ?_⟩
  · rw [Pack.mapError_load h]
    simp only [RecordGroup.all, List.foldlM_cons, List.foldlM_nil, bind_pure]
    rfl
  · simp only [Pack.mapError_load hq, Pack.mapError_load h, hsame]

def axeText : String := "\x7b\"id\": \"axe\", \"name\": \"Axe\", \"slot\": \"tools\"\x7d"

/-- An axe and a second one with its id, in one file. -/
def toolsTogether : Pack := Pack.ofFiles "pack" [("items/all.json", "[" ++ axeText ++ ", " ++ axeText ++ "]")]

/-- The same tools in two files. -/
def toolsApart : Pack :=
  Pack.ofFiles "pack" [("items/a/axe.json", axeText), ("items/b.yaml", "[" ++ axeText ++ "]")]

theorem tools_are_the_same : toolsTogether.HoldsObjects ∧ toolsApart.HoldsObjects ∧
    (∀ group, toolsApart.objectsOf group = toolsTogether.objectsOf group) ∧
    toolsTogether.load = .error (.duplicate .items "axe" (some "pack/items/all.json")) ∧
    toolsApart.load.mapError ContentError.withoutFile = .error (.duplicate .items "axe" none) := by
  have hfiles : ∀ group, toolsApart.filesOf group =
      toolsApart.files.filter fun f => f.isIn group && f.isContent := fun group =>
    List.mergeSort_of_pairwise (by cases group <;> decide +kernel)
  have htogether : toolsTogether.HoldsObjects := fun group => by cases group <;> decide +kernel
  have hapart : toolsApart.HoldsObjects := fun group => by
    rw [hfiles]
    cases group <;> decide +kernel
  have hsame : ∀ group, toolsApart.objectsOf group = toolsTogether.objectsOf group := fun group => by
    rw [Pack.objectsOf, hfiles]
    cases group <;> decide +kernel
  have hload : toolsTogether.load = .error (.duplicate .items "axe" (some "pack/items/all.json")) := by
    decide +kernel
  obtain ⟨-, -, hsplit⟩ := load_eq_ofRecords toolsTogether htogether
  refine ⟨htogether, hapart, hsame, hload, ?_⟩
  rw [hsplit toolsApart hapart hsame, hload]
  rfl

end SurvivalRules
