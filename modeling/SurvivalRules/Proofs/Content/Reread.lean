import SurvivalRules.Content.Action
import SurvivalRules.Content.Family
import SurvivalRules.Proofs.Content.Loaded
import SurvivalRules.Proofs.Content.WholeText

/-!
# Fields that are read again

What a reading makes of any value can be written down. A reading is settled by a way of writing if it reads the very
same from what is written, and the readings of records are put together from readings that are.
-/
namespace SurvivalRules

namespace Checked

variable {κ α β : Type} {readKey : String → Checked κ} {read : Value → Checked α}

@[simp] theorem map_ok (f : α → β) (a : α) : (f <$> ok a : Checked β) = ok (f a) := rfl

@[simp] theorem seq_ok (f : α → β) (a : α) : (ok f <*> ok a : Checked β) = ok (f a) := rfl

@[simp] theorem under_ok (name : String) (a : α) : (ok a).under name = ok a := rfl

@[simp] theorem andThen_ok (a : α) (rule : α → Checked β) : (ok a).andThen rule = rule a := rfl

theorem items_map {write : α → Value} {as : List α} (h : ∀ a ∈ as, read (write a) = .ok a) :
    items read (as.map write) = .ok as := by
  induction as with
  | nil => rfl
  | cons a rest ih =>
    obtain ⟨hfirst, hrest⟩ := List.forall_mem_cons.mp h
    rw [List.map_cons, items, hfirst, ih hrest, both_ok]

theorem entries_map {writeKey : κ → String} {write : α → Value} {m : List (κ × α)}
    (h : ∀ e ∈ m, readKey (writeKey e.1) = .ok e.1 ∧ read (write e.2) = .ok e.2) :
    entries readKey read (m.map fun e => (writeKey e.1, write e.2)) = .ok m := by
  induction m with
  | nil => rfl
  | cons e rest ih =>
    obtain ⟨⟨hkey, hvalue⟩, hrest⟩ := List.forall_mem_cons.mp h
    rw [List.map_cons, entries, hkey, hvalue, ih hrest, both_ok, both_ok]

end Checked

namespace Field

variable {α κ : Type} [DecidableEq κ] {read : Value → Checked α} {write : α → Value} {r : Tree} {name : String}
  {default a : α}

/-- What is read of any value is read again of what it is written as. -/
def Settles (read : Value → Checked α) (write : α → Value) : Prop := ∀ v a, read v = .ok a → read (write a) = .ok a

/-! ## Values -/

theorem settles_any : Settles any id := fun _ _ _ => rfl

theorem settles_binary64 : Settles binary64 .float := fun _ _ _ => rfl

/-- A number keeps its kind, whatever it was read from. -/
theorem settles_amount : Settles amount Value.ofAmount := fun _ a _ => by
  simp [amount]

theorem settles_word {meaning : String → Option α} {spell : α → String} (h : ∀ a, meaning (spell a) = some a) :
    Settles (word meaning) fun a => .text (spell a) := fun _ a _ => by
  simp only [word, h a]

theorem Settles.nullable (h : Settles read write) (hnull : ∀ a, write a ≠ .null) :
    Settles (nullable read) fun a => (a.map write).getD .null := by
  have hsome : ∀ v : Value, v ≠ .null → Field.nullable read v = (read v).map some := by
    intro v hv
    cases v with
    | null => exact absurd rfl hv
    | _ => rfl
  intro v a hread
  cases a with
  | none => rfl
  | some a =>
    have hv : v ≠ .null := by
      rintro rfl
      cases hread
    rw [hsome v hv] at hread
    obtain ⟨b, hb, hba⟩ := Checked.map_eq_ok_iff.mp hread
    cases hba
    change Field.nullable read (write a) = .ok (some a)
    rw [hsome _ (hnull a), h v a hb]
    rfl

/-- A mapping whose keys and values are settled is settled: its keys are distinct, so none of its entries is lost. -/
theorem Settles.mappingBy {readKey : String → Checked κ} {writeKey : κ → String} (h : Settles read write)
    (hkey : ∀ s k, readKey s = .ok k → readKey (writeKey k) = .ok k) :
    Settles (mappingBy readKey read) fun m => .mapping (m.map fun e => (writeKey e.1, write e.2)) := by
  intro v m hread
  have hentries : Checked.entries readKey read (m.map fun e => (writeKey e.1, write e.2)) = .ok m := by
    refine Checked.entries_map fun e he => ?_
    obtain ⟨⟨s, hs⟩, w, hw⟩ := exists_of_mem_mappingBy hread e he
    exact ⟨hkey s e.1 hs, h w e.2 hw⟩
  have hsame : OrderedMap.ofList m = m :=
    OrderedMap.overlay_eq_of_prefix List.nil_prefix (nodup_keys_of_mappingBy hread)
  simp only [Field.mappingBy, hentries, Checked.map, hsame]

theorem Settles.mapping (h : Settles read write) :
    Settles (mapping read) fun m => .mapping (OrderedMap.mapValues write m) :=
  h.mappingBy fun _ _ _ => rfl

theorem Settles.levels (h : Settles read write) : Settles (levels read) (Action.levelsValue write) :=
  h.mappingBy fun _ _ => whole_numeral

/-! ## Fields of records -/

theorem Settles.optional (h : Settles read write) (hdefault : read (write default) = .ok default)
    (hread : optional r name default read = .ok a) : read (write a) = .ok a := by
  rcases optional_eq_ok hread with rfl | ⟨v, hv⟩
  · exact hdefault
  · exact h v a hv

@[simp] theorem record_mapping (read : Tree → Checked α) (es : Tree) : record read (.mapping es) = read es := rfl

theorem settles_record {read : Tree → Checked α} (h : ∀ r a, read r = .ok a → record read (write a) = .ok a) :
    Settles (record read) write := by
  intro v a hread
  obtain ⟨r, hr⟩ := exists_of_record hread
  exact h r a hr

end Field

end SurvivalRules
