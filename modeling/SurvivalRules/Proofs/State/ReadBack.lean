import SurvivalRules.Proofs.State.Delta

/-!
# What a delta reads after a write

Whatever a delta holds before, it reads what was written at the place of the write. Other sections are not touched,
and the places of the section that are neither on the way of the write nor below it read as they did in the mapping
that the write started from: the section of the delta if that is a mapping, and else the one of the state.
-/
namespace SurvivalRules.Delta

variable {delta state : Tree} {p q : StatePath} {v : Value}

theorem get_set_of_head_eq (hp : p.rest ≠ []) (hhead : q.head = p.head) :
    (set delta state p v).get q = (Value.mapping ((base delta state p.head).write v p.rest)).descend q.rest := by
  rw [Tree.get_eq_descend, set_of_rest_ne_nil delta state hp, hhead, Tree.lookup_insert_self]

theorem get_set_of_head_ne (h : q.head ≠ p.head) : (set delta state p v).get q = delta.get q := by
  obtain ⟨x, hx⟩ := exists_set_eq_insert delta state p v
  rw [hx, Tree.get_eq_descend, Tree.get_eq_descend, Tree.lookup_insert_of_ne (Ne.symm h)]

theorem get_set_own (delta state : Tree) (p : StatePath) (v : Value) : (set delta state p v).get p = v := by
  rw [← current_of_mem (head_mem_keys_set delta state p v) state]
  exact current_set_self delta state p v

/-- A place that is apart from the write reads as in the mapping that the write starts from. -/
theorem get_set_of_apart (hp : p.rest ≠ []) (hhead : q.head = p.head) (h : ¬ p.Comparable q) :
    (set delta state p v).get q = (Value.mapping (base delta state p.head)).descend q.rest := by
  have hdown : ¬ p.rest <+: q.rest := fun hpre => h (Or.inl (by simpa [StatePath.keys, hhead] using hpre))
  have hup : ¬ q.rest <+: p.rest := fun hpre => h (Or.inr (by simpa [StatePath.keys, hhead] using hpre))
  rw [get_set_of_head_eq hp hhead, Tree.descend_write_of_apart _ v hdown hup]

theorem descend_base_of_mapping {es : Tree} (hhead : q.head = p.head) (h : delta.lookup p.head = .mapping es) :
    (Value.mapping (base delta state p.head)).descend q.rest = delta.get q := by
  rw [base_of_mapping h, Tree.get_eq_descend, hhead, h]

theorem base_of_not_mapping {k : String} (h : ∀ es, delta.lookup k ≠ .mapping es) :
    base delta state k = (state.lookup k).entries := by
  unfold base
  split
  next es hes => exact absurd hes (h es)
  next => rfl

theorem descend_base_of_not_mapping (hhead : q.head = p.head) (hq : q.rest ≠ [])
    (h : ∀ es, delta.lookup p.head ≠ .mapping es) :
    (Value.mapping (base delta state p.head)).descend q.rest = state.get q := by
  rw [base_of_not_mapping h, Value.descend_mapping_entries _ hq, Tree.get_eq_descend, hhead]

/-- A write is read back, it does not touch other sections, and within its section every place that is neither on
its way nor below it reads as in the section of the delta, or of the state if the delta has no mapping there. -/
theorem write_is_read_back (delta state : Tree) (p : StatePath) (v : Value) :
    (set delta state p v).get p = v ∧
      (∀ q : StatePath, q.head ≠ p.head → (set delta state p v).get q = delta.get q) ∧
      (p.rest ≠ [] → ∀ q : StatePath, q.head = p.head → ¬ p.Comparable q →
        (set delta state p v).get q = if (delta.lookup p.head).mapping?.isSome then delta.get q else state.get q) := by
  refine ⟨get_set_own delta state p v, fun q hq => get_set_of_head_ne hq, fun hp q hhead hapart => ?_⟩
  rw [get_set_of_apart hp hhead hapart]
  cases hlook : delta.lookup p.head with
  | mapping es => exact descend_base_of_mapping hhead hlook
  | _ =>
    have hq := rest_ne_nil_of_apart (StatePath.not_comparable_symm hapart) hhead
    exact descend_base_of_not_mapping hhead hq (by simp [hlook])

def dawnState : Tree :=
  [("flags", .mapping [("lit", .bool true)]), ("story", .mapping [("seen", .mapping [("hut", .bool true)])])]

/-- The flags are no mapping here, and what has been seen is none within the story. -/
def dawnDelta : Tree := [("flags", .int 1), ("story", .mapping [("day", .int 2), ("seen", .list [])])]

/-- In the story of the delta the day stays and a fresh mapping takes the place of the list, while the flags start
again from those of the state. -/
theorem dawn_is_read_back :
    let mine : StatePath := ⟨"story.seen.mine", "story", ["seen", "mine"]⟩
    let day : StatePath := ⟨"story.day", "story", ["day"]⟩
    let met : StatePath := ⟨"flags.met", "flags", ["met"]⟩
    let lit : StatePath := ⟨"flags.lit", "flags", ["lit"]⟩
    (set dawnDelta dawnState mine (.bool true)).get mine = .bool true ∧
      (set dawnDelta dawnState mine (.bool true)).get day = .int 2 ∧
      (set dawnDelta dawnState mine (.bool true)).get lit = .null ∧
      (set dawnDelta dawnState met .null).get lit = .bool true := by
  intro mine day met lit
  obtain ⟨hown, hother, hsection⟩ := write_is_read_back dawnDelta dawnState mine (.bool true)
  obtain ⟨-, -, hflags⟩ := write_is_read_back dawnDelta dawnState met .null
  refine ⟨hown, (hsection (by decide) day rfl ?_).trans (by decide), (hother lit (by decide)).trans (by decide),
    (hflags (by decide) lit rfl ?_).trans (by decide)⟩
  · unfold StatePath.Comparable
    decide
  · unfold StatePath.Comparable
    decide

end SurvivalRules.Delta
