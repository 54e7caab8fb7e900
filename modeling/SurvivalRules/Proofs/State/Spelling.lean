import SurvivalRules.Proofs.State.Path

/-!
# The grammar of paths

A path is spelled by keys with single dots between them. A key is made of letters and digits of ASCII,
underscores, hyphens and dollar signs; besides, parsing lets one line end stand behind each key and counts it
to that key. Nothing else is read.
-/
namespace SurvivalRules.StatePath

def IsKeyChar (c : Char) : Prop := c.isAlphanum = true ∨ c ∈ ['_', '-', '$']

structure IsKey (k : String) : Prop where
  nonempty : k ≠ ""
  chars : ∀ c ∈ k.toList, IsKeyChar c

/-- A key with or without a line end behind it. -/
def IsEndedKey (k : String) : Prop := ∃ key, IsKey key ∧ (k = key ∨ k = key ++ "\n")

/-- The texts that are spelled by keys with single dots between them. -/
inductive Dotted (key : String → Prop) : List String → String → Prop
  | last {k : String} (h : key k) : Dotted key [k] k
  | more {k rest : String} {keys : List String} (h : key k) (hrest : Dotted key keys rest) :
      Dotted key (k :: keys) (k ++ "." ++ rest)

variable {s : String} {keys : List String} {key key' : String → Prop}

theorem isPathChar_iff {c : Char} : isPathChar c = true ↔ IsKeyChar c := by
  simp only [isPathChar, IsKeyChar, Char.isAlphanum, Char.isAlpha, Char.isUpper, Char.isLower, Char.isDigit]
  simp [Char.le_def, or_assoc]

theorem isKey_iff {k : String} : IsKey k ↔ k.toList ≠ [] ∧ k.toList.all isPathChar = true := by
  simp only [List.all_eq_true, isPathChar_iff, ne_eq, String.toList_eq_nil_iff]
  exact ⟨fun h => ⟨h.nonempty, h.chars⟩, fun h => ⟨h.1, h.2⟩⟩

/-- The segments that parsing takes are the keys with or without a line end. -/
theorem isName_iff {k : String} : IsName k ↔ IsEndedKey k := by
  rw [IsName, isSegment_iff, IsEndedKey]
  constructor
  · rintro ⟨body, hne, hall, hk⟩
    refine ⟨String.ofList body, isKey_iff.mpr ⟨by simpa using hne, by simpa using hall⟩, ?_⟩
    simpa [← String.toList_inj] using hk
  · rintro ⟨key, hkey, hk⟩
    obtain ⟨hne, hall⟩ := isKey_iff.mp hkey
    exact ⟨key.toList, hne, hall, by simpa [← String.toList_inj] using hk⟩

theorem line_end_not_mem_of_isKey {k : String} (h : IsKey k) : '\n' ∉ k.toList := by
  intro hmem
  rcases h.chars _ hmem with halnum | hother
  · exact absurd halnum (by decide)
  · exact absurd hother (by decide)

theorem Dotted.imp (h : Dotted key keys s) (himp : ∀ k, key k → key' k) : Dotted key' keys s := by
  induction h with
  | last h => exact .last (himp _ h)
  | more h _ ih => exact .more (himp _ h) ih

theorem Dotted.forall_mem (h : Dotted key keys s) : ∀ k ∈ keys, key k := by
  induction h with
  | last h => simpa using h
  | more h _ ih => exact List.forall_mem_cons.mpr ⟨h, ih⟩

theorem Dotted.ne_nil (h : Dotted key keys s) : keys ≠ [] := by
  cases h <;> simp

theorem Dotted.eq_intercalate (h : Dotted key keys s) : ".".intercalate keys = s := by
  induction h with
  | last h => simp
  | @more k rest keys h hrest ih =>
    rw [← ih, ← String.toList_inj]
    obtain ⟨second, others, rfl⟩ := List.exists_cons_of_ne_nil hrest.ne_nil
    simp [String.toList_intercalate]

theorem dotted_intercalate (hne : keys ≠ []) (h : ∀ k ∈ keys, key k) :
    Dotted key keys (".".intercalate keys) := by
  induction keys with
  | nil => exact absurd rfl hne
  | cons k rest ih =>
    obtain ⟨hk, hrest⟩ := List.forall_mem_cons.mp h
    cases rest with
    | nil => simpa using Dotted.last hk
    | cons second others =>
      have hmore := Dotted.more hk (ih (by simp) hrest)
      rwa [hmore.eq_intercalate.symm] at hmore

/-- Cutting at dots gives the keys back, if none of them holds a dot. -/
theorem Dotted.segments_eq (h : Dotted key keys s) (hdot : ∀ k, key k → '.' ∉ k.toList) :
    segments s = keys.map String.toList := by
  induction h with
  | last h => exact Text.splitAtChar_of_not_mem (hdot _ h)
  | more h _ ih => rw [segments_append (hdot _ h), ih, List.map_cons]

/-- Parsing takes the texts that are spelled by keys with or without line ends, and gives these keys. -/
theorem exists_parse_iff :
    (∃ p, parse s = .ok p ∧ p.keys = keys) ↔ Dotted IsEndedKey keys s := by
  constructor
  · rintro ⟨p, hp, rfl⟩
    obtain ⟨-, hkeys, hall⟩ := parse_eq_ok_iff.mp hp
    have hnames : ∀ k ∈ p.keys, IsEndedKey k := by
      rw [hkeys, List.forall_mem_map]
      exact fun cs hcs => isName_iff.mp (by simpa [IsName] using hall cs hcs)
    have hdotted := dotted_intercalate (List.cons_ne_nil p.head p.rest) hnames
    have hs : ".".intercalate p.keys = s := by
      rw [hkeys, ← String.toList_inj, String.toList_intercalate]
      simpa [Function.comp_def, segments] using Text.intercalate_splitAtChar '.' s.toList
    rwa [← hs]
  · intro h
    have hdot : ∀ k, IsEndedKey k → '.' ∉ k.toList := fun k hk => dot_not_mem_of_isName (isName_iff.mpr hk)
    have hsegments := h.segments_eq hdot
    obtain ⟨head, rest, rfl⟩ := List.exists_cons_of_ne_nil h.ne_nil
    refine ⟨⟨s, head, rest⟩, parse_eq_ok_iff.mpr ⟨rfl, ?_, ?_⟩, rfl⟩
    · simp [hsegments, keys, Function.comp_def]
    · rw [hsegments, List.forall_mem_map]
      exact fun k hk => isName_iff.mpr (h.forall_mem k hk)

theorem Dotted.line_end_not_mem (h : Dotted IsKey keys s) : '\n' ∉ s.toList := by
  induction h with
  | last h => exact line_end_not_mem_of_isKey h
  | more h _ ih =>
    simp only [String.toList_append, List.mem_append, not_or]
    exact ⟨⟨line_end_not_mem_of_isKey h, by decide⟩, ih⟩

/-- Without a line end in the text none of its keys has one. -/
theorem Dotted.isKey (h : Dotted IsEndedKey keys s) (hline : '\n' ∉ s.toList) : Dotted IsKey keys s := by
  have hkey : ∀ k, IsEndedKey k → '\n' ∉ k.toList → IsKey k := by
    rintro k ⟨key, hkey, rfl | rfl⟩ hmem
    · exact hkey
    · exact absurd (by simp) hmem
  induction h with
  | last h => exact .last (hkey _ h hline)
  | more h _ ih =>
    simp only [String.toList_append, List.mem_append, not_or] at hline
    exact .more (hkey _ h hline.1.1) (ih hline.2)

/-- A text is parsed exactly if it is spelled by keys, each with or without a line end, and single dots
between them; the keys are those that spell it, and joined by dots they give the text back. So the texts that
are spelled by keys alone are the ones that are parsed and have no line end. -/
theorem parse_iff_dotted (s : String) :
    (∀ keys, (∃ p, parse s = .ok p ∧ p.keys = keys) ↔ Dotted IsEndedKey keys s) ∧
      (∀ p, parse s = .ok p → ".".intercalate p.keys = s) ∧
      ((∃ cause, parse s = .error cause) ↔ ¬ ∃ keys, Dotted IsEndedKey keys s) ∧
      ((∃ keys, Dotted IsKey keys s) ↔ '\n' ∉ s.toList ∧ ∃ p, parse s = .ok p) := by
  refine ⟨fun keys => exists_parse_iff, fun p hp => ?_, ?_, ?_⟩
  · exact (exists_parse_iff.mp ⟨p, hp, rfl⟩).eq_intercalate
  · constructor
    · rintro ⟨cause, hcause⟩ ⟨keys, hkeys⟩
      obtain ⟨p, hp, -⟩ := exists_parse_iff.mpr hkeys
      cases hcause.symm.trans hp
    · intro hnot
      cases hparse : parse s with
      | error cause => exact ⟨cause, rfl⟩
      | ok p => exact absurd ⟨p.keys, exists_parse_iff.mp ⟨p, hparse, rfl⟩⟩ hnot
  · constructor
    · rintro ⟨keys, hkeys⟩
      obtain ⟨p, hp, -⟩ := exists_parse_iff.mpr (hkeys.imp fun k hk => ⟨k, hk, Or.inl rfl⟩)
      exact ⟨hkeys.line_end_not_mem, p, hp⟩
    · rintro ⟨hline, p, hp⟩
      exact ⟨p.keys, (exists_parse_iff.mp ⟨p, hp, rfl⟩).isKey hline⟩

/-- A line end behind a key is read as a part of it. -/
theorem line_end_is_parsed :
    parse "resources.wood\n" = .ok ⟨"resources.wood\n", "resources", ["wood\n"]⟩ ∧
      ¬ ∃ keys, Dotted IsKey keys "resources.wood\n" :=
  ⟨by decide +kernel, fun ⟨_, h⟩ => h.line_end_not_mem (by decide)⟩

end SurvivalRules.StatePath
