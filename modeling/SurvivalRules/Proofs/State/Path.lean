import Mathlib
import SurvivalRules.State.Path

/-!
# Laws of state paths

A parsed path lists the pieces of its text, and none of them holds a dot. A name without dots that is put
behind a section gives the path of two segments.
-/
namespace SurvivalRules

namespace Text

theorem splitAtChar_of_not_mem {separator : Char} {cs : List Char} (h : separator ∉ cs) :
    splitAtChar separator cs = [cs] := by
  induction cs with
  | nil => rfl
  | cons c rest ih =>
    simp only [List.mem_cons, not_or] at h
    rw [splitAtChar, if_neg (fun he => h.1 he.symm), ih h.2]
    rfl

theorem splitAtChar_append {separator : Char} {cs : List Char} (h : separator ∉ cs)
    (rest : List Char) :
    splitAtChar separator (cs ++ separator :: rest) = cs :: splitAtChar separator rest := by
  induction cs with
  | nil => simp [splitAtChar]
  | cons c more ih =>
    simp only [List.mem_cons, not_or] at h
    rw [List.cons_append, splitAtChar, if_neg (fun he => h.1 he.symm), ih h.2]
    rfl

theorem not_mem_of_mem_splitAtChar {separator : Char} {cs piece : List Char}
    (h : piece ∈ splitAtChar separator cs) : separator ∉ piece := by
  induction cs generalizing piece with
  | nil =>
    simp only [splitAtChar, List.mem_singleton] at h
    simp [h]
  | cons c rest ih =>
    unfold splitAtChar at h
    split at h
    · rcases List.mem_cons.mp h with rfl | hrest
      · simp
      · exact ih hrest
    next hc =>
      have hne : separator ≠ c := fun he => hc he.symm
      -- the character goes to the front of the first piece
      cases hsplit : splitAtChar separator rest with
      | nil => exact absurd hsplit (splitAtChar_ne_nil separator rest)
      | cons first more =>
        rw [hsplit] at h ih
        rcases List.mem_cons.mp h with rfl | hmore
        · have hfirst := ih List.mem_cons_self
          simp [hne, hfirst]
        · exact ih (List.mem_cons_of_mem _ hmore)

/-- Two texts are equal up to the first mark in either of them, and there they have the same one. -/
theorem mark_eq_of_append_eq {mark mark' : Char} {front front' back back' : List Char}
    (h : front ++ mark :: back = front' ++ mark' :: back') (hmark : mark ∉ front')
    (hmark' : mark' ∉ front) : mark = mark' := by
  induction front generalizing front' with
  | nil =>
    cases front' with
    | nil => exact (List.cons.inj h).1
    | cons c rest =>
      rw [(List.cons.inj h).1] at hmark
      exact absurd List.mem_cons_self hmark
  | cons c rest ih =>
    cases front' with
    | nil =>
      rw [← (List.cons.inj h).1] at hmark'
      exact absurd List.mem_cons_self hmark'
    | cons c' rest' =>
      exact ih (List.cons.inj h).2 (List.not_mem_of_not_mem_cons hmark)
        (List.not_mem_of_not_mem_cons hmark')

theorem eq_or_mem_piece_of_mem {separator c : Char} {cs : List Char} (h : c ∈ cs) :
    c = separator ∨ ∃ piece ∈ splitAtChar separator cs, c ∈ piece := by
  induction cs with
  | nil => cases h
  | cons first rest ih =>
    unfold splitAtChar
    split
    next hsep =>
      rcases List.mem_cons.mp h with rfl | hrest
      · exact Or.inl hsep
      · refine (ih hrest).imp_right ?_
        rintro ⟨piece, hpiece, hc⟩
        exact ⟨piece, List.mem_cons_of_mem _ hpiece, hc⟩
    next =>
      cases hsplit : splitAtChar separator rest with
      | nil => exact absurd hsplit (splitAtChar_ne_nil separator rest)
      | cons piece more =>
        rw [hsplit] at ih
        rcases List.mem_cons.mp h with rfl | hrest
        · exact Or.inr ⟨c :: piece, List.mem_cons_self, List.mem_cons_self⟩
        · refine (ih hrest).imp_right ?_
          rintro ⟨found, hfound, hc⟩
          rcases List.mem_cons.mp hfound with rfl | hmore
          · exact ⟨first :: found, List.mem_cons_self, List.mem_cons_of_mem _ hc⟩
          · exact ⟨found, List.mem_cons_of_mem _ hmore, hc⟩

theorem intercalate_splitAtChar (separator : Char) (cs : List Char) :
    [separator].intercalate (splitAtChar separator cs) = cs := by
  induction cs with
  | nil => rfl
  | cons c rest ih =>
    unfold splitAtChar
    cases hsplit : splitAtChar separator rest with
    | nil => exact absurd hsplit (splitAtChar_ne_nil separator rest)
    | cons piece more =>
      rw [hsplit] at ih
      split
      next hsep =>
        subst hsep
        rw [List.intercalate_cons_cons]
        simp [ih]
      next =>
        cases more with
        | nil => simpa [consPiece] using ih
        | cons second others =>
          rw [List.intercalate_cons_cons] at ih
          rw [consPiece, List.intercalate_cons_cons]
          simpa using ih

/-- The part before the first separator is the first piece, and the part behind it joins the others. -/
theorem cutAtChar_of_splitAtChar {separator : Char} {cs front : List Char} {more : List (List Char)}
    (h : splitAtChar separator cs = front :: more) :
    cutAtChar separator cs = (front, if more = [] then none else some ([separator].intercalate more)) := by
  induction cs generalizing front more with
  | nil =>
    cases h
    rfl
  | cons c rest ih =>
    unfold splitAtChar at h
    unfold cutAtChar
    split at h
    next hcut =>
      cases h
      rw [if_pos hcut, if_neg (splitAtChar_ne_nil _ _), intercalate_splitAtChar]
    next hgo =>
      cases hsplit : splitAtChar separator rest with
      | nil => exact absurd hsplit (splitAtChar_ne_nil _ _)
      | cons piece pieces =>
        rw [hsplit] at h
        cases h
        rw [if_neg hgo, ih hsplit]

end Text

theorem Section.ofName_eq_resources_iff {s : String} :
    Section.ofName s = .resources ↔ s = Section.resources.name := by
  constructor
  · intro h
    unfold ofName at h
    cases hfind : named.find? (·.name = s) with
    | none => simp [hfind] at h
    | some found =>
      have hname := List.find?_some hfind
      simp only [hfind, Option.getD_some] at h
      simpa [h, eq_comm] using hname
  · rintro rfl
    rfl

namespace StatePath

/-- Whether one of two paths leads to a place on the way to the other, or to the same place. -/
def Comparable (p q : StatePath) : Prop := p.keys <+: q.keys ∨ q.keys <+: p.keys

instance (p q : StatePath) : Decidable (p.Comparable q) := inferInstanceAs (Decidable (_ ∨ _))

/-- Whether a text is a single segment of a path. -/
def IsName (s : String) : Prop := isSegment s.toList = true

instance (s : String) : Decidable (IsName s) := inferInstanceAs (Decidable (_ = true))

theorem not_comparable_symm {p q : StatePath} (h : ¬ p.Comparable q) : ¬ q.Comparable p :=
  fun hq => h (Or.symm hq)

theorem not_comparable_of_head_ne {p q : StatePath} (h : p.head ≠ q.head) : ¬ p.Comparable q := by
  rintro (hp | hq)
  · exact h (by simpa [keys] using (List.cons_prefix_cons.mp hp).1)
  · exact h (by simpa [keys] using (List.cons_prefix_cons.mp hq).1.symm)

theorem dot_not_mem_of_isSegment {cs : List Char} (h : isSegment cs = true) : '.' ∉ cs := by
  intro hdot
  unfold isSegment at h
  simp only [Bool.and_eq_true, List.all_eq_true] at h
  obtain ⟨_, hall⟩ := h
  have hbody : '.' ∈ (if cs.getLast? = some '\n' then cs.dropLast else cs) := by
    split
    next hlast =>
      obtain ⟨front, rfl⟩ := List.getLast?_eq_some_iff.mp hlast
      simpa using hdot
    · exact hdot
  exact absurd (hall _ hbody) (by decide)

theorem isPathChar_of_mem {cs : List Char} (h : isSegment cs = true) {c : Char} (hc : c ∈ cs) :
    isPathChar c = true ∨ c = '\n' := by
  unfold isSegment at h
  simp only [Bool.and_eq_true, List.all_eq_true] at h
  obtain ⟨-, hall⟩ := h
  split at hall
  next hlast =>
    obtain ⟨front, rfl⟩ := List.getLast?_eq_some_iff.mp hlast
    rw [List.dropLast_concat] at hall
    rcases List.mem_append.mp hc with hfront | hend
    · exact Or.inl (hall c hfront)
    · exact Or.inr (List.mem_singleton.mp hend)
  next => exact Or.inl (hall c hc)

/-- A segment is made of path characters, at least one, and possibly one line end behind them. -/
theorem isSegment_iff {cs : List Char} : isSegment cs = true ↔
    ∃ body, body ≠ [] ∧ body.all isPathChar = true ∧ (cs = body ∨ cs = body ++ ['\n']) := by
  unfold isSegment
  simp only [Bool.and_eq_true, Bool.not_eq_true', List.isEmpty_eq_false_iff]
  constructor
  · rintro ⟨hne, hall⟩
    split at hne
    next hlast =>
      rw [if_pos hlast] at hall
      obtain ⟨front, rfl⟩ := List.getLast?_eq_some_iff.mp hlast
      rw [List.dropLast_concat] at hne hall
      exact ⟨front, hne, hall, Or.inr rfl⟩
    next hlast =>
      rw [if_neg hlast] at hall
      exact ⟨cs, hne, hall, Or.inl rfl⟩
  · rintro ⟨body, hne, hall, rfl | rfl⟩
    · have hlast : cs.getLast? ≠ some '\n' := by
        intro hlast
        obtain ⟨front, rfl⟩ := List.getLast?_eq_some_iff.mp hlast
        exact absurd (List.all_eq_true.mp hall '\n' (by simp)) (by decide)
      rw [if_neg hlast]
      exact ⟨hne, hall⟩
    · rw [if_pos (by simp), List.dropLast_concat]
      exact ⟨hne, hall⟩

theorem dot_not_mem_of_isName {s : String} (h : IsName s) : '.' ∉ s.toList :=
  dot_not_mem_of_isSegment h

theorem segments_of_isName {s : String} (h : IsName s) : segments s = [s.toList] :=
  Text.splitAtChar_of_not_mem (dot_not_mem_of_isName h)

/-- Parsing succeeds when every piece is a segment, and the pieces are the keys. -/
theorem parse_eq_ok_iff {raw : String} {p : StatePath} :
    parse raw = .ok p ↔ p.raw = raw ∧ p.keys = (segments raw).map String.ofList ∧
      ∀ cs ∈ segments raw, isSegment cs = true := by
  have hne : segments raw ≠ [] := Text.splitAtChar_ne_nil _ _
  unfold parse
  split
  next hempty =>
    -- the empty text is one piece without characters
    have hraw : raw = "" := by simpa using hempty
    subst hraw
    constructor
    · intro h
      cases h
    · rintro ⟨-, -, hall⟩
      have hbad := hall [] (by simp [segments, Text.splitAtChar])
      exact absurd hbad (by decide)
  next =>
    split
    next bad hbad =>
      have hmem := List.mem_of_find?_eq_some hbad
      have hnot := List.find?_some hbad
      constructor
      · intro h
        cases h
      · rintro ⟨-, -, hall⟩
        simp [hall bad hmem] at hnot
    next hnone =>
      have hall : ∀ cs ∈ segments raw, isSegment cs = true := by
        simpa using hnone
      cases hsegments : (segments raw).map String.ofList with
      | nil => exact absurd (List.map_eq_nil_iff.mp hsegments) hne
      | cons head rest =>
        obtain ⟨raw', head', rest'⟩ := p
        simp only [Except.ok.injEq, mk.injEq, keys, List.cons.injEq]
        constructor
        · rintro ⟨rfl, rfl, rfl⟩
          exact ⟨rfl, ⟨rfl, rfl⟩, hall⟩
        · rintro ⟨rfl, ⟨rfl, rfl⟩, -⟩
          exact ⟨rfl, rfl, rfl⟩

/-- What is said of the path that a text stands for can be tested on that path. -/
instance (raw : String) (P : StatePath → Prop) [DecidablePred P] :
    Decidable (∀ q, parse raw = .ok q → P q) :=
  match parse raw with
  | .ok q => decidable_of_iff (P q) ⟨fun h _ he => Except.ok.inj he ▸ h, fun h => h q rfl⟩
  | .error _ => isTrue fun _ he => nomatch he

/-- A path is written in one way. -/
theorem raw_eq_of_keys_eq {raw raw' : String} {p q : StatePath} (hp : parse raw = .ok p)
    (hq : parse raw' = .ok q) (h : p.keys = q.keys) : raw = raw' := by
  rw [(parse_eq_ok_iff.mp hp).2.1, (parse_eq_ok_iff.mp hq).2.1] at h
  have hsegments : segments raw = segments raw' :=
    List.map_injective_iff.mpr (fun a b hab => String.ofList_injective hab) h
  have hlist : raw.toList = raw'.toList := by
    rw [← Text.intercalate_splitAtChar '.' raw.toList, ← Text.intercalate_splitAtChar '.' raw'.toList]
    exact congrArg _ hsegments
  exact String.toList_injective hlist

/-- Below a section, the text is cut into the section and the other keys. -/
theorem cutAtChar_of_parse {raw : String} {p : StatePath} (h : parse raw = .ok p) (hrest : p.rest ≠ []) :
    Text.cutAtChar '.' raw.toList = (p.head.toList, some (".".intercalate p.rest).toList) := by
  have hkeys := (parse_eq_ok_iff.mp h).2.1
  cases hsegments : segments raw with
  | nil => exact absurd hsegments (Text.splitAtChar_ne_nil _ _)
  | cons front more =>
    rw [hsegments, List.map_cons, keys, List.cons.injEq] at hkeys
    obtain ⟨hhead, htail⟩ := hkeys
    have hmore : more ≠ [] := by
      rintro rfl
      exact hrest htail
    have hjoined : (".".intercalate p.rest).toList = ['.'].intercalate more := by
      rw [htail, String.toList_intercalate, List.map_map]
      simp [Function.comp_def]
    rw [Text.cutAtChar_of_splitAtChar hsegments, if_neg hmore, hjoined, hhead, String.toList_ofList]

theorem dot_not_mem_of_mem_keys {raw k : String} {p : StatePath} (h : parse raw = .ok p)
    (hk : k ∈ p.keys) : '.' ∉ k.toList := by
  rw [(parse_eq_ok_iff.mp h).2.1] at hk
  obtain ⟨cs, hcs, rfl⟩ := List.mem_map.mp hk
  simpa using Text.not_mem_of_mem_splitAtChar hcs

/-- What holds of the path characters of the smallest codes holds of all. -/
theorem forall_isPathChar {P : Char → Prop}
    (h : ∀ n < 128, isPathChar (Char.ofNat n) = true → P (Char.ofNat n)) {c : Char}
    (hc : isPathChar c = true) : P c := by
  have hascii : c.toNat < 128 := by
    have hcode := hc
    simp only [isPathChar, Bool.or_eq_true, decide_eq_true_eq, Char.le_def, UInt32.le_iff_toNat_le] at hcode
    have hval : c.toNat = c.val.toNat := rfl
    rcases hcode with ((((⟨-, hle⟩ | ⟨-, hle⟩) | ⟨-, hle⟩) | rfl) | rfl) | rfl
    · exact hval ▸ hle.trans_lt (by decide)
    · exact hval ▸ hle.trans_lt (by decide)
    · exact hval ▸ hle.trans_lt (by decide)
    all_goals decide
  have hcode := h c.toNat hascii
  rw [Char.ofNat_toNat] at hcode
  exact hcode hc

/-- A path is written in path characters, dots and line ends. -/
theorem isPathChar_of_mem_parse {raw : String} {p : StatePath} (h : parse raw = .ok p) {c : Char}
    (hc : c ∈ raw.toList) : c = '.' ∨ isPathChar c = true ∨ c = '\n' := by
  refine (@Text.eq_or_mem_piece_of_mem '.' _ _ hc).imp_right ?_
  rintro ⟨piece, hpiece, hmem⟩
  exact isPathChar_of_mem ((parse_eq_ok_iff.mp h).2.2 piece hpiece) hmem

theorem blank_not_mem_of_parse {raw : String} {p : StatePath} (h : parse raw = .ok p) :
    ' ' ∉ raw.toList :=
  fun hblank => absurd (isPathChar_of_mem_parse h hblank) (by decide)

theorem segments_append {area : String} (h : '.' ∉ area.toList) (name : String) :
    segments (area ++ "." ++ name) = area.toList :: segments name := by
  have hdot : ".".toList = ['.'] := rfl
  simp only [segments, String.toList_append, hdot, List.append_assoc, List.singleton_append]
  exact Text.splitAtChar_append h _

/-- A path behind a section has that section for its head and goes on below it. -/
theorem keys_of_parse_append {area name : String} {p : StatePath} (h : '.' ∉ area.toList)
    (hp : parse (area ++ "." ++ name) = .ok p) :
    p.head = area ∧ p.rest = (segments name).map String.ofList := by
  have hkeys := (parse_eq_ok_iff.mp hp).2.1
  rw [segments_append h] at hkeys
  simpa [keys] using hkeys

theorem segments_of_parse_append {area name : String} {p : StatePath} (h : '.' ∉ area.toList)
    (hp : parse (area ++ "." ++ name) = .ok p) : ∀ cs ∈ segments name, isSegment cs = true := by
  intro cs hcs
  apply (parse_eq_ok_iff.mp hp).2.2
  rw [segments_append h]
  exact List.mem_cons_of_mem _ hcs

theorem rest_ne_nil_of_parse_append {area name : String} {p : StatePath} (h : '.' ∉ area.toList)
    (hp : parse (area ++ "." ++ name) = .ok p) : p.rest ≠ [] := by
  rw [(keys_of_parse_append h hp).2]
  simpa [segments] using Text.splitAtChar_ne_nil _ _

theorem parse_append_of_isName {area name : String} (harea : IsName area) (hname : IsName name) :
    parse (area ++ "." ++ name) = .ok ⟨area ++ "." ++ name, area, [name]⟩ := by
  refine parse_eq_ok_iff.mpr ⟨rfl, ?_, ?_⟩
  · simp [keys, segments_append (dot_not_mem_of_isName harea), segments_of_isName hname]
  · intro cs hcs
    rw [segments_append (dot_not_mem_of_isName harea), segments_of_isName hname] at hcs
    simp only [List.mem_cons, List.not_mem_nil, or_false] at hcs
    rcases hcs with rfl | rfl
    · exact harea
    · exact hname

theorem accumulates_iff {p : StatePath} :
    p.accumulates = true ↔ p.head = Section.resources.name := by
  simp [accumulates, area, Section.ofName_eq_resources_iff]

theorem resource?_eq_some_iff {q : StatePath} {name : String} :
    q.resource? = some name ↔ q.head = Section.resources.name ∧ q.rest = [name] := by
  unfold resource?
  constructor
  · intro h
    split at h
    next found harea hrest =>
      cases h
      exact ⟨Section.ofName_eq_resources_iff.mp harea, hrest⟩
    next => cases h
  · rintro ⟨hhead, hrest⟩
    have harea : q.area = .resources := Section.ofName_eq_resources_iff.mpr hhead
    simp [harea, hrest]

theorem resource?_eq_none {q : StatePath} (h : q.head ≠ Section.resources.name) :
    q.resource? = none := by
  cases hname : q.resource? with
  | none => rfl
  | some name => exact absurd (resource?_eq_some_iff.mp hname).1 h

theorem accumulates_of_parse_append {name : String} {p : StatePath}
    (h : parse ("resources." ++ name) = .ok p) : p.accumulates = true ∧ p.rest ≠ [] := by
  have hraw : "resources." ++ name = "resources" ++ "." ++ name := rfl
  have hdot : '.' ∉ "resources".toList := by decide
  rw [hraw] at h
  exact ⟨accumulates_iff.mpr (keys_of_parse_append hdot h).1, rest_ne_nil_of_parse_append hdot h⟩

end StatePath

end SurvivalRules
