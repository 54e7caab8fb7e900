/-!
# Codes

A text is a sequence of codes. Most are the codes of characters, but a text that is written in code units
can also hold half of a pair, and no character has that code. A half is kept as two characters, the
first of which leads all such pairs; the leading character itself is kept doubled.
-/
namespace SurvivalRules.Text

/-- The codes of the halves. -/
def isHalf (n : Nat) : Bool := 0xd800 ≤ n && n < 0xe000

def isHighHalf (n : Nat) : Bool := 0xd800 ≤ n && n < 0xdc00

def isLowHalf (n : Nat) : Bool := 0xdc00 ≤ n && n < 0xe000

/-- The code of a pair. -/
def codeOfPair (high low : Nat) : Nat := 0x10000 + (high - 0xd800) * 0x400 + (low - 0xdc00)

/-- A high half in front of a low half is one code. -/
def joinPairs : List Nat → List Nat
  | [] => []
  | [n] => [n]
  | n :: m :: rest =>
    if isHighHalf n ∧ isLowHalf m then codeOfPair n m :: joinPairs rest
    else n :: joinPairs (m :: rest)

/-- The character in front of another one that is not meant as it stands. -/
def lead : Char := Char.ofNat 0x10ffff

/-- What lies between a half and the character that stands for it. -/
def halfOffset : Nat := 0x100000

/-- The characters that a code is kept as. -/
def keptCode (n : Nat) : List Char :=
  if isHalf n then [lead, Char.ofNat (halfOffset + n)]
  else if n = lead.toNat then [lead, lead]
  else [Char.ofNat n]

def keptCodes (ns : List Nat) : List Char := ns.flatMap keptCode

def ofCodes (ns : List Nat) : String := String.ofList (keptCodes ns)

/-- The code that the character after a leading one stands for. -/
def ledCode (c : Char) : Nat :=
  if isHalf (c.toNat - halfOffset) then c.toNat - halfOffset else c.toNat

def codesOf : List Char → List Nat
  | [] => []
  | [c] => [c.toNat]
  | c :: d :: rest => if c = lead then ledCode d :: codesOf rest else c.toNat :: codesOf (d :: rest)

/-- The codes of a text. -/
def codes (s : String) : List Nat := codesOf s.toList

/-- Goes code by code; a shorter list stands before its extensions. -/
def codesLe : List Nat → List Nat → Bool
  | [], _ => true
  | _ :: _, [] => false
  | m :: ms, n :: ns => if m = n then codesLe ms ns else decide (m < n)

/-- Texts are in the order of their codes. -/
def le (a b : String) : Bool := codesLe (codes a) (codes b)

def hasHalf (s : String) : Bool := (codes s).any isHalf

/-- The text with the given characters. -/
def ofCharacters (s : String) : String := ofCodes (s.toList.map Char.toNat)

/-- The characters of a text, if each of its codes has one. -/
def characters? (s : String) : Option (List Char) :=
  if hasHalf s then none else some ((codes s).map Char.ofNat)

/-- The characters of a text as they are put out, with the replacement character for a half. -/
def toCharacters (s : String) : String :=
  String.ofList ((codes s).map fun n => if isHalf n then Char.ofNat 0xfffd else Char.ofNat n)

/-- The codes of characters and of halves. -/
def IsCode (n : Nat) : Prop := n.isValidChar ∨ isHalf n = true

theorem toNat_ofNat_of_isValidChar {n : Nat} (h : n.isValidChar) : (Char.ofNat n).toNat = n := by
  rw [Char.ofNat, dif_pos h]
  rfl

theorem isHalf_iff {n : Nat} : isHalf n = true ↔ 0xd800 ≤ n ∧ n < 0xe000 := by simp [isHalf]

theorem toNat_lead : lead.toNat = 0x10ffff := rfl

theorem toNat_halfOffset_add {n : Nat} (h : isHalf n = true) :
    (Char.ofNat (halfOffset + n)).toNat = halfOffset + n := by
  have hn := isHalf_iff.1 h
  apply toNat_ofNat_of_isValidChar
  unfold halfOffset Nat.isValidChar
  omega

/-- A half is told from the character that stands for it. -/
theorem ledCode_halfOffset_add {n : Nat} (h : isHalf n = true) :
    ledCode (Char.ofNat (halfOffset + n)) = n := by
  have hsub : (Char.ofNat (halfOffset + n)).toNat - halfOffset = n := by
    rw [toNat_halfOffset_add h]
    exact Nat.add_sub_cancel_left ..
  simp [ledCode, hsub, h]

theorem ledCode_lead : ledCode lead = lead.toNat := by decide

theorem codesOf_cons_of_ne {c : Char} (h : c ≠ lead) (cs : List Char) :
    codesOf (c :: cs) = c.toNat :: codesOf cs := by
  cases cs <;> simp [codesOf, h]

theorem codesOf_keptCode_append {n : Nat} (h : IsCode n) (cs : List Char) :
    codesOf (keptCode n ++ cs) = n :: codesOf cs := by
  unfold keptCode
  by_cases hh : isHalf n = true
  · simp [hh, codesOf, ledCode_halfOffset_add hh]
  · by_cases hl : n = lead.toNat
    · rw [if_neg hh, if_pos hl]
      simp [codesOf, ledCode_lead, hl]
    · have hv : n.isValidChar := h.resolve_right hh
      have hne : Char.ofNat n ≠ lead := fun he => hl (by rw [← he, toNat_ofNat_of_isValidChar hv])
      simp [hh, hl, codesOf_cons_of_ne hne, toNat_ofNat_of_isValidChar hv]

/-- Codes are read back as they were kept. -/
theorem codesOf_keptCodes {ns : List Nat} (h : ∀ n ∈ ns, IsCode n) : codesOf (keptCodes ns) = ns := by
  induction ns with
  | nil => rfl
  | cons n rest ih =>
    have hrest : codesOf (keptCodes rest) = rest := ih fun m hm => h m (by simp [hm])
    have hsplit : keptCodes (n :: rest) = keptCode n ++ keptCodes rest := by simp [keptCodes]
    rw [hsplit, codesOf_keptCode_append (h n (by simp)), hrest]

end SurvivalRules.Text
