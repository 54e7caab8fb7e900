import SurvivalRules.Proofs.Condition.Grammar
import SurvivalRules.Proofs.Condition.Joined
import SurvivalRules.Proofs.State.Spelling
import SurvivalRules.Proofs.Text.Decimal

/-!
# Two ways to ask for at least so much

A bound is asked for by a requirement `>=N` or by a comparison. Both read the same number, and where a value is
present both give the same answer. A missing value fails every comparison, but counts as zero for a requirement,
so that one is met if the bound does not stay positive as a number of the format.
-/
namespace SurvivalRules

open Text

namespace Requirement

variable {cs tail : List Char} {es : List ℕ} {s : String} {x : Binary64}

theorem boundFraction_cases (h : boundFraction cs = (es, tail)) :
    (es = [] ∧ tail = cs) ∨ ∃ fs, fs ≠ [] ∧ SpellsDigits fs es ∧ cs = '.' :: (fs ++ tail) := by
  unfold boundFraction splitFraction at h
  split at h
  · cases h
    exact Or.inl ⟨rfl, rfl⟩
  next found hsome hfraction =>
    subst h
    split at hfraction
    next rest =>
      obtain ⟨fs, rfl, hfs⟩ := exists_of_spanDigits (Option.some.inj hfraction)
      refine Or.inr ⟨fs, ?_, hfs, rfl⟩
      rintro rfl
      cases hfs
      exact hsome _ rfl
    next => cases hfraction
  · cases h
    exact Or.inl ⟨rfl, rfl⟩

/-- Digits, and a fraction behind them if there is one, make a decimal. -/
theorem exists_spellsDecimal (negative : Bool) {body afterWhole : List Char} {ds : List ℕ}
    (hspan : spanDigits digitValue? body = (ds, afterWhole)) (hne : ds ≠ [])
    (hfraction : boundFraction afterWhole = (es, tail)) :
    ∃ cs, body = cs ++ tail ∧
      SpellsDecimal (minus negative ++ cs) ⟨negative, Numeric.valueOfDigits (ds ++ es), -(es.length : ℤ)⟩ := by
  obtain ⟨whole, rfl, hwhole⟩ := exists_of_spanDigits hspan
  have hfilled : whole ≠ [] := by
    rintro rfl
    cases hwhole
    exact hne rfl
  rcases boundFraction_cases hfraction with ⟨rfl, rfl⟩ | ⟨fs, hfs, hdigits, rfl⟩
  · refine ⟨whole, rfl, ?_⟩
    rw [List.append_nil]
    exact .whole negative hwhole hfilled
  · exact ⟨whole ++ '.' :: fs, by simp, .fraction negative hwhole hfilled hdigits hfs⟩

theorem holdsOf_atLeast (h : atLeast? s = some x) (current : Value) :
    holdsOf (.text s) current = do
      let held ← (orZero current).toNumber
      return (Amount.float x).le (.float held) := by
  simp only [holdsOf, h]

/-- The bound of a requirement is a decimal with blanks around it. -/
theorem exists_decimal_of_atLeast? (h : atLeast? (">=" ++ s) = some x) : ∃ front cs back n,
    Blanks front ∧ Blanks back ∧ s.toList = front ++ cs ++ back ∧ SpellsDecimal cs n ∧ x = n.toBinary64 := by
  have hmark : dropBlanks (">=" ++ s).toList = '>' :: '=' :: s.toList := by
    rw [String.toList_append]
    rfl
  obtain ⟨front, hfront, hs⟩ := exists_blanks_dropBlanks s.toList
  unfold atLeast? at h
  rw [hmark] at h
  split at h
  next rest hrest =>
    cases hrest
    split at h
    next negative body hsign =>
      have hbody : dropBlanks s.toList = minus negative ++ body := by
        split at hsign
        next hminus =>
          cases hsign
          exact hminus
        next =>
          cases hsign
          rfl
      rcases hspan : spanDigits digitValue? body with ⟨ds, afterWhole⟩
      rcases hfraction : boundFraction afterWhole with ⟨es, tail⟩
      simp only [hspan, hfraction] at h
      split at h
      · cases h
      next hfull =>
        simp only [Bool.or_eq_true, not_or, Bool.not_eq_true', Bool.not_eq_false, List.isEmpty_iff] at hfull
        obtain ⟨cs, rfl, hcs⟩ := exists_spellsDecimal negative hspan hfull.1 hfraction
        refine ⟨front, _, tail, _, hfront, List.all_eq_true.mp hfull.2, ?_, hcs, (Option.some.inj h).symm⟩
        rw [hs, hbody]
        simp
  next => cases h

end Requirement

section

variable {cs front back path : List Char} {p : StatePath} {n : Scanned}

/-- A path, the operator and a decimal with blanks around it are read as the comparison with this number. -/
theorem read_atLeast (hpath : LinePath path p) (hfront : Blanks front) (hback : Blanks back)
    (hdecimal : SpellsDecimal cs n) :
    Term.read (trim (path ++ (" >= ".toList ++ (front ++ cs ++ back)))) =
      .ok (.compare p .atLeast (.number n.toBinary64)) := by
  have hne := hdecimal.ne_nil
  have hblank : Blanks (' ' :: front) := List.forall_mem_cons.mpr ⟨by decide, hfront⟩
  have htrim : trim (path ++ (" >= ".toList ++ (front ++ cs ++ back))) =
      path ++ ([' '] ++ Comparison.atLeast.symbol.toList ++ (' ' :: front ++ cs)) := by
    have hends := hpath.isTrimmed.between (ne_nil_of_parse hpath.parses) (" >= ".toList ++ front)
      hdecimal.isTrimmed hne
    have hcut : trim ([] ++ (path ++ (" >= ".toList ++ front) ++ cs) ++ back) = trim _ := trim_append blanks_nil hback
    rw [hends] at hcut
    simpa [Comparison.symbol] using hcut
  have htail : dropBlanks (' ' :: front ++ cs) = cs := by
    rw [dropBlanks_append hblank, hdecimal.isTrimmed.dropBlanks_eq]
  have hoperand : Operand.ofText (String.ofList (trim (' ' :: front ++ cs))) = .number n.toBinary64 := by
    rw [← trim_dropBlanks, htail, hdecimal.isTrimmed, Operand.ofText, hdecimal.looseNumber_eq]
  have hlongest : Comparison.atLeast.IsLongestAt (Comparison.atLeast.symbol.toList ++ (' ' :: front ++ cs)) :=
    ⟨List.prefix_append _ _, fun other _ => by cases other <;> decide⟩
  have hfilled : ¬ Blanks (' ' :: front ++ cs) := fun h => hne (by rw [← htail, dropBlanks_eq_nil_iff.mpr h])
  have hline : '\n' ∉ dropBlanks (' ' :: front ++ cs) := by
    rw [htail]
    intro hmem
    cases hdecimal.isBlank_eq _ hmem
  have hgap : Blanks [' '] := List.forall_mem_singleton.mpr (by decide)
  have hspells := Spells.compared hpath hgap hlongest hfilled hline
  rw [htrim, read_of_spells hspells, hoperand]

/-- No joint stands in such a text. -/
theorem joint_not_mem_atLeast (hpath : LinePath path p) (hfront : Blanks front) (hback : Blanks back)
    (hdecimal : SpellsDecimal cs n) : ∀ c ∈ ['&', '|'], c ∉ path ++ (" >= ".toList ++ (front ++ cs ++ back)) := by
  have hjoint : ∀ c ∈ ['&', '|'], StatePath.isPathChar c = false ∧ c ≠ '.' ∧ c ≠ '-' ∧ c ∉ " >= ".toList ∧
      isBlank c = false ∧ digitValue? c = none :=
    List.forall_mem_cons.mpr ⟨by decide, List.forall_mem_singleton.mpr (by decide)⟩
  intro c hc hmem
  obtain ⟨hchar, hpoint, hsign, hoperator, hblank, hdigit⟩ := hjoint c hc
  have hnot : ∀ {bs : List Char}, Blanks bs → c ∉ bs := fun h hin => by
    rw [h c hin] at hblank
    cases hblank
  simp only [List.mem_append] at hmem
  rcases hmem with hin | hin | (hin | hin) | hin
  · have hplain := StatePath.isPathChar_of_mem_parse hpath.parses (by rwa [String.toList_ofList])
    rcases hplain with he | he | rfl
    · exact hpoint he
    · rw [hchar] at he
      cases he
    · exact hpath.line hin
  · exact hoperator hin
  · exact hnot hfront hin
  · rcases hdecimal.mem_cases hin with he | he | ⟨d, hd⟩
    · exact hsign he
    · exact hpoint he
    · cases hdigit.symm.trans hd
  · exact hnot hback hin

end

section

variable {path s : String} {p : StatePath} {n : Scanned} {state : Tree}

/-- The comparison asks for the number that the decimal is rounded to. -/
theorem Raising.evaluate_atLeast (hpath : LinePath path.toList p) {front cs back : List Char}
    (hfront : Blanks front) (hback : Blanks back) (hs : s.toList = front ++ cs ++ back)
    (hdecimal : SpellsDecimal cs n) :
    evaluate (path ++ " >= " ++ s) state = raise do
      let held ← (state.get p).toNumber
      return (Amount.float n.toBinary64).le (.float held) := by
  have htext : (path ++ " >= " ++ s).toList = path.toList ++ (" >= ".toList ++ (front ++ cs ++ back)) := by
    rw [String.toList_append, String.toList_append, hs, List.append_assoc]
  have hreads : ReadsAs (path ++ " >= " ++ s) (.compare p .atLeast (.number n.toBinary64)) := by
    rw [ReadsAs, htext]
    exact read_atLeast hpath hfront hback hdecimal
  have hjoint := joint_not_mem_atLeast hpath hfront hback hdecimal
  have hatom : IsAtom (path ++ " >= " ++ s) := by
    rw [isAtom_iff, htext]
    exact ⟨hjoint '&' (by simp), hjoint '|' (by simp), _, hreads⟩
  rw [hatom.evaluate_eq hreads]
  rfl

/-- The requirement asks for the same number, and takes a missing value for zero. -/
theorem Raising.requirementHolds_atLeast {x : Binary64} (hparse : StatePath.parse path = .ok p)
    (h : Requirement.atLeast? (">=" ++ s) = some x) :
    requirementHolds path (.text (">=" ++ s)) state = raise do
      let held ← (Requirement.orZero (state.get p)).toNumber
      return (Amount.float x).le (.float held) := by
  unfold requirementHolds getPath parsePath
  rw [hparse]
  exact congrArg raise (Requirement.holdsOf_atLeast h _)

/-- A requirement `>=N` and a comparison with `N` give one answer, or one error, wherever a value is present. A
missing value fails the comparison, and meets the requirement if `N` is at most half of the smallest positive
number of the format. -/
theorem atLeast_spellings_agree {keys : List String} {bound : Binary64}
    (hpath : StatePath.Dotted StatePath.IsKey keys path)
    (hbound : Requirement.atLeast? (">=" ++ s) = some bound) :
    ∃ n, SpellsDecimal (trim s.toList) n ∧ bound = n.toBinary64 ∧ ∀ state : Tree,
      (∃ v, Raising.getPath path state = .ok v) ∧
      (Raising.getPath path state ≠ .ok .null →
        Raising.requirementHolds path (.text (">=" ++ s)) state =
          Raising.evaluate (path ++ " >= " ++ s) state) ∧
      (Raising.getPath path state = .ok .null →
        Raising.evaluate (path ++ " >= " ++ s) state = .ok false ∧
        Raising.requirementHolds path (.text (">=" ++ s)) state =
          .ok (decide (n.value ≤ (2 : ℚ) ^ (-1075 : ℤ)))) := by
  obtain ⟨front, cs, back, n, hfront, hback, hs, hdecimal, rfl⟩ := Requirement.exists_decimal_of_atLeast? hbound
  obtain ⟨p, hp, -⟩ := StatePath.exists_parse_iff.mpr (hpath.imp fun k hk => ⟨k, hk, Or.inl rfl⟩)
  have hline : LinePath path.toList p := ⟨by rwa [String.ofList_toList], hpath.line_end_not_mem⟩
  have htrim : trim s.toList = cs := by rw [hs, trim_append hfront hback, hdecimal.isTrimmed]
  refine ⟨n, htrim ▸ hdecimal, rfl, fun state => ?_⟩
  rw [Raising.getPath_of_parse hp, Raising.evaluate_atLeast hline hfront hback hs hdecimal,
    Raising.requirementHolds_atLeast hp hbound]
  refine ⟨⟨_, rfl⟩, fun hpresent => ?_, fun hmissing => ?_⟩
  · have hvalue : Requirement.orZero (state.get p) = state.get p := by
      unfold Requirement.orZero
      split
      next hnull =>
        have hv : state.get p = .null := by cases h : state.get p <;> simp_all [Value.isNull]
        exact absurd (congrArg Except.ok hv) hpresent
      next => rfl
    rw [hvalue]
  · have hnull : state.get p = .null := Except.ok.inj hmissing
    rw [hnull]
    have hzero : (Requirement.orZero .null).toNumber = .ok Binary64.zero := by decide +kernel
    have hbelow : (Amount.float n.toBinary64).le (.float .zero) = decide (n.value ≤ (2 : ℚ) ^ (-1075 : ℤ)) :=
      Bool.eq_iff_iff.mpr (n.toBinary64_le_zero_iff.trans decide_eq_true_iff.symm)
    rw [hzero]
    exact ⟨congrArg Except.ok (Amount.not_le_of_isNaN rfl), congrArg Except.ok hbelow⟩

end

theorem dotted_wood : StatePath.Dotted StatePath.IsKey ["resources", "wood"] "resources.wood" :=
  (StatePath.exists_parse_iff.mp ⟨woodPath, by decide +kernel, rfl⟩).isKey (by decide)

/-- A text that reads as a number is compared as one by both spellings, also with blanks around the bound. -/
theorem wood_bound_spelled_twice :
    StatePath.Dotted StatePath.IsKey ["resources", "wood"] "resources.wood" ∧
    Requirement.atLeast? (">=" ++ " 2.50 ") = some (Binary64.nearest (5 / 2)) ∧
    Raising.requirementHolds "resources.wood" (.text (">=" ++ " 2.50 "))
        [("resources", .mapping [("wood", .text "3")])] =
      Raising.evaluate ("resources.wood" ++ " >= " ++ " 2.50 ")
        [("resources", .mapping [("wood", .text "3")])] := by
  have hbound : Requirement.atLeast? (">=" ++ " 2.50 ") = some (Binary64.nearest (5 / 2)) := by decide +kernel
  obtain ⟨n, -, -, hstates⟩ := atLeast_spellings_agree dotted_wood hbound
  obtain ⟨-, hpresent, -⟩ := hstates [("resources", .mapping [("wood", .text "3")])]
  refine ⟨dotted_wood, hbound, hpresent ?_⟩
  rw [Raising.getPath_of_parse (show StatePath.parse "resources.wood" = .ok woodPath by decide +kernel)]
  exact fun h => absurd (Except.ok.inj h) (by decide +kernel)

/-- A decimal above zero that the format rounds to zero. -/
def belowFormat : String := "0." ++ String.ofList (List.replicate 340 '0') ++ "1"

/-- A requirement with a bound above zero that is met by a missing value. -/
theorem requirement_met_below_format :
    StatePath.Dotted StatePath.IsKey ["resources", "wood"] "resources.wood" ∧
    (Requirement.atLeast? (">=" ++ belowFormat)).isSome = true ∧
    (∃ n, SpellsDecimal (trim belowFormat.toList) n ∧ 0 < n.value) ∧
    Raising.getPath "resources.wood" [] = .ok .null ∧
    Raising.requirementHolds "resources.wood" (.text (">=" ++ belowFormat)) [] = .ok true := by
  have hchars : belowFormat.toList = '0' :: '.' :: (List.replicate 340 '0' ++ ['1']) := by
    have hwhole : "0.".toList = ['0', '.'] := by decide
    have hlast : "1".toList = ['1'] := by decide
    rw [belowFormat, String.toList_append, String.toList_append, hwhole, hlast, String.toList_ofList, List.append_assoc,
      List.cons_append, List.cons_append, List.nil_append]
  have hbound : Requirement.atLeast? (">=" ++ belowFormat) = some .zero := by
    rw [Requirement.atLeast?, String.toList_append, hchars]
    decide +kernel
  have hparse : StatePath.parse "resources.wood" = .ok woodPath := by decide +kernel
  refine ⟨dotted_wood, by rw [hbound]; rfl, ?_, Raising.getPath_of_parse hparse [], ?_⟩
  · obtain ⟨front, cs, back, n, hfront, hback, hs, hdecimal, -⟩ := Requirement.exists_decimal_of_atLeast? hbound
    have htrim : trim belowFormat.toList = cs := by rw [hs, trim_append hfront hback, hdecimal.isTrimmed]
    have hscan : scanNumber digitValue? (trim belowFormat.toList) = some (⟨false, 1, -341⟩, []) := by
      rw [hchars]
      decide +kernel
    rw [htrim, hdecimal.scanNumber_eq] at hscan
    cases hscan
    have hvalue : (⟨false, 1, -341⟩ : Scanned).value = ((1 : ℕ) : ℚ) * (10 : ℚ) ^ (-341 : ℤ) := rfl
    refine ⟨_, htrim ▸ hdecimal, ?_⟩
    rw [hvalue]
    positivity
  · have hzero : (Requirement.orZero (Tree.get [] woodPath)).toNumber = .ok .zero := by decide +kernel
    have hmet : (Amount.float .zero).le (.float .zero) = true := by decide +kernel
    rw [Raising.requirementHolds_atLeast hparse hbound, hzero]
    exact congrArg Except.ok hmet

end SurvivalRules
