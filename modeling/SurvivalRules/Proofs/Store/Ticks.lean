import SurvivalRules.Proofs.Numeric.Order
import SurvivalRules.Proofs.Numeric.Small
import SurvivalRules.Proofs.Store.Elapse

/-!
# Ticks add up

Where timers are whole numbers, two ticks of whole seconds leave what one tick of their sum leaves. A timer goes
out in the first of them, in the second, or in neither, and the long tick reports those of the first two kinds.
-/
namespace SurvivalRules

namespace Binary64

variable {x : Binary64} {n m : ℤ}

/-- A number other than zero is known by its value. -/
theorem eq_ofInt_of_toRat? (hx : x.toRat? = some (n : ℚ)) (hn : n ≠ 0) (hle : n.natAbs ≤ significandBound) :
    x = ofInt n := by
  rw [ofInt_eq_finite hle]
  cases x with
  | finite q hq =>
    cases hx
    rfl
  | negativeZero =>
    have hzero : (n : ℚ) = 0 := (Option.some.inj hx).symm
    exact absurd (Int.cast_eq_zero.mp hzero) hn
  | _ => cases hx

theorem toRat?_ofInt_of_le (hm : m.natAbs ≤ 2 * significandBound) :
    (ofInt m).toRat? = some (roundedValue (m : ℚ)) := by
  have habs : |(m : ℚ)| = (m.natAbs : ℚ) := by simp
  have hle : |(m : ℚ)| ≤ 2 ^ 54 := by
    rw [habs]
    exact_mod_cast hm
  exact toRat?_nearest (inRange_of_abs_le_two_pow hle (by decide))

/-- Taking off at least as much as there is leaves nothing above zero, also where what is taken off is rounded. -/
theorem sub_ofInt_le_zero (hx : x.toRat? = some (n : ℚ)) (hn : n.natAbs ≤ significandBound)
    (hm : m.natAbs ≤ 2 * significandBound) (hle : n ≤ m) :
    (Amount.float (x.sub (ofInt m))).le .zero = true := by
  have hround : (n : ℚ) ≤ roundedValue (m : ℚ) := by
    rw [← roundedValue_intCast hn]
    exact roundedValue_mono (by exact_mod_cast hle)
  by_cases hzeros : x = .negativeZero ∧ (ofInt m).neg = .negativeZero
  · rw [sub, hzeros.1, hzeros.2]
    decide
  · rw [sub, add_eq_nearest hx (toRat?_neg (toRat?_ofInt_of_le hm)) hzeros]
    exact nearest_le (x := zero) (p := 0) rfl (by linarith)

end Binary64

/-- The value is the whole number `n` below `2 ^ 53`, of either kind of number. -/
def Value.IsSeconds (v : Value) (n : ℤ) : Prop :=
  n.natAbs < significandBound ∧ (v = .int n ∨ ∃ x, v = .float x ∧ x.toRat? = some (n : ℚ))

namespace Store

open Binary64

variable {v : Value} {n a b : ℤ}

/-- A timer that has no more than the time that passes goes out. -/
theorem exists_leftOf_of_le (h : v.IsSeconds n) (hle : n ≤ a) (ha : a.natAbs ≤ 2 * significandBound) :
    ∃ remaining, leftOf (.int a) v = .ok remaining ∧ remaining.le .zero = true := by
  obtain ⟨hn, rfl | ⟨x, rfl, hx⟩⟩ := h
  · exact ⟨.int (n - a), rfl, Amount.le_int_iff.mpr (by omega)⟩
  · refine ⟨.float (x.sub (ofInt a)), ?_, sub_ofInt_le_zero hx hn.le ha hle⟩
    have hconvert := Amount.toBinary64_of_toRat? (toRat?_ofInt_of_le ha)
    simp only [leftOf, Value.numeric?, Value.amount?, Amount.sub, Amount.combine, hconvert]
    rfl

/-- What a number of seconds has left when it is more than the time that passes; it keeps its kind. -/
def remainder (v : Value) (n a : ℤ) : Amount :=
  match v with
  | .float _ => .float (ofInt (n - a))
  | _ => .int (n - a)

theorem leftOf_of_lt (h : v.IsSeconds n) (ha : 0 < a) (hlt : a < n) :
    leftOf (.int a) v = .ok (remainder v n a) := by
  obtain ⟨hn, rfl | ⟨x, rfl, hx⟩⟩ := h
  · rfl
  · obtain rfl := eq_ofInt_of_toRat? hx (by omega) hn.le
    have hsub := sub_ofInt (m := n) (n := a) hn.le (by omega)
    simp only [leftOf, Value.numeric?, Value.amount?, Amount.sub, Amount.combine,
      Amount.toBinary64_int (show a.natAbs ≤ significandBound by omega), remainder, ← hsub]
    rfl

theorem not_remainder_le_zero (h : v.IsSeconds n) (ha : 0 < a) (hlt : a < n) :
    (remainder v n a).le .zero = false := by
  have hn := h.1
  rw [Bool.eq_false_iff]
  unfold remainder
  split
  · rw [ne_eq, Amount.le_ofInt_zero_iff (by omega)]
    omega
  · rw [ne_eq, Amount.zero, Amount.le_int_iff]
    omega

theorem isSeconds_remainder (h : v.IsSeconds n) (ha : 0 < a) (hlt : a < n) :
    (Value.ofAmount (remainder v n a)).IsSeconds (n - a) := by
  have hn := h.1
  refine ⟨by omega, ?_⟩
  unfold remainder
  split
  · exact Or.inr ⟨_, rfl, toRat?_ofInt (by omega)⟩
  · exact Or.inl rfl

theorem remainder_remainder (v : Value) (n a b : ℤ) :
    remainder (.ofAmount (remainder v n a)) (n - a) b = remainder v n (a + b) := by
  cases v <;> simp only [remainder, Value.ofAmount, Int.sub_sub]

/-- The two ticks and the long one over the same timers; by induction on the timers, each of which goes out in the
first tick, in the second, or in neither. -/
theorem exists_elapses_twice {before : Tree} (htimers : ∀ e ∈ before, ∃ n, e.2.IsSeconds n)
    (ha : 0 < a) (ha' : a < significandBound) (hb : 0 < b) (hb' : b < significandBound) :
    ∃ between running first second ready, Elapses (.int a) before between first ∧
      Elapses (.int b) between running second ∧ Elapses (.int (a + b)) before running ready ∧
      (first ++ second).Perm ready := by
  induction before with
  | nil => exact ⟨[], [], [], [], [], .done, .done, .done, .refl []⟩
  | cons e rest ih =>
    obtain ⟨id, timer⟩ := e
    obtain ⟨⟨n, htimer⟩, hrest⟩ := List.forall_mem_cons.mp htimers
    obtain ⟨between, running, first, second, ready, hfirst, hsecond, hlong, hperm⟩ := ih hrest
    rcases le_or_gt n (a + b) with hout | hon
    · obtain ⟨_, hleft, hle⟩ := exists_leftOf_of_le htimer hout (by omega)
      have hlong' : Elapses (.int (a + b)) ((id, timer) :: rest) running (id :: ready) := .out hleft hle hlong
      rcases le_or_gt n a with hsoon | hlate
      · obtain ⟨_, hleft, hle⟩ := exists_leftOf_of_le htimer hsoon (by omega)
        exact ⟨between, running, id :: first, second, id :: ready, .out hleft hle hfirst, hsecond, hlong',
          hperm.cons id⟩
      · obtain ⟨_, hleft, hle⟩ := exists_leftOf_of_le (isSeconds_remainder htimer ha hlate)
          (show n - a ≤ b by omega) (by omega)
        have hfirst' : Elapses (.int a) ((id, timer) :: rest)
            ((id, .ofAmount (remainder timer n a)) :: between) first :=
          .on (leftOf_of_lt htimer ha hlate) (not_remainder_le_zero htimer ha hlate) hfirst
        exact ⟨_, running, first, id :: second, id :: ready, hfirst', .out hleft hle hsecond, hlong',
          List.perm_middle.trans (hperm.cons id)⟩
    · have hstill := isSeconds_remainder htimer ha (show a < n by omega)
      have hfirst' : Elapses (.int a) ((id, timer) :: rest)
          ((id, .ofAmount (remainder timer n a)) :: between) first :=
        .on (leftOf_of_lt htimer ha (by omega)) (not_remainder_le_zero htimer ha (by omega)) hfirst
      have hsecond' : Elapses (.int b) ((id, .ofAmount (remainder timer n a)) :: between)
          ((id, .ofAmount (remainder timer n (a + b))) :: running) second := by
        rw [← remainder_remainder]
        exact .on (leftOf_of_lt hstill hb (by omega)) (not_remainder_le_zero hstill hb (by omega)) hsecond
      have hlong' : Elapses (.int (a + b)) ((id, timer) :: rest)
          ((id, .ofAmount (remainder timer n (a + b))) :: running) ready :=
        .on (leftOf_of_lt htimer (by omega) hon) (not_remainder_le_zero htimer (by omega) hon) hlong
      exact ⟨_, _, first, second, ready, hfirst', hsecond', hlong', hperm⟩

variable {s s' : Store} {seconds : Amount} {timers before running : Tree} {ready : List String}

/-- The ids that are reported are names of timers, in their order. -/
theorem Elapses.ready_sublist (h : Elapses seconds before running ready) :
    ready.Sublist (OrderedMap.keys before) := by
  induction h with
  | done => exact List.Sublist.refl []
  | out _ _ _ ih => exact ih.cons_cons _
  | on _ _ _ ih => exact ih.cons _

theorem tick_of_elapses {m : ℤ} (hpos : 0 < m)
    (htimers : timersOf (s.state.lookup Section.cooldowns.name) = .ok timers)
    (h : Elapses (.int m) timers running ready) : s.tick (.int m) = .ok (ready,
      s.replace (OrderedMap.insert Section.cooldowns.name (.mapping running) s.state)) := by
  refine tick_eq_ok_iff.mpr ⟨.int m, rfl, advance_eq_ok_iff.mpr (Or.inr ⟨?_, timers, running, htimers, h, rfl⟩)⟩
  rw [Bool.eq_false_iff, ne_eq, Amount.zero, Amount.le_int_iff]
  omega

/-- Whole seconds that pass in two ticks leave the store as one tick of all of them does, and the ids that the two
report are those that the one reports, each of them once. -/
theorem ticks_add_up (hshape : (s.state.lookup "cooldowns").isVacant = true ∨
      ∃ timers, s.state.lookup "cooldowns" = .mapping timers)
    (hnames : s.state.DistinctAt "cooldowns") (htimers : ∀ e ∈ s.timers, ∃ n, e.2.IsSeconds n)
    (ha : 0 < a) (ha' : a < significandBound) (hb : 0 < b) (hb' : b < significandBound) :
    ∃ first second ready s₁ s₂, s.tick (.int a) = .ok (first, s₁) ∧ s₁.tick (.int b) = .ok (second, s₂) ∧
      s.tick (.int (a + b)) = .ok (ready, s₂) ∧ (first ++ second).Perm ready ∧ ready.Nodup := by
  obtain ⟨between, running, first, second, ready, hfirst, hsecond, hlong, hperm⟩ :=
    exists_elapses_twice htimers ha ha' hb hb'
  have hhanded := timersOf_of_section? (timers_section?_eq hshape)
  have htick := tick_of_elapses ha hhanded hfirst
  have hnext := timersOf_of_section? (Tree.section?_of_lookup
    (Tree.lookup_insert_self s.state Section.cooldowns.name (.mapping between)))
  have hagain := tick_of_elapses (s := s.replace (OrderedMap.insert Section.cooldowns.name (.mapping between)
    s.state)) hb hnext hsecond
  have hlast := tick_of_elapses (show 0 < a + b by omega) hhanded hlong
  simp only [state_replace, OrderedMap.insert_insert_self] at hagain
  exact ⟨first, second, ready, _, _, htick, hagain, hlast, hperm, hlong.ready_sublist.nodup hnames⟩

/-- A store with timers of both kinds, of which one is at zero and one below. -/
def duskStore : Store :=
  .start .empty [("cooldowns", .mapping [("fire", .float (Binary64.ofInt 10)), ("hunt", .int 3), ("fish", .int 7),
    ("rest", .float .negativeZero), ("scout", .int (-2))])] zeroDraws false

theorem duskStore_isSeconds : ∀ e ∈ duskStore.timers, ∃ n, e.2.IsSeconds n := by
  have htimers : duskStore.timers = [("fire", .float (Binary64.ofInt 10)), ("hunt", .int 3), ("fish", .int 7),
    ("rest", .float .negativeZero), ("scout", .int (-2))] := rfl
  simp only [htimers, List.forall_mem_cons, List.not_mem_nil, false_implies, implies_true, and_true]
  exact ⟨⟨10, by decide, .inr ⟨_, rfl, toRat?_ofInt (by decide)⟩⟩, ⟨3, by decide, .inl rfl⟩,
    ⟨7, by decide, .inl rfl⟩, ⟨0, by decide, .inr ⟨_, rfl, rfl⟩⟩, ⟨-2, by decide, .inl rfl⟩⟩

theorem dusk_ticks_add_up :
    duskStore.state.DistinctAt "cooldowns" ∧ (∀ e ∈ duskStore.timers, ∃ n, e.2.IsSeconds n) ∧
      (∃ first second ready s₁ s₂, duskStore.tick (.int 4) = .ok (first, s₁) ∧
        s₁.tick (.int 3) = .ok (second, s₂) ∧ duskStore.tick (.int (4 + 3)) = .ok (ready, s₂) ∧
        (first ++ second).Perm ready ∧ ready.Nodup) ∧
      (duskStore.tick (.int 4)).map Prod.fst = .ok ["hunt", "rest", "scout"] ∧
      (duskStore.tick (.int 7)).map Prod.fst = .ok ["hunt", "fish", "rest", "scout"] := by
  have hnames : duskStore.state.DistinctAt "cooldowns" := by
    unfold Tree.DistinctAt
    decide +kernel
  exact ⟨hnames, duskStore_isSeconds, ticks_add_up (Or.inr ⟨_, rfl⟩) hnames duskStore_isSeconds (by decide)
    (by decide) (by decide) (by decide), by decide +kernel, by decide +kernel⟩

end Store

end SurvivalRules
