import Mathlib
import SurvivalRules.Numeric.Numeral

/-!
# Laws of decimal numerals

A whole number is below the power of ten that its length stands for, so its digits tell which number it is. A
numeral has no blanks.
-/
namespace SurvivalRules.Numeric

variable {n m count : ℕ}

theorem lt_ten_pow_decimalLength_go {fuel : ℕ} (h : n < 2 ^ (fuel + 1)) : n < 10 ^ decimalLength.go fuel n := by
  induction fuel generalizing n with
  | zero =>
    rw [decimalLength.go]
    omega
  | succ fuel ih =>
    rw [decimalLength.go]
    split
    next hsmall => simpa using hsmall
    next =>
      have htenth : n / 10 < 2 ^ (fuel + 1) := by
        rw [pow_succ] at h
        omega
      have := ih htenth
      rw [pow_succ]
      omega

theorem lt_ten_pow_decimalLength (n : ℕ) : n < 10 ^ decimalLength n :=
  lt_ten_pow_decimalLength_go Nat.lt_log2_self

theorem exists_decimalLength_go (fuel n : ℕ) : ∃ k, decimalLength.go fuel n = k + 1 := by
  cases fuel with
  | zero => exact ⟨0, rfl⟩
  | succ fuel =>
    rw [decimalLength.go]
    split
    · exact ⟨0, rfl⟩
    · exact ⟨_, rfl⟩

theorem ten_pow_le_of_decimalLength_go {fuel n : ℕ} (hn : n ≠ 0) :
    10 ^ (decimalLength.go fuel n - 1) ≤ n := by
  have hone : 1 ≤ n := Nat.one_le_iff_ne_zero.mpr hn
  induction fuel generalizing n with
  | zero => simpa [decimalLength.go] using hone
  | succ fuel ih =>
    rw [decimalLength.go]
    split
    next => simpa using hone
    next hlarge =>
      have htenth := ih (n := n / 10) (by omega) (by omega)
      obtain ⟨k, hk⟩ := exists_decimalLength_go fuel (n / 10)
      rw [hk, Nat.add_sub_cancel] at htenth ⊢
      rw [pow_succ]
      omega

theorem ten_pow_le_of_ne_zero (hn : n ≠ 0) : 10 ^ (decimalLength n - 1) ≤ n := ten_pow_le_of_decimalLength_go hn

theorem decimalLength_pos (n : ℕ) : 0 < decimalLength n := by
  obtain ⟨k, hk⟩ := exists_decimalLength_go n.log2 n
  rw [decimalLength, hk]
  exact k.succ_pos

theorem decimalLength_le_iff (hcount : 0 < count) : decimalLength n ≤ count ↔ n < 10 ^ count := by
  constructor
  · exact fun h => (lt_ten_pow_decimalLength n).trans_le (Nat.pow_le_pow_right (by decide) h)
  · intro h
    by_cases hn : n = 0
    · subst hn
      exact hcount
    · have hpow : 10 ^ (decimalLength n - 1) < 10 ^ count := (ten_pow_le_of_ne_zero hn).trans_lt h
      have := (Nat.pow_lt_pow_iff_right (by decide)).mp hpow
      omega

/-- What is between two whole numbers that are written can be written, too. -/
theorem isWritable_of_between {low high k : ℤ} (hlow : isWritable low = true) (hhigh : isWritable high = true)
    (h : low ≤ k) (h' : k ≤ high) : isWritable k = true := by
  have hpos : 0 < maxWholeDigits := by decide
  unfold isWritable at hlow hhigh ⊢
  rw [decide_eq_true_eq, decimalLength_le_iff hpos] at hlow hhigh ⊢
  omega

theorem length_lastDigits (count n : ℕ) : (lastDigits count n).length = count := by
  induction count generalizing n with
  | zero => rfl
  | succ count ih => rw [lastDigits, List.length_append, ih, List.length_singleton]

theorem exists_of_mem_lastDigits {c : Char} (h : c ∈ lastDigits count n) : ∃ d < 10, c = Char.ofNat (48 + d) := by
  induction count generalizing n with
  | zero => cases h
  | succ count ih =>
    rcases List.mem_append.mp h with hfront | hend
    · exact ih hfront
    · exact ⟨n % 10, Nat.mod_lt _ (by decide), List.mem_singleton.mp hend⟩

theorem lastDigits_succ (count n : ℕ) :
    lastDigits (count + 1) n = digitChar (n / 10 ^ count) :: lastDigits count n := by
  induction count generalizing n with
  | zero => simp [lastDigits]
  | succ count ih =>
    rw [lastDigits, ih, Nat.div_div_eq_div_mul, ← pow_succ', lastDigits, List.cons_append]

/-- No zero stands in front of a number but zero. -/
theorem exists_digits_eq_cons (hn : n ≠ 0) :
    ∃ d rest, 1 ≤ d ∧ d < 10 ∧ digits n = Char.ofNat (48 + d) :: rest := by
  obtain ⟨k, hk⟩ : ∃ k, decimalLength n = k + 1 := exists_decimalLength_go n.log2 n
  have hlow := ten_pow_le_of_ne_zero hn
  have hhigh := lt_ten_pow_decimalLength n
  rw [hk, Nat.add_sub_cancel] at hlow
  rw [hk, pow_succ] at hhigh
  have hfirst : n / 10 ^ k < 10 := Nat.div_lt_of_lt_mul hhigh
  refine ⟨n / 10 ^ k, lastDigits k n, Nat.div_pos hlow (by positivity), hfirst, ?_⟩
  rw [digits, hk, lastDigits_succ, digitChar, Nat.mod_eq_of_lt hfirst]

end SurvivalRules.Numeric
