/-!
# Rounding of exact quotients

The order of magnitude of a rational and rounding to the nearest integer with ties to even. All
arithmetic is exact; a number format only chooses the grid.
-/
namespace SurvivalRules.Numeric

def magnitude (q : Rat) : Rat := if q < 0 then -q else q

/-- The nearest integer; a half goes to the even neighbour. -/
def nearestEven (q : Rat) : Int :=
  let lower := q.floor
  let rest := q - lower
  if rest < 1 / 2 then lower
  else if 1 / 2 < rest then lower + 1
  else if lower % 2 = 0 then lower else lower + 1

/-- Rounding toward zero. -/
def truncated (q : Rat) : Int := if q < 0 then -(-q).floor else q.floor

/-- The exponent `e` with `2 ^ e ≤ |q| < 2 ^ (e + 1)`, for `q ≠ 0`. -/
def binaryOrder (q : Rat) : Int :=
  let guess : Int := (q.num.natAbs.log2 : Int) - q.den.log2
  if (2 : Rat) ^ guess ≤ magnitude q then guess else guess - 1

/-- How many decimal digits `n` has. -/
def decimalLength (n : Nat) : Nat := go n.log2 n
where
  /-- One digit for each division by ten; the bit length bounds their number. -/
  go : Nat → Nat → Nat
    | 0, _ => 1
    | fuel + 1, n => if n < 10 then 1 else go fuel (n / 10) + 1

/-- The exponent `e` with `10 ^ e ≤ |q| < 10 ^ (e + 1)`, for `q ≠ 0`. -/
def decimalOrder (q : Rat) : Int :=
  let guess : Int := (decimalLength q.num.natAbs : Int) - decimalLength q.den
  if (10 : Rat) ^ guess ≤ magnitude q then guess else guess - 1

theorem magnitude_nonneg (q : Rat) : 0 ≤ magnitude q := by
  unfold magnitude
  split <;> grind

theorem mul_den_eq_num (q : Rat) : q * (q.den : Rat) = (q.num : Rat) := by
  have hden : (q.den : Rat) ≠ 0 := by exact_mod_cast q.den_nz
  have h : (q.num : Rat) / (q.den : Rat) = q := by
    rw [← Rat.mkRat_eq_div, Rat.mkRat_self]
  calc q * (q.den : Rat) = (q.num : Rat) / (q.den : Rat) * (q.den : Rat) := by rw [h]
    _ = (q.num : Rat) := Rat.div_mul_cancel hden

theorem magnitude_mul_den (q : Rat) : magnitude q * (q.den : Rat) = (q.num.natAbs : Rat) := by
  have hden := mul_den_eq_num q
  unfold magnitude
  split
  next h =>
    have hn : ¬ 0 ≤ q.num := by rw [Rat.num_nonneg]; grind
    have : ((q.num.natAbs : Nat) : Int) = -q.num := by omega
    rw [← Rat.intCast_natCast q.num.natAbs, this, Rat.neg_mul, hden]
    simp
  next h =>
    have hn : 0 ≤ q.num := by rw [Rat.num_nonneg]; grind
    have : ((q.num.natAbs : Nat) : Int) = q.num := by omega
    rw [← Rat.intCast_natCast q.num.natAbs, this, hden]

theorem nearestEven_le {q : Rat} {n : Int} (h : q ≤ n) : nearestEven q ≤ n := by
  have hfl : q.floor ≤ n := by
    have := Rat.floor_le (a := q)
    have : ((q.floor : Int) : Rat) ≤ n := by grind
    exact Rat.intCast_le_intCast.1 this
  unfold nearestEven
  simp only
  by_cases heq : q.floor = n
  · have hlt : q - (q.floor : Rat) < 1 / 2 := by rw [heq]; grind
    rw [if_pos hlt]
    exact hfl
  · have : q.floor + 1 ≤ n := by omega
    split
    · exact hfl
    · split
      · exact this
      · split
        · exact hfl
        · exact this

theorem le_nearestEven {q : Rat} {n : Int} (h : (n : Rat) ≤ q) : n ≤ nearestEven q := by
  have hfl : n ≤ q.floor := Rat.le_floor_iff.2 h
  unfold nearestEven
  simp only
  split
  · exact hfl
  · split
    · omega
    · split <;> omega

theorem natCast_lt_two_pow (n : Nat) : ((n : Nat) : Rat) < (2 : Rat) ^ ((n.log2 : Int) + 1) := by
  have h : n < 2 ^ (n.log2 + 1) := Nat.lt_log2_self
  have : ((n.log2 : Int) + 1) = ((n.log2 + 1 : Nat) : Int) := by omega
  rw [this, Rat.zpow_natCast]
  have hc : ((2 ^ (n.log2 + 1) : Nat) : Rat) = (2 : Rat) ^ (n.log2 + 1) := by
    simp
  rw [← hc]
  exact Rat.natCast_lt_natCast.2 h

theorem two_pow_log2_le {n : Nat} (h : n ≠ 0) : (2 : Rat) ^ (n.log2 : Int) ≤ (n : Rat) := by
  rw [Rat.zpow_natCast]
  have hc : ((2 ^ n.log2 : Nat) : Rat) = (2 : Rat) ^ n.log2 := by simp
  rw [← hc]
  exact Rat.natCast_le_natCast.2 (Nat.log2_self_le h)

/-- A rational lies below the power of two that follows its order. -/
theorem magnitude_lt_two_pow (q : Rat) : magnitude q < (2 : Rat) ^ (binaryOrder q + 1) := by
  unfold binaryOrder
  simp only
  split
  · have hden : (0 : Rat) < (q.den : Rat) := by
      exact_mod_cast Nat.pos_of_ne_zero q.den_nz
    have hn := natCast_lt_two_pow q.num.natAbs
    have hd := two_pow_log2_le q.den_nz
    have hmul := magnitude_mul_den q
    have hsplit : (2 : Rat) ^ ((q.num.natAbs.log2 : Int) - q.den.log2 + 1) * (2 : Rat) ^ (q.den.log2 : Int)
        = (2 : Rat) ^ ((q.num.natAbs.log2 : Int) + 1) := by
      rw [← Rat.zpow_add (by decide)]
      congr 1
      omega
    have hpos : (0 : Rat) ≤ (2 : Rat) ^ ((q.num.natAbs.log2 : Int) - q.den.log2 + 1) :=
      Rat.le_of_lt (Rat.zpow_pos (by decide))
    have hle := Rat.mul_le_mul_of_nonneg_left hd hpos
    apply Rat.lt_of_mul_lt_mul_right (c := (q.den : Rat)) _ (Rat.le_of_lt hden)
    grind
  next h =>
    have : (q.num.natAbs.log2 : Int) - q.den.log2 - 1 + 1 = (q.num.natAbs.log2 : Int) - q.den.log2 := by
      omega
    rw [this]
    grind

end SurvivalRules.Numeric
