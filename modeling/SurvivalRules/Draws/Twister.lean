import SurvivalRules.Numeric.Binary64

/-!
# The seeded generator

A twisted generator of 32-bit words with 624 words of state. A seed of any size is spread over the
state word by word, and two words make one number of 53 bits below one.
-/
namespace SurvivalRules

/-- The state words and how many of them have been given out since the last refill. -/
structure Twister where
  words : Array UInt32
  used : Nat
  deriving DecidableEq

namespace Twister

def size : Nat := 624

def middle : Nat := 397

def wordAt (words : Array UInt32) (i : Nat) : UInt32 := words.getD i 0

def fold30 (w : UInt32) : UInt32 := w ^^^ (w >>> 30)

/-- The state that one word determines. -/
def ofWord (w : UInt32) : Array UInt32 :=
  (List.range (size - 1)).foldl
    (fun words i => words.push (1812433253 * fold30 (wordAt words i) + (i + 1).toUInt32)) #[w]

/-- The number of words, `2 ^ 32`. -/
def wordBound : Nat := 4294967296

/-- The digits of a number in base `wordBound`, least significant first; `fuel` bounds their count. -/
def wordsOf : Nat → Nat → List UInt32
  | 0, n => [n.toUInt32]
  | fuel + 1, n =>
    if n < wordBound then [n.toUInt32] else n.toUInt32 :: wordsOf fuel (n / wordBound)

/-- After the last word the walk starts again behind the first one, which takes its value. -/
def advance (words : Array UInt32) (i : Nat) : Array UInt32 × Nat :=
  if size ≤ i + 1 then (words.setIfInBounds 0 (wordAt words (size - 1)), 1) else (words, i + 1)

def mixKey (key : Array UInt32) (state : Array UInt32 × Nat) (j : Nat) : Array UInt32 × Nat :=
  let (words, i) := state
  let k := j % key.size
  let w := (wordAt words i ^^^ (fold30 (wordAt words (i - 1)) * 1664525)) + wordAt key k + k.toUInt32
  advance (words.setIfInBounds i w) i

def mixPlace (state : Array UInt32 × Nat) (_ : Nat) : Array UInt32 × Nat :=
  let (words, i) := state
  let w := (wordAt words i ^^^ (fold30 (wordAt words (i - 1)) * 1566083941)) - i.toUInt32
  advance (words.setIfInBounds i w) i

/-- The sign of the seed does not matter. -/
def ofSeed (seed : Int) : Twister :=
  let n := seed.natAbs
  let key := (wordsOf (n.log2 / 32 + 1) n).toArray
  let mixed := (List.range (max size key.size)).foldl (mixKey key) (ofWord 19650218, 1)
  let (words, _) := (List.range (size - 1)).foldl mixPlace mixed
  ⟨words.setIfInBounds 0 0x80000000, size⟩

/-- Joins the top bit of one word with the other bits of the next, and shifts. -/
def twist (high low : UInt32) : UInt32 :=
  let y := (high &&& 0x80000000) ||| (low &&& 0x7fffffff)
  (y >>> 1) ^^^ (if y &&& 1 = 0 then 0 else 0x9908b0df)

def refill (words : Array UInt32) : Array UInt32 :=
  (List.range size).foldl (fun ws k =>
    ws.setIfInBounds k (wordAt ws ((k + middle) % size) ^^^
      twist (wordAt ws k) (wordAt ws ((k + 1) % size)))) words

def temper (w : UInt32) : UInt32 :=
  let y := w ^^^ (w >>> 11)
  let y := y ^^^ ((y <<< 7) &&& 0x9d2c5680)
  let y := y ^^^ ((y <<< 15) &&& 0xefc60000)
  y ^^^ (y >>> 18)

def nextWord (t : Twister) : UInt32 × Twister :=
  if size ≤ t.used then
    let words := refill t.words
    (temper (wordAt words 0), ⟨words, 1⟩)
  else (temper (wordAt t.words t.used), ⟨t.words, t.used + 1⟩)

/-- How many values 26 bits have. -/
def lowPart : Nat := 67108864

/-- The high 27 bits of one word in front of the high 26 bits of the next. -/
def numerator (a b : UInt32) : Nat := (a >>> 5).toNat * lowPart + (b >>> 6).toNat

theorem numerator_lt (a b : UInt32) : numerator a b < significandBound := by
  have ha : (a >>> 5).toNat < 134217728 := by
    have := a.toNat_lt
    simp only [UInt32.toNat_shiftRight]
    change a.toNat >>> 5 < 134217728
    rw [Nat.shiftRight_eq_div_pow]
    omega
  have hb : (b >>> 6).toNat < 67108864 := by
    have := b.toNat_lt
    simp only [UInt32.toNat_shiftRight]
    change b.toNat >>> 6 < 67108864
    rw [Nat.shiftRight_eq_div_pow]
    omega
  unfold numerator significandBound lowPart
  omega

/-- The next number, a multiple of `2 ^ -53`. -/
def next (t : Twister) : Binary64 × Twister :=
  let (a, t) := t.nextWord
  let (b, t) := t.nextWord
  (Binary64.nearest ((numerator a b : Rat) / significandBound), t)

end Twister

end SurvivalRules
