import SurvivalRules.Numeric.Amount
import SurvivalRules.OrderedMap

/-!
# Bonuses of actions

What an item grants to an action: extra amounts for random gains, a multiplier for net gains, a shorter
cooldown and a better chance. Multipliers compound and the rest adds up.
-/
namespace SurvivalRules

structure Bonus where
  resourceBonus : OrderedMap String Amount
  resourceMultiplier : Binary64
  cooldownReduction : Binary64
  probabilityBonus : Binary64
  deriving DecidableEq, Repr

namespace Bonus

def neutral : Bonus := ⟨[], Binary64.one, Binary64.zero, Binary64.zero⟩

/-- Adds an amount to a counter that starts at zero. -/
def addTo (counters : OrderedMap String Amount) (name : String) (a : Amount) :
    Except Fault (OrderedMap String Amount) := do
  let total ← ((OrderedMap.get? name counters).getD Amount.zero).add a
  return OrderedMap.insert name total counters

def addAll (counters : OrderedMap String Amount) :
    OrderedMap String Amount → Except Fault (OrderedMap String Amount)
  | [] => .ok counters
  | (name, a) :: rest => do addAll (← addTo counters name a) rest

def combine (a b : Bonus) : Except Fault Bonus := do
  let gains ← addAll a.resourceBonus b.resourceBonus
  return ⟨gains, a.resourceMultiplier.mul b.resourceMultiplier,
    a.cooldownReduction.add b.cooldownReduction, a.probabilityBonus.add b.probabilityBonus⟩

def isOne (x : Binary64) : Bool := (Amount.float x).same (.int 1)

def isNeutral (b : Bonus) : Bool :=
  (OrderedMap.values b.resourceBonus).all Amount.isZero && isOne b.resourceMultiplier &&
    b.cooldownReduction.isZero && b.probabilityBonus.isZero

/-- Lists the parts that differ from the neutral ones; a resource is listed even with amount zero. -/
def describe (b : Bonus) : Except Fault String := do
  let gains ← b.resourceBonus.mapM fun e => do return "+" ++ (← e.2.written) ++ " " ++ e.1
  let multiplier := if isOne b.resourceMultiplier then [] else ["x" ++ b.resourceMultiplier.toBrief]
  let cooldown :=
    if b.cooldownReduction.isZero then [] else ["-" ++ b.cooldownReduction.toBrief ++ "s cooldown"]
  let chance :=
    if b.probabilityBonus.isZero then [] else ["+" ++ b.probabilityBonus.toBrief ++ " chance"]
  let parts := gains ++ multiplier ++ cooldown ++ chance
  return if parts.isEmpty then "no effect" else ", ".intercalate parts

end Bonus

end SurvivalRules
