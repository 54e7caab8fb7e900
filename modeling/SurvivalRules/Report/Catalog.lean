import SurvivalRules.Report

/-!
# The catalog

All actions by id, with their labels, kinds, categories and cooldowns.
-/
namespace SurvivalRules

namespace Plan

def kindName : Plan → String
  | .flat _ => "flat"
  | .tiered _ => "tiered"

end Plan

namespace Catalog

/-- The cooldowns of the levels in order, with slashes between them. -/
def cooldownText (p : Plan) : String :=
  match p with
  | .flat p => p.cooldown.toBrief
  | .tiered p =>
    match p.cooldown with
    | .fixed x => x.toBrief
    | .byLevel table => "/".intercalate (table.map fun e => e.2.toBrief)

def row (a : Action) : List String :=
  [a.id, a.label, a.plan.kindName, a.category.getD "", cooldownText a.plan]

def table (c : Content) : Table :=
  let sorted := c.actions.mergeSort fun a b => Text.le a.1 b.1
  ⟨"Actions", ["id", "label", "kind", "category", "cooldown"], sorted.map fun e => row e.2⟩

def report (c : Content) : Report := .ofTable (table c)

end Catalog

end SurvivalRules
