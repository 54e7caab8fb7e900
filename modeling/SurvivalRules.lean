import SurvivalRules.Main
import SurvivalRules.Proofs.Payment
import SurvivalRules.Proofs.Store.Lockout
import SurvivalRules.Proofs.Reasons
import SurvivalRules.Proofs.Resolve.Steps
import SurvivalRules.Proofs.Resolve.Check
import SurvivalRules.Proofs.Store.Debt
import SurvivalRules.Proofs.Content.Effects
import SurvivalRules.Proofs.Resolve.Deletion
import SurvivalRules.Proofs.Store.Frame
import SurvivalRules.Proofs.Store.Levels
import SurvivalRules.Proofs.Store.Independence
import SurvivalRules.Proofs.Session.Bundled
import SurvivalRules.Proofs.Gate.Affordability
import SurvivalRules.Proofs.Resolve.Amplify
import SurvivalRules.Proofs.Raising.Contained
import SurvivalRules.Proofs.Store.Atomic
import SurvivalRules.Proofs.Text.Blank
import SurvivalRules.Proofs.Text.Number
import SurvivalRules.Proofs.Condition.Tree
import SurvivalRules.Proofs.Condition.Reading
import SurvivalRules.Proofs.Condition.Joined
import SurvivalRules.Proofs.Condition.Comparison
import SurvivalRules.Proofs.Condition.Grammar
import SurvivalRules.Proofs.Content.Audited
import SurvivalRules.Proofs.Content.Partition
import SurvivalRules.Proofs.State.Spelling
import SurvivalRules.Proofs.Store.Durations
import SurvivalRules.Proofs.Store.Trail
import SurvivalRules.Proofs.Session.Passing
import SurvivalRules.Proofs.Store.Ticks
import SurvivalRules.Proofs.Ownership.Standing
import SurvivalRules.Proofs.Totals.Granted
import SurvivalRules.Proofs.Totals.Reductions
import SurvivalRules.Proofs.Totals.Gains
import SurvivalRules.Proofs.Ownership.Reordered
import SurvivalRules.Proofs.Totals.Tally
import SurvivalRules.Proofs.Numeric.Monotone
import SurvivalRules.Proofs.Totals.OneMore
import SurvivalRules.Proofs.Gate.Crafting
import SurvivalRules.Proofs.Gate.Holdings
import SurvivalRules.Proofs.Gate.Display
import SurvivalRules.Proofs.Resolve.Accounting
import SurvivalRules.Proofs.Resolve.Multiplied
import SurvivalRules.Proofs.Resolve.Constant
import SurvivalRules.Proofs.Condition.Dependence
import SurvivalRules.Proofs.Condition.AtLeast
import SurvivalRules.Proofs.Session.NewGame
import SurvivalRules.Proofs.RandomRange
import SurvivalRules.Proofs.Resolve.Ranged
import SurvivalRules.Proofs.State.ReadBack
import SurvivalRules.Proofs.State.Merge
import SurvivalRules.Proofs.Content.Normal
