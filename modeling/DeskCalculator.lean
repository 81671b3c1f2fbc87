import DeskCalculator.Binary64.Word
import DeskCalculator.Expression.Grammar
import DeskCalculator.Main
import DeskCalculator.Proofs.Expression.Numeral
import DeskCalculator.Proofs.Expression.Recognition
import DeskCalculator.Proofs.Expression.ReadText
import DeskCalculator.Proofs.Expression.Depth
import DeskCalculator.Proofs.Expression.Evaluation
import DeskCalculator.Proofs.Expression.Value
import DeskCalculator.Proofs.Expression.Collapse
import DeskCalculator.Proofs.Decimal.Positional
import DeskCalculator.Proofs.Binary64.Negation
import DeskCalculator.Proofs.Binary64.Range
import DeskCalculator.Proofs.Engine.Change
import DeskCalculator.Proofs.Engine.Consistency
import DeskCalculator.Proofs.Engine.Signs
import DeskCalculator.Proofs.Engine.Typing
import DeskCalculator.Proofs.Expression.Plain
import DeskCalculator.Proofs.Evaluator.Plain
import DeskCalculator.Proofs.Engine.Plain
import DeskCalculator.Proofs.Expression.Completion
import DeskCalculator.Proofs.Engine.Closing
import DeskCalculator.Proofs.Engine.History
import DeskCalculator.Proofs.Engine.Groups
import DeskCalculator.Proofs.Engine.Readout
import DeskCalculator.Proofs.Panel.Buttons
import DeskCalculator.Proofs.Terminal.Session
import DeskCalculator.Proofs.Expression.Viable
import DeskCalculator.Proofs.Engine.Negation
import DeskCalculator.Proofs.Expression.NegatedTree
import DeskCalculator.Proofs.Evaluator.Value
import DeskCalculator.Proofs.Expression.Percent
import DeskCalculator.Proofs.Evaluator.Percent
import DeskCalculator.Proofs.Decimal.ReadBack
import DeskCalculator.Proofs.Evaluator.Display
import DeskCalculator.Proofs.Engine.Results
import DeskCalculator.Proofs.Binary64.Decimals
import DeskCalculator.Proofs.Decimal.Rounding
import DeskCalculator.Proofs.Evaluator.Rounding
import DeskCalculator.Proofs.Binary64.Symmetry
import DeskCalculator.Proofs.Evaluator.Symmetry
import DeskCalculator.Proofs.Engine.Hundredth
import DeskCalculator.Proofs.Text.Slice
import DeskCalculator.Proofs.Expression.Offsets
import DeskCalculator.Proofs.CommandLine.Press
import DeskCalculator.Proofs.Evaluator.Foreign
import DeskCalculator.Proofs.Terminal.Field
