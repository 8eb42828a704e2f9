import MediaRange.Main
import MediaRange.Proofs.Command.Checking
import MediaRange.Proofs.Command.Interrupted
import MediaRange.Proofs.Command.QuietErrors
import MediaRange.Proofs.Config.Soundness
import MediaRange.Proofs.Config.Writing
import MediaRange.Proofs.Feature.Suggestions
import MediaRange.Proofs.Pattern.Literals
import MediaRange.Proofs.Rewriting.Bounds
import MediaRange.Proofs.Rewriting.CustomValues
import MediaRange.Proofs.Rewriting.PassOrder
import MediaRange.Proofs.Rewriting.PrintedRange
import MediaRange.Proofs.Rewriting.QueryLists
import MediaRange.Proofs.Rewriting.Reports
import MediaRange.Proofs.Rewriting.StandardRanges
import MediaRange.Proofs.Stylesheet.ByteSafety
import MediaRange.Proofs.Stylesheet.Concatenation
import MediaRange.Proofs.Stylesheet.RuleBytes
import MediaRange.Proofs.Stylesheet.Shrinking
import MediaRange.Proofs.Stylesheet.SingleRule
import MediaRange.Proofs.Stylesheet.Splice
import MediaRange.Proofs.Stylesheet.Stability
import MediaRange.Proofs.Stylesheet.Untouched
import MediaRange.Proofs.Config.Problems
