import Deduction.Main
import Deduction.Proofs.Valuation
import Deduction.Proofs.Matching
import Deduction.Proofs.Bindings
import Deduction.Proofs.Arrangement
import Deduction.Proofs.RuleSoundness
import Deduction.Proofs.Rule.Inference
import Deduction.Proofs.Rule.Search
import Deduction.Proofs.Rule.Rewriting
import Deduction.Proofs.Checker.Run
import Deduction.Proofs.Checker.Invariant
import Deduction.Proofs.Checker.Soundness
import Deduction.Proofs.Checker.Blocks
import Deduction.Proofs.Checker.Equivalence
import Deduction.Proofs.Checker.Feeding
import Deduction.Proofs.Checker.Rejection
import Deduction.Proofs.Checker.Nesting
import Deduction.Proofs.Checker.Visibility
import Deduction.Proofs.Compaction.Graph
import Deduction.Proofs.Compaction.Reachability
import Deduction.Proofs.Compaction.Schedule
import Deduction.Proofs.Compaction.Recheck
import Deduction.Proofs.Compaction.LaidOut
import Deduction.Proofs.Compaction.RoundTrip
import Deduction.Proofs.Compaction.Reference
import Deduction.Proofs.Compaction.Bounds
import Deduction.Proofs.Compaction.Chain
import Deduction.Proofs.Source.Grammar
import Deduction.Proofs.Source.Formula
import Deduction.Proofs.Source.Printing
import Deduction.Proofs.Source.MathMode
import Deduction.Proofs.Source.Line
import Deduction.Proofs.Source.Document
import Deduction.Proofs.Checker.Restated
import Deduction.Proofs.RuleName
import Deduction.Proofs.Layout.Text
import Deduction.Proofs.Layout.Nesting
import Deduction.Proofs.Layout.Tables
import Deduction.Proofs.Compilation
import Deduction.Proofs.Layout.Chain
import Deduction.Proofs.Substitution
import Deduction.Proofs.Files.Path
import Deduction.Proofs.Files.Output
import Deduction.Proofs.Text.Onward
import Deduction.Proofs.Source.Position
