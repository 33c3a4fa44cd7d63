import GrammarCheck.CommandLine.FileTree
import GrammarCheck.Grammar.Lemmas
import GrammarCheck.Main
import GrammarCheck.Text.Utf8.Lemmas
import GrammarCheck.Proofs.Verification.Discovery
import GrammarCheck.Proofs.Verification.Exactness
import GrammarCheck.Proofs.Syntax.Tree
import GrammarCheck.Proofs.Reading.Step
import GrammarCheck.Proofs.Syntax.Derivation
import GrammarCheck.Proofs.Reading.Spelling
import GrammarCheck.Proofs.Reading.Trees
import GrammarCheck.Proofs.Reading.Acceptance
import GrammarCheck.Proofs.Scanning.Word
import GrammarCheck.Proofs.Scanning.Occurrence
import GrammarCheck.Proofs.Scanning.Round
import GrammarCheck.Proofs.Scanning.Exactness
import GrammarCheck.Proofs.Printing.Unplaced
import GrammarCheck.Proofs.Printing.Written
import GrammarCheck.Proofs.Printing.Lines
import GrammarCheck.Proofs.Printing.RoundTrip
import GrammarCheck.Proofs.Syntax.Parts
import GrammarCheck.Proofs.Reading.Course
import GrammarCheck.Proofs.Reading.Definitions
import GrammarCheck.Proofs.Reading.Shape
import GrammarCheck.Proofs.Reading.Composition
import GrammarCheck.Proofs.Scanning.Prefix
import GrammarCheck.Proofs.Reading.Prefix
import GrammarCheck.Proofs.Printing.Origin
import GrammarCheck.Proofs.Printing.Missing
import GrammarCheck.Proofs.Printing.Reread
import GrammarCheck.Proofs.Syntax.Relabeling
import GrammarCheck.Proofs.Reading.Relabeling
import GrammarCheck.Proofs.Verification.Relabeling
import GrammarCheck.Proofs.Scanning.Layout
import GrammarCheck.Proofs.Verification.Layout
import GrammarCheck.Proofs.CommandLine.Formatting
import GrammarCheck.Proofs.Reading.MissingTerms
import GrammarCheck.Proofs.Verification.Findings
import GrammarCheck.Proofs.Scanning.Position
import GrammarCheck.Proofs.Verification.Positions
import GrammarCheck.Proofs.Scanning.Joining
import GrammarCheck.Proofs.Reading.Reordering
import GrammarCheck.Proofs.Reading.TokenOrder
import GrammarCheck.Proofs.Reading.Placement
import GrammarCheck.Proofs.Text.Recoding
import GrammarCheck.Proofs.Scanning.Recoding
import GrammarCheck.Proofs.Reading.Recoding
import GrammarCheck.Proofs.Verification.Agreement
import GrammarCheck.Proofs.Verification.Pruning
import GrammarCheck.Proofs.Reading.Descent
import GrammarCheck.Proofs.Reading.InputEnd
import GrammarCheck.Proofs.Reading.Progress
import GrammarCheck.Proofs.Verification.Extension
import GrammarCheck.Proofs.Verification.Renaming
import GrammarCheck.Proofs.Text.Lines
import GrammarCheck.Proofs.Text.Quoting
import GrammarCheck.Proofs.Scanning.Shown
import GrammarCheck.Proofs.Verification.Messages
import GrammarCheck.Proofs.CommandLine.Listing
import GrammarCheck.Proofs.CommandLine.Reporting
import GrammarCheck.Proofs.Scanning.Calls
import GrammarCheck.Proofs.Verification.Rounds
