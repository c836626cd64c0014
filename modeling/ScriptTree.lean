import ScriptTree.Main
import ScriptTree.Session
import ScriptTree.Tree.Equality
import ScriptTree.Proofs.Grammar
import ScriptTree.Proofs.Lookahead
import ScriptTree.Proofs.Verdict
import ScriptTree.Proofs.Law
import ScriptTree.Proofs.ExpressionReading
import ScriptTree.Proofs.Sequence
import ScriptTree.Proofs.StatementReading
import ScriptTree.Proofs.StatementVerdict
import ScriptTree.Proofs.DanglingElse
import ScriptTree.Proofs.Validity
import ScriptTree.Proofs.FirstDiagnostic
import ScriptTree.Proofs.Height
import ScriptTree.Proofs.Semicolon
import ScriptTree.Proofs.TokenMap
import ScriptTree.Proofs.Weight
import ScriptTree.Proofs.Recovery
import ScriptTree.Proofs.Remains
import ScriptTree.Proofs.Extent
import ScriptTree.Proofs.ErrorFlag
import ScriptTree.Proofs.SourceOrder
import ScriptTree.Proofs.Likeness
import ScriptTree.Proofs.Composition
import ScriptTree.Proofs.Relabelling
import ScriptTree.Proofs.BlameOrder
import ScriptTree.Proofs.Layout
import ScriptTree.Proofs.Charged
import ScriptTree.Proofs.Memory
import ScriptTree.Proofs.Lexeme
import ScriptTree.Proofs.Cutting
import ScriptTree.Proofs.SourceLines
import ScriptTree.Proofs.RowLines
import ScriptTree.Proofs.Selection
import ScriptTree.Proofs.Report
import ScriptTree.Proofs.ErrorLines
import ScriptTree.Proofs.ErrorTour
import ScriptTree.Proofs.Listing
import ScriptTree.Proofs.PrintedForm
import ScriptTree.Proofs.Forest
import ScriptTree.Proofs.Rebuilding
import ScriptTree.Proofs.RowCount
import ScriptTree.Proofs.FirstLine
import ScriptTree.Proofs.Respelling
import ScriptTree.Proofs.Muted
import ScriptTree.Proofs.LeadingTokens
import ScriptTree.Proofs.MissingParenthesis
import ScriptTree.Proofs.Capacity
import ScriptTree.Proofs.Highlighting
import ScriptTree.Proofs.Books
import ScriptTree.Proofs.Latch
import ScriptTree.Proofs.BreakingOff
