import LetLang.Number.Arithmetic
import LetLang.Number.Numeral
import LetLang.Number.Text
import LetLang.Text.Identifier
import LetLang.Text.Quoted
import LetLang.Text.Template
import LetLang.Text.Lines
import LetLang.Text.Utf8
import LetLang.Text.Style
import LetLang.Token.Lexer
import LetLang.Tree.Parser
import LetLang.Tree.Display
import LetLang.Value.Text
import LetLang.Environment.Text
import LetLang.Environment.Forest
import LetLang.Evaluation
import LetLang.Diagnostic.Reporter
import LetLang.CommandLine
import LetLang.Main
import LetLang.Proofs.Lexing.Places
import LetLang.Proofs.Lexing.Spelling
import LetLang.Proofs.Lexing.Layout
import LetLang.Proofs.Lexing.Refusals
import LetLang.Proofs.Diagnostic.Rows
import LetLang.Proofs.Diagnostic.Excerpts
import LetLang.Proofs.Diagnostic.Locations
import LetLang.Proofs.Diagnostic.Marks
import LetLang.Proofs.Grammar.Obedience
import LetLang.Proofs.Grammar.Soundness
import LetLang.Proofs.Grammar.Completeness
import LetLang.Proofs.Grammar.Acceptance
import LetLang.Proofs.Grammar.ViablePrefix
import LetLang.Proofs.Lexing.Joining
import LetLang.Proofs.Grammar.Relocation
import LetLang.Proofs.Evaluation.Sequencing
import LetLang.Proofs.Session.Reads
import LetLang.Proofs.Session.Pieces
import LetLang.Proofs.Number.Numerals
import LetLang.Proofs.Evaluation.Faults
import LetLang.Proofs.Diagnostic.Reports
import LetLang.Proofs.Number.Guards
import LetLang.Proofs.Session.Safety
import LetLang.Proofs.Session.Locations
import LetLang.Proofs.Session.Bindings
import LetLang.Proofs.Evaluation.Order
import LetLang.Proofs.Environment.Agreement
import LetLang.Proofs.Evaluation.Locality
import LetLang.Proofs.Session.Likeness
import LetLang.Proofs.Shell.Answers
import LetLang.Proofs.Shell.Conversation
import LetLang.Proofs.Lexing.Spacing
import LetLang.Proofs.Grammar.Printing
import LetLang.Proofs.Number.DigitRuns
import LetLang.Proofs.Number.Rounding
import LetLang.Proofs.Number.Positional
import LetLang.Proofs.Number.Rereading
import LetLang.Proofs.Value.Writing
import LetLang.Proofs.Session.Rereading
import LetLang.Proofs.Environment.Reassignment
import LetLang.Proofs.Evaluation.Interruptions
import LetLang.Proofs.Session.Failures
import LetLang.Proofs.Environment.Outlines
import LetLang.Proofs.Environment.Visibility
import LetLang.Proofs.Evaluation.Flattening
import LetLang.Proofs.Evaluation.Indifference
import LetLang.Proofs.Lexing.LineEnds
import LetLang.Proofs.Diagnostic.Likeness
import LetLang.Proofs.Session.LineEnds
import LetLang.Proofs.Evaluation.Simulation
import LetLang.Proofs.Lexing.Respacing
import LetLang.Proofs.Grammar.Terminators
import LetLang.Proofs.Session.Renderings
import LetLang.Proofs.Display.Decoding
import LetLang.Proofs.Lexing.Lines
import LetLang.Proofs.Environment.Nearest
import LetLang.Proofs.Environment.Writes
import LetLang.Proofs.Evaluation.Shorthand
import LetLang.Proofs.Evaluation.Objects
import LetLang.Proofs.Evaluation.Invariants
import LetLang.Proofs.Session.Objects
import LetLang.Proofs.Display.Indentation
import LetLang.Proofs.Grammar.Progress
import LetLang.Proofs.Number.Remainder
import LetLang.Proofs.Environment.Overwriting
import LetLang.Proofs.Evaluation.Chaining
import LetLang.Proofs.Session.Chaining
import LetLang.Proofs.Environment.Scopes
