import ExprWasm.Main
import ExprWasm.Tree.Walk
import ExprWasm.Proofs.Compile.Acceptance
import ExprWasm.Proofs.Compile.Segments
import ExprWasm.Proofs.Wat.Meaning
import ExprWasm.Proofs.Token.Lexicon
import ExprWasm.Proofs.Token.Pieces
import ExprWasm.Proofs.Compile.Origins
import ExprWasm.Proofs.Phrase.Shape
import ExprWasm.Proofs.Source.Undecodable
import ExprWasm.Proofs.Phrase.Unfinished
import ExprWasm.Proofs.Token.Interrupted
import ExprWasm.Proofs.Wat.Rendering
import ExprWasm.Proofs.Compile.Chunking
import ExprWasm.Proofs.Compile.PrintedBack
import ExprWasm.Proofs.Token.Stepwise
import ExprWasm.Proofs.Compile.Completion
import ExprWasm.Proofs.Compile.EntryPoints
import ExprWasm.Proofs.Compile.Faultless
import ExprWasm.Proofs.Phrase.FirstError
import ExprWasm.Proofs.Phrase.Course
import ExprWasm.Proofs.Compile.Consumption
import ExprWasm.Proofs.Compile.EarliestError
import ExprWasm.Proofs.Token.Respaced
import ExprWasm.Proofs.Compile.Respacing
import ExprWasm.Proofs.Token.Places
import ExprWasm.Proofs.Phrase.Moves
import ExprWasm.Proofs.Compile.DiagnosticLines
import ExprWasm.Proofs.Files.Suffix
import ExprWasm.Proofs.Compile.Delivery
import ExprWasm.Proofs.Compile.DefaultOutput
import ExprWasm.Proofs.Source.Pulled
import ExprWasm.Proofs.Source.Delivered
import ExprWasm.Proofs.Source.FirstDefect
import ExprWasm.Proofs.Compile.Names
import ExprWasm.Proofs.Text.Lines
import ExprWasm.Proofs.Wat.Layout
import ExprWasm.Proofs.Compile.ModuleText
import ExprWasm.Proofs.Compile.Log
import ExprWasm.Proofs.Files.Spelling
import ExprWasm.Proofs.Command.Courses
import ExprWasm.Proofs.Command.Statuses
import ExprWasm.Proofs.Source.Refused
import ExprWasm.Proofs.Token.Sentinel
import ExprWasm.Proofs.Phrase.Finality
import ExprWasm.Proofs.Phrase.Reports
import ExprWasm.Proofs.Wat.Emission
import ExprWasm.Proofs.Number.Nearest
import ExprWasm.Proofs.Number.NumberText
import ExprWasm.Proofs.Compile.Literals
import ExprWasm.Proofs.Compile.SharedSink
import ExprWasm.Proofs.Text.Unquoted
import ExprWasm.Proofs.Command.TokenRows
import ExprWasm.Proofs.Wat.Reuse
import ExprWasm.Proofs.Wat.EqualTrees
