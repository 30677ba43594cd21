import LineScript.CommandLine
import LineScript.Compilation
import LineScript.Diagnostic
import LineScript.Entrypoint
import LineScript.Grammar
import LineScript.Main
import LineScript.Parsing.Construct
import LineScript.Parsing.Cursor
import LineScript.Parsing.Expression
import LineScript.Parsing.Outcome
import LineScript.Parsing.Program
import LineScript.Parsing.Statement
import LineScript.Position
import LineScript.Report
import LineScript.Source.CharReader
import LineScript.Source.Reading
import LineScript.Source.Reads
import LineScript.Symbols.Definition
import LineScript.Symbols.Table
import LineScript.Symbols.Verification
import LineScript.Text.Alphabetic
import LineScript.Text.Blank
import LineScript.Text.CodePointRanges
import LineScript.Text.Decimal
import LineScript.Text.Quoted
import LineScript.Text.Unprintable
import LineScript.Token
import LineScript.Token.Lexer
import LineScript.Token.Word
import LineScript.Tree
import LineScript.Tree.Render
import LineScript.Proofs.Parsing.Depth
import LineScript.Proofs.Tree.Unplaced
import LineScript.Proofs.Tree.Node
import LineScript.Proofs.Parsing.Judgment
import LineScript.Proofs.Parsing.Rules
import LineScript.Proofs.Parsing.Tracing
import LineScript.Proofs.Parsing.Precedence
import LineScript.Proofs.Parsing.Nesting
import LineScript.Proofs.Parsing.Passage
import LineScript.Proofs.Parsing.Cautious
import LineScript.Proofs.Parsing.Abreast
import LineScript.Proofs.Parsing.BlockEnd
import LineScript.Proofs.Parsing.Locality
import LineScript.Proofs.Tree.Origins
import LineScript.Proofs.Parsing.Accounting
import LineScript.Proofs.Grammar
import LineScript.Proofs.Parsing.Program
import LineScript.Proofs.Parsing.Persistence
import LineScript.Proofs.Parsing.Termination
import LineScript.Proofs.Lexing.Lexeme
import LineScript.Proofs.Lexing.Segmentation
import LineScript.Proofs.Lexing.PushBack
import LineScript.Proofs.Lexing.Lookahead
import LineScript.Proofs.Lexing.Positions
import LineScript.Proofs.Tree.Induction
import LineScript.Proofs.Tree.Legible
import LineScript.Proofs.Lexing.Rendering
import LineScript.Proofs.Parsing.ReadingBlocks
import LineScript.Proofs.RoundTrip
import LineScript.Proofs.Symbols.Checking
import LineScript.Proofs.Symbols.Namespace
import LineScript.Proofs.Parsing.Provenance
import LineScript.Proofs.Parsing.Layout
import LineScript.Proofs.Symbols.Extensions
import LineScript.Proofs.Parsing.BlockContent
import LineScript.Proofs.Diagnostics.Order
import LineScript.Proofs.Diagnostics.Parsing
import LineScript.Proofs.Diagnostics.Verification
import LineScript.Proofs.Diagnostics.Lines
import LineScript.Proofs.Layout
import LineScript.Proofs.Source.Decoding
import LineScript.Proofs.Lexing.Streams
import LineScript.Proofs.Source.Characters
import LineScript.Proofs.Symbols.Descent
import LineScript.Proofs.Symbols.Reach
import LineScript.Proofs.Diagnostics.Arrows
import LineScript.Proofs.Lexing.Relocation
import LineScript.Proofs.Lexing.LineEnds
import LineScript.Proofs.Lexing.Respelling
import LineScript.Proofs.Lexing.Failures
import LineScript.Proofs.Lexing.InputEnds
import LineScript.Proofs.Symbols.Independence
import LineScript.Proofs.Parsing.Recovery
import LineScript.Proofs.Text.Decimal
import LineScript.Proofs.Parsing.Integers
