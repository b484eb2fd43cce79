import StructuredText.Command.Run
import StructuredText.Main
import StructuredText.Parse
import StructuredText.Report.Render
import StructuredText.Settings
import StructuredText.Token.Lexer
import StructuredText.Tree
import StructuredText.Proofs.Loops
import StructuredText.Proofs.Steps
import StructuredText.Proofs.Lawful
import StructuredText.Proofs.Reads
import StructuredText.Proofs.Gives
import StructuredText.Proofs.Grammar.Parts
import StructuredText.Proofs.Grammar.Expr
import StructuredText.Proofs.Sound.Expr
import StructuredText.Proofs.Complete.Expr
import StructuredText.Proofs.Roots
import StructuredText.Proofs.ParseExpression
import StructuredText.Proofs.Grammar.Stmt
import StructuredText.Proofs.Sound.Stmt
import StructuredText.Proofs.Labels
import StructuredText.Proofs.Complete.Stmt
import StructuredText.Proofs.Grammar.Decl
import StructuredText.Proofs.Sound.Decl
import StructuredText.Proofs.Complete.Decl
import StructuredText.Proofs.Grammar.Unit
import StructuredText.Proofs.Sound.Unit
import StructuredText.Proofs.Complete.Unit
import StructuredText.Proofs.ParseUnits
import StructuredText.Proofs.Spared
import StructuredText.Proofs.Sparing
import StructuredText.Proofs.Resilient
import StructuredText.Proofs.Isolation
import StructuredText.Proofs.ParseStatements
import StructuredText.Proofs.Lexing.Pieces
import StructuredText.Proofs.Lexing.Tiling
import StructuredText.Proofs.Lexing.Scanned
import StructuredText.Proofs.Lexing.Endings
import StructuredText.Proofs.Lexing.Words
import StructuredText.Proofs.Lexing.Numbers
import StructuredText.Proofs.Fatal
import StructuredText.Proofs.Grammar.Swapped
import StructuredText.Proofs.Contained
import StructuredText.Proofs.Broken
import StructuredText.Proofs.Containment
import StructuredText.Proofs.Lexing.Symbols
import StructuredText.Proofs.Lexing.Temporal
import StructuredText.Proofs.Lexing.Lexed
import StructuredText.Proofs.Lexing.Quoted
import StructuredText.Proofs.Printing.Apart
import StructuredText.Proofs.Printing.Plain
import StructuredText.Proofs.Plain
import StructuredText.Proofs.Printing.Atoms
import StructuredText.Proofs.Printing.Printed
import StructuredText.Proofs.Printing.Respelled
import StructuredText.Proofs.RoundTrip
import StructuredText.Proofs.Order
import StructuredText.Proofs.Nodes
import StructuredText.Proofs.Nodes.Stands
import StructuredText.Proofs.Nodes.Expr
import StructuredText.Proofs.Nodes.Stmt
import StructuredText.Proofs.Nodes.Decl
import StructuredText.Proofs.Nodes.Unit
import StructuredText.Proofs.ParseTrees
import StructuredText.Proofs.Courses
import StructuredText.Proofs.Steady
import StructuredText.Proofs.ParseReports
import StructuredText.Proofs.Spans
import StructuredText.Proofs.Spans.Expr
import StructuredText.Proofs.Spans.Stmt
import StructuredText.Proofs.Spans.Decl
import StructuredText.Proofs.ParseSpans
import StructuredText.Proofs.StreamEnd
import StructuredText.Proofs.StreamEnd.Rules
import StructuredText.Proofs.ParseTokens
import StructuredText.Proofs.Lexing.Letters
import StructuredText.Proofs.Capitals
import StructuredText.Proofs.Alike
import StructuredText.Proofs.Agreeing
import StructuredText.Proofs.ParseLetters
import StructuredText.Proofs.Checked
import StructuredText.Proofs.Checked.Grammar
import StructuredText.Proofs.Checked.Steps
import StructuredText.Proofs.Checked.Rules
import StructuredText.Proofs.ParseOffsets
import StructuredText.Proofs.Lexing.Languages
import StructuredText.Proofs.Lexing.Patterns
import StructuredText.Proofs.Lexing.TypedPatterns
import StructuredText.Proofs.Lexing.Sound
import StructuredText.Proofs.Fails
import StructuredText.Proofs.Nesting.Expr
import StructuredText.Proofs.Nesting.Parts
import StructuredText.Proofs.Nesting.Decl
import StructuredText.Proofs.Nesting.Stmt
import StructuredText.Proofs.Nesting.Unit
import StructuredText.Proofs.ParseNesting
import StructuredText.Proofs.Leaves
import StructuredText.Proofs.Placed
import StructuredText.Proofs.Lacking.Removed
import StructuredText.Proofs.Lacking.Lacks
import StructuredText.Proofs.Lacking.Rules
import StructuredText.Proofs.Lacking.Simple
import StructuredText.Proofs.Lacking.Stmt
import StructuredText.Proofs.Lacking.Decl
import StructuredText.Proofs.Lacking.Unit
import StructuredText.Proofs.ParseSemicolons
import StructuredText.Proofs.Printing.Strings
import StructuredText.Proofs.TypedLiterals
import StructuredText.Proofs.LabelSearch
import StructuredText.Proofs.Resuming
import StructuredText.Proofs.ParseResuming
import StructuredText.Proofs.Lexing.Comments
import StructuredText.Proofs.Lexing.Ranges
import StructuredText.Proofs.LateBlocks
import StructuredText.Proofs.ParseMethods
import StructuredText.Proofs.BrokenDecls
import StructuredText.Proofs.ParseDeclarations
import StructuredText.Proofs.Rendering.Positions
import StructuredText.Proofs.Rendering.Messages
import StructuredText.Proofs.Rendering.Lines
import StructuredText.Proofs.Rendering.JsonReading
import StructuredText.Proofs.Rendering.JsonLines
import StructuredText.Proofs.Command.Paths
import StructuredText.Proofs.Command.Checking
import StructuredText.Proofs.Advancing
import StructuredText.Proofs.Counted
import StructuredText.Proofs.Counted.Grammar
import StructuredText.Proofs.Counted.Steps
import StructuredText.Proofs.Counted.Rules
import StructuredText.Proofs.ParseProgress
