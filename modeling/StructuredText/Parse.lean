import StructuredText.Parser.Unit
import StructuredText.Token.Lexer
import StructuredText.Tree

/-!
# Parsing

A text, or a list of tokens with the text they belong to, is read as one of six constructs. The outcome is a tree and
the problems found; the tree is missing only where the stream ended inside a construct, where constructs nest too
deeply, or where the construct as a whole could not be read.
-/

namespace StructuredText

/-- The deepest nesting of parentheses, brackets, unary operators, calls, initial values, references and statements
with a body. -/
def maxNesting : Nat := 128

/-- The tokens of a text, with the text. -/
def Stream.ofText (text : String) : Stream := ⟨lex text, text.toList⟩

/-- What a text is read as. -/
inductive Entry where
  /-- A row of algorithms and methods. -/
  | source
  | algorithm
  | method
  /-- Statements that stand alone. -/
  | statements
  | expression
  /-- `[name :=] value` -/
  | initializer
deriving DecidableEq, Inhabited

namespace Entry

/-- Every entry. -/
def all : List Entry := [source, algorithm, method, statements, expression, initializer]

/-- The name of the entry in settings. -/
def spelling : Entry → String
  | source => "source" | algorithm => "algorithm" | method => "method"
  | statements => "statements" | expression => "expression" | initializer => "initializer"

/-- The entry with this name in settings. -/
def ofSpelling? (s : String) : Option Entry := all.find? (·.spelling == s)

end Entry

/-- The outcome of a parse. -/
structure Parse (α : Type) where
  tree : Option α
  /-- The problems in the order in which they were found. -/
  reports : List Report

namespace Parse

/-- The problems in words, in the order of the text. -/
def diagnostics (p : Parse α) : List Diagnostic :=
  Diagnostic.inSourceOrder (p.reports.map Report.diagnostic)

/-- Some diagnostic is an error. -/
def hasErrors (p : Parse α) : Bool := p.diagnostics.any Diagnostic.isError

/-- There is a tree and no error. -/
def isOk (p : Parse α) : Bool := p.tree.isSome && !p.hasErrors

/-- The failure of a parse in words. -/
def failure (p : Parse α) : String := s!"parsing failed with {p.diagnostics.length} diagnostic(s)"

/-- The tree where there is no error, and else the failure in words. -/
def result (p : Parse α) : Except String α :=
  match p.tree with
  | some tree => if p.hasErrors then .error p.failure else .ok tree
  | none => .error p.failure

/-- The outcome with the tree changed by `f`. -/
def map (f : α → β) (p : Parse α) : Parse β := ⟨p.tree.map f, p.reports⟩

end Parse

/-- Runs a rule of the grammar on a stream. -/
def Parser.run (rule : Parser α) (s : Stream) : Parse α :=
  match EStateM.run rule (.start s) with
  | .ok tree state => ⟨some tree, state.reports.reverse⟩
  | .error _ state => ⟨none, state.reports.reverse⟩

/-- Reads a row of algorithms and methods. -/
def parseSource (s : Stream) : Parse SourceFile := (Parser.sourceFile maxNesting).run s

/-- Reads one algorithm. -/
def parseAlgorithm (s : Stream) : Parse Algorithm := (Parser.algorithmRoot maxNesting).run s

/-- Reads one method. -/
def parseMethod (s : Stream) : Parse Method := (Parser.methodRoot maxNesting).run s

/-- Reads statements. -/
def parseStatements (s : Stream) : Parse StatementList := (Parser.statementRoot maxNesting).run s

/-- Reads an expression. -/
def parseExpression (s : Stream) : Parse Expr := (Parser.expressionRoot maxNesting).run s

/-- Reads an initial value, possibly with a name in front. -/
def parseInitializer (s : Stream) : Parse InitializerSource := (Parser.initializerRoot maxNesting).run s

/-- Reads the construct of an entry. -/
def parse (entry : Entry) (s : Stream) : Parse Tree :=
  match entry with
  | .source => (parseSource s).map .source
  | .algorithm => (parseAlgorithm s).map .algorithm
  | .method => (parseMethod s).map .method
  | .statements => (parseStatements s).map .statements
  | .expression => (parseExpression s).map .expression
  | .initializer => (parseInitializer s).map .initializer

end StructuredText
