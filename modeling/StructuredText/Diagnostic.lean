import StructuredText.Span
import StructuredText.Tree.Decl
import StructuredText.Tree.LiteralFault

/-!
# Diagnostics

A diagnostic says what is wrong where. `Problem` lists the causes that reading a text can have for one, and a report is
a problem with its place; `Report.diagnostic` puts it into words. Diagnostics are handed out in the order of their
places, and those of one place in the order of their reports (`Diagnostic.inSourceOrder`).
-/

namespace StructuredText

/-- How bad it is. -/
inductive Severity where
  | error | warning
deriving DecidableEq, Inhabited

/-- The severity in words. -/
def Severity.label : Severity → String
  | error => "error"
  | warning => "warning"

/-- The kinds of diagnostics. -/
inductive DiagnosticCode where
  | syntaxError | malformedLiteral | unexpectedEndOfStream
deriving DecidableEq, Inhabited

namespace DiagnosticCode

/-- Every code. -/
def all : List DiagnosticCode := [syntaxError, malformedLiteral, unexpectedEndOfStream]

/-- The code's number. -/
def number : DiagnosticCode → String
  | syntaxError => "E001"
  | malformedLiteral => "E002"
  | unexpectedEndOfStream => "E003"

/-- The name of the code in listings. -/
def label : DiagnosticCode → String
  | syntaxError => "SyntaxError"
  | malformedLiteral => "MalformedLiteral"
  | unexpectedEndOfStream => "UnexpectedEndOfStream"

/-- The code with this name in listings. -/
def ofLabel? (s : String) : Option DiagnosticCode := all.find? (·.label == s)

/-- The severity that goes with the code. -/
def severity : DiagnosticCode → Severity := fun _ => .error

end DiagnosticCode

/-- What is wrong where, in words. -/
structure Diagnostic where
  code : DiagnosticCode
  severity : Severity
  span : Span
  message : String
  /-- What was looked for, if it was one thing. -/
  expected : Option String
deriving DecidableEq, Inhabited

namespace Diagnostic

/-- The diagnostic is an error. -/
def isError (d : Diagnostic) : Bool := d.severity == .error

/-- The diagnostic on one line. -/
def render (d : Diagnostic) : String :=
  s!"{d.severity.label}[{d.code.number}]: {d.message} (at {d.span.render})"

/-- Puts a diagnostic in front of the first one that does not begin before it. -/
def insertInOrder (d : Diagnostic) : List Diagnostic → List Diagnostic
  | [] => [d]
  | e :: es => if d.span.start ≤ e.span.start then d :: e :: es else e :: insertInOrder d es

/-- The diagnostics in the order of where they begin; those that begin at one place keep their order. -/
def inSourceOrder (ds : List Diagnostic) : List Diagnostic := ds.foldr insertInOrder []

end Diagnostic

/-! ## Causes -/

/-- What can be wrong with a text. -/
inductive Problem where
  /-- Something is missing that reading goes on without. -/
  | missing (what : String)
  /-- Something else stands where `what` has to stand. -/
  | unexpected (what found : String)
  /-- The input ends where `what` has to stand. -/
  | ended (what : String)
  /-- Too many constructs stand inside each other. -/
  | tooDeep (what : String)
  /-- A literal does not have the form that its type name announces. -/
  | malformedLiteral (text : String) (fault : LiteralFault)
  /-- A block opened with a bare `VAR`. -/
  | plainBlock
  /-- A block that has no place in an algorithm. -/
  | blockInAlgorithm (kind : BlockKind)
  /-- A block behind a statement. -/
  | lateBlock
  /-- A word that belongs to no statement here. -/
  | stray (found : String)
  /-- A word that belongs to no statement, outside of all units. -/
  | strayOutside (found : String)
deriving DecidableEq

namespace Problem

/-- The words for what is looked for: quotes around anything but letters, underscores and blanks. -/
def quote (what : String) : String :=
  if what.toList.all fun c => c.isAlpha || c == '_' || c == ' ' then what else "'" ++ what ++ "'"

/-- The code of the problem. -/
def code : Problem → DiagnosticCode
  | ended _ => .unexpectedEndOfStream
  | malformedLiteral _ _ => .malformedLiteral
  | _ => .syntaxError

/-- The problem in words. -/
def message : Problem → String
  | missing what => "expected " ++ quote what
  | unexpected what found => "expected " ++ quote what ++ ", found '" ++ found ++ "'"
  | ended what => "expected " ++ quote what ++ ", found end of input"
  | tooDeep what => what ++ " nested too deeply"
  | malformedLiteral text fault => "malformed literal " ++ text ++ ": " ++ fault.message
  | plainBlock => "VAR blocks are not allowed here, use VAR_TEMP"
  | blockInAlgorithm kind => kind.spelling ++ " blocks are not allowed in an ALGORITHM"
  | lateBlock => "declaration blocks must come before the first statement"
  | stray found => "unexpected '" ++ found ++ "'"
  | strayOutside found => "unexpected '" ++ found ++ "' outside of a block"

/-- What was looked for. -/
def expected? : Problem → Option String
  | missing what | unexpected what _ | ended what => some what
  | _ => none

end Problem

/-- A problem and its place. -/
structure Report where
  problem : Problem
  span : Span
deriving DecidableEq

/-- The report in words. -/
def Report.diagnostic (r : Report) : Diagnostic :=
  ⟨r.problem.code, r.problem.code.severity, r.span, r.problem.message, r.problem.expected?⟩

end StructuredText
