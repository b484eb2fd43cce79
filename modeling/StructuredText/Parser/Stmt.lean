import StructuredText.Parser.Expr
import StructuredText.Parser.Recovery
import StructuredText.Tree.Stmt

/-!
# Reading statements

A word tells the statements with a body of statements. What begins with a name, `THIS` or `SUPER` is an assignment if
`:=` follows the first access, and a call otherwise. Broken statements are reported and skipped.
-/

namespace StructuredText

namespace Parser

/-- The rules of the grammar one level deeper. -/
structure Level where
  /-- A unary expression. -/
  unary : Parser Expr
  /-- A statement. -/
  statement : Parser Stmt

/-! ## Lists of statements -/

/-- One more statement, unless the list is over or `stops` holds. -/
def statementTurn (statement : Parser Stmt) (stops : ParserState → Bool) : Parser (Turn Stmt) := do
  let s ← get
  if s.rest.isEmpty || s.kind.endsStatements || stops s then return .last []
  else recovering statement skipStatement

/-- Statements up to the end of the list, or up to where `stops` holds. -/
def statementsUntil (statement : Parser Stmt) (stops : ParserState → Bool) : Parser (List Stmt) :=
  collect (statementTurn statement stops)

/-- Statements up to the end of the list. -/
def statementList (statement : Parser Stmt) : Parser (List Stmt) := statementsUntil statement fun _ => false

/-- Takes the `;` that may follow a statement with a body, and gives the span of the whole. -/
def blockSpan (start : Nat) : Parser Span := do
  let _ ← eat .semicolon
  spanFrom start

/-! ## Statements with a body -/

section

variable (level : Level)

/-- The statements behind an `ELSE`, if there is one. -/
def elseBody : Parser (Option (List Stmt)) := do
  if ← eat .kwElse then return some (← statementList level.statement) else return none

/-- One more `ELSIF` branch, if there is one. -/
def elsifTurn : Parser (Turn ElsifBranch) := do
  if ← sees .kwElsif then
    let start ← offset
    skip
    let condition ← exprOf level.unary
    expect .kwThen
    let body ← statementList level.statement
    return .more [.mk condition body (← spanFrom start)]
  else return .last []

/-- `IF condition THEN … ELSIF … ELSE … END_IF` -/
def ifStatement : Parser Stmt := do
  let start ← offset
  skip
  let condition ← exprOf level.unary
  expect .kwThen
  let thenBody ← statementList level.statement
  let elsifs ← collect (elsifTurn level)
  let elseBody ← elseBody level
  expectEnd .kwEndIf
  return .ifThen condition thenBody elsifs elseBody (← blockSpan start)

/-- An arm of a `CASE`: its labels and the statements up to the next label. -/
def caseArm : Parser CaseArm := do
  let start ← offset
  if (← kind).canStartExpr then
    let labels ← sepByComma (exprOf level.unary)
    expect .colon
    let body ← statementsUntil level.statement ParserState.atCaseLabel
    return .mk labels body (← spanFrom start)
  else fail "case label"

/-- One more arm, unless the arms are over. -/
def caseArmTurn : Parser (Turn CaseArm) := do
  let s ← get
  if s.rest.isEmpty || s.kind.endsStatements then return .last []
  else recovering (caseArm level) skipStatement

/-- `CASE selector OF … ELSE … END_CASE`, with at least one arm. -/
def caseStatement : Parser Stmt := do
  let start ← offset
  skip
  let selector ← exprOf level.unary
  expect .kwOf
  match ← kind with
  | .kwElse | .kwEndCase => missing "case label"
  | _ => pure ()
  let arms ← collect (caseArmTurn level)
  let elseBody ← elseBody level
  expectEnd .kwEndCase
  return .select selector arms elseBody (← blockSpan start)

/-- `FOR var := first TO last BY step DO … END_FOR` -/
def forStatement : Parser Stmt := do
  let start ← offset
  skip
  let var ← ident "loop variable"
  expect .assign
  let first ← exprOf level.unary
  expect .kwTo
  let last ← exprOf level.unary
  let step ← step
  expect .kwDo
  let body ← statementList level.statement
  expectEnd .kwEndFor
  return .forLoop var first last step body (← blockSpan start)
where
  step : Parser (Option Expr) := do
    if ← eat .kwBy then return some (← exprOf level.unary) else return none

/-- `WHILE condition DO … END_WHILE` -/
def whileStatement : Parser Stmt := do
  let start ← offset
  skip
  let condition ← exprOf level.unary
  expect .kwDo
  let body ← statementList level.statement
  expectEnd .kwEndWhile
  return .whileLoop condition body (← blockSpan start)

/-- `REPEAT … UNTIL condition END_REPEAT` -/
def repeatStatement : Parser Stmt := do
  let start ← offset
  skip
  let body ← statementList level.statement
  expect .kwUntil
  let condition ← exprOf level.unary
  expectEnd .kwEndRepeat
  return .repeatLoop body condition (← blockSpan start)

end

/-! ## Statements without a body -/

section

variable (deeper : Option Level)

/-- A word and its `;`. -/
def keywordStatement (make : Span → Stmt) : Parser Stmt := do
  let start ← offset
  skip
  expectSemicolon
  return make (← spanFrom start)

/-- `target := value;` or `callee;` -/
def assignmentOrCall : Parser Stmt := do
  let start ← offset
  let target ← accessOf (deeper.map Level.unary)
  if ← eat .assign then
    let value ← exprOf (unaryOf (deeper.map Level.unary))
    expectSemicolon
    return .assign target value (← spanFrom start)
  else
    expectSemicolon
    return .call target (← spanFrom start)

/-- A statement, over the rules one level deeper. -/
def statementOf : Parser Stmt := do
  match ← kind with
  | .kwIf => nested "statement" deeper ifStatement
  | .kwCase => nested "statement" deeper caseStatement
  | .kwFor => nested "statement" deeper forStatement
  | .kwWhile => nested "statement" deeper whileStatement
  | .kwRepeat => nested "statement" deeper repeatStatement
  | .kwReturn => keywordStatement .leave
  | .kwExit => keywordStatement .exit
  | .kwContinue => keywordStatement .next
  | .semicolon => return .nop (← take).span
  | .ident | .kwThis | .kwSuper => assignmentOrCall deeper
  | _ => fail "statement"

end

/-- A statement with at most `levels` constructs inside each other. -/
def statement : (levels : Nat) → Parser Stmt
  | 0 => statementOf none
  | levels + 1 => statementOf (some ⟨unary levels, statement levels⟩)

/-- Statements up to the end of the list, each with at most `levels` constructs inside each other. -/
def statements (levels : Nat) : Parser (List Stmt) := statementList (statement levels)

end Parser

end StructuredText
