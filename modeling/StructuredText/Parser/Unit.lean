import StructuredText.Parser.Decl
import StructuredText.Parser.Stmt
import StructuredText.Tree.Unit

/-!
# Reading units

The body of a unit goes on to the word that closes the unit. A variable block behind a statement is reported and kept,
and so is a body that a unit of the other kind closes or that a new unit cuts off.
-/

namespace StructuredText

/-- The word that closes a unit. -/
def UnitKind.endKeyword : UnitKind → TokenKind
  | algorithm => .kwEndAlgorithm
  | method => .kwEndMethod

/-- A part of a body. -/
inductive BodyPart where
  | block (block : VarBlock)
  | statements (statements : List Stmt)

namespace Body

/-- The body with these parts. -/
def ofParts : List BodyPart → Body
  | [] => ⟨[], []⟩
  | .block b :: parts => let body := ofParts parts; { body with blocks := b :: body.blocks }
  | .statements ss :: parts => let body := ofParts parts; { body with statements := ss ++ body.statements }

end Body

namespace Parser

variable (levels : Nat)

/-! ## Bodies -/

/-- One more variable block at the beginning of a body, if there is one. -/
def leadingBlockTurn (unit : UnitKind) : Parser (Turn BodyPart) := do
  if (← kind).isVarKeyword then return .more [.block (← varBlock levels unit)] else return .last []

/-- Statements and what stands behind them in a body. -/
def bodyTurn (unit : UnitKind) : Parser (Turn BodyPart) := do
  let part := .statements (← statements levels)
  let s ← get
  match s.rest with
  | [] => fail unit.endKeyword.spelling
  | _ :: _ =>
    if s.kind = unit.endKeyword then
      skip
      let _ ← eat .semicolon
      return .last [part]
    else if s.kind.isVarKeyword then
      report .lateBlock
      let block ← varBlock levels unit
      return .more [part, .block block]
    else
      match s.kind with
      | .kwEndAlgorithm | .kwEndMethod =>
        missing unit.endKeyword.spelling
        skip
        return .last [part]
      | .kwAlgorithm | .kwMethod =>
        missing unit.endKeyword.spelling
        return .last [part]
      | _ =>
        report (.stray s.text)
        skip
        return .more [part]

/-- The body of a unit and the word that closes it. -/
def body (unit : UnitKind) : Parser Body := do
  let leading ← collect (leadingBlockTurn levels unit)
  let parts ← collect (bodyTurn levels unit)
  return .ofParts (leading ++ parts)

/-! ## Units -/

/-- The name of a unit. A missing one is reported and left empty. -/
def unitName : Parser Name := do
  if ← sees .ident then take
  else if ← atEnd then fail "name"
  else
    missing "name"
    return ⟨"", .empty (← offset)⟩

/-- `: type`, if it stands here. A broken type is reported and left out. -/
def returnType? : Parser (Option TypeRef) := do
  if ← eat .colon then orRecover (return some (← typeRef levels)) (return none) else return none

/-- `ALGORITHM name … END_ALGORITHM` -/
def algorithm : Parser Algorithm := do
  let start ← offset
  skip
  let name ← unitName
  let body ← body levels .algorithm
  return ⟨name, body, ← spanFrom start⟩

/-- `METHOD name [: type] … END_METHOD` -/
def method : Parser Method := do
  let start ← offset
  skip
  let name ← unitName
  let returnType ← returnType? levels
  let body ← body levels .method
  return ⟨name, returnType, body, ← spanFrom start⟩

/-! ## Whole streams -/

/-- One more unit, unless the stream is over. What is no unit is reported and skipped. -/
def unitTurn : Parser (Turn ProgramUnit) := do
  let s ← get
  match s.rest with
  | [] => return .last []
  | _ :: _ =>
    match s.kind with
    | .kwAlgorithm => return .more [.algorithm (← algorithm levels)]
    | .kwMethod => return .more [.method (← method levels)]
    | _ =>
      missing "ALGORITHM or METHOD"
      skipWhile fun s => s.kind != .kwAlgorithm && s.kind != .kwMethod
      return .more []

/-- A row of units. -/
def sourceFile : Parser SourceFile := do
  let start ← offset
  let units ← collect (unitTurn levels)
  return ⟨units, ← spanFrom start⟩

/-- One algorithm and nothing else. -/
def algorithmRoot : Parser Algorithm := do
  if ← sees .kwAlgorithm then
    let algorithm ← algorithm levels
    expectEndOfInput
    return algorithm
  else fail TokenKind.kwAlgorithm.spelling

/-- One method and nothing else. -/
def methodRoot : Parser Method := do
  if ← sees .kwMethod then
    let method ← method levels
    expectEndOfInput
    return method
  else fail TokenKind.kwMethod.spelling

/-- Statements up to a word that belongs to none, which is reported and passed over. -/
def statementsTurn : Parser (Turn Stmt) := do
  let statements ← statements levels
  let s ← get
  match s.rest with
  | [] => return .last statements
  | _ :: _ =>
    report (.strayOutside s.text)
    skip
    return .more statements

/-- Statements and nothing else. -/
def statementRoot : Parser StatementList := do
  let start ← offset
  let statements ← collect (statementsTurn levels)
  return ⟨statements, ← spanFrom start⟩

/-- An expression and at most a `;` behind it. -/
def expressionRoot : Parser Expr := do
  let e ← expr levels
  let _ ← eat .semicolon
  expectEndOfInput
  return e

/-- `name :=`, if it stands here. -/
def target? : Parser (Option Name) := do
  let s ← get
  if s.kind = .ident ∧ s.kindAt 1 = .assign then
    let name ← take
    skip
    return some name
  else return none

/-- `[name :=] value` and at most a `;` behind it. -/
def initializerRoot : Parser InitializerSource := do
  let start ← offset
  let target ← target?
  let value ← initializer levels
  let span ← spanFrom start
  let _ ← eat .semicolon
  expectEndOfInput
  return ⟨target, value, span⟩

end Parser

end StructuredText
