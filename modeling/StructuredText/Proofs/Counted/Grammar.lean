import StructuredText.Proofs.Counted

/-!
# The grammar with a cursor

The rules of the grammar, over the steps that move a cursor and count the depth. A rule that stands inside of itself is
written over the rules that it calls; how many calls may stand inside each other is no part of the grammar, so that
`unary`, `statement`, `typeRef` and `initializer` do not come back where there are more of them than they are given.
-/

namespace StructuredText

open StructuredText.Parser (Turn)

namespace Counted

noncomputable section

/-! ## Literals -/

/-- The cursor moves over one token. -/
def tokenLiteral (kind : LiteralKind) : Counted Literal := return .ofToken kind (← take)

/-- The cursor moves over five tokens. -/
def timeOfDay : Counted Literal := do
  let hours ← take
  let colon ← take
  let minutes ← take
  let colon' ← take
  let seconds ← take
  let value := hours.text ++ colon.text ++ minutes.text ++ colon'.text ++ seconds.text
  return ⟨.timeOfDay, none, value, ← spanFrom hours.span.start⟩

/-- The cursor moves over a sign, if there is one. -/
def sign : Counted (Option String) := do
  match ← kind with
  | .minus | .plus => return some (← take).text
  | _ => return none

/-- The cursor moves over the type name, the sign and the value, and stands behind them when a fault is reported. -/
def typedLiteral : Counted Literal := do
  let token ← take
  let typeName := withoutHash token.text
  let sign ← sign
  match LiteralKind.ofToken? (← kind) with
  | none => fail "literal value"
  | some kind =>
    let value ← tokenLiteral kind
    let span := token.span.cover value.span
    match LiteralFault.of? typeName kind sign.isSome with
    | some fault => reportAt span (.malformedLiteral (span.textIn (← view).source) fault)
    | none => pure ()
    let nameSpan := ⟨token.span.start, token.span.start + Text.byteLength typeName.toList⟩
    return ⟨kind, some ⟨typeName, nameSpan⟩, value.signedValue (sign.getD ""), span⟩

/-- Which literal it is goes by the tokens at the cursor. -/
def literal : Counted Literal := do
  let s ← view
  match s.kind with
  | .typedLiteralPrefix => typedLiteral
  | kind =>
    if s.atTimeOfDay then timeOfDay
    else
      match LiteralKind.ofToken? kind with
      | some kind => tokenLiteral kind
      | none => fail "literal"

/-! ## Expressions -/

/-- The cursor moves over a name, or stays. -/
def ident (what : String) : Counted Name := do
  if ← sees .ident then take else fail what

/-- A turn moves over a `::` and a part of the name, or ends the loop where it stands. -/
def nameTurn (name : Name) : Counted (Option Name) := do
  if ← eat .colonColon then
    let part ← ident "name"
    return some ⟨name.text ++ "::" ++ part.text, name.span.cover part.span⟩
  else return none

/-- Nothing bounds the number of parts. -/
def qualifiedName (what : String) : Counted Name := do
  fold nameTurn (← ident what)

/-- A turn moves over an operator and its right operand, or ends the loop where it stands. -/
def tierTurn (tier : BinaryTier) (operand : Counted Expr) (left : Expr) : Counted (Option Expr) := do
  match tier.op? (← kind) with
  | some op =>
    skip
    let right ← operand
    return some (.binary op left right (left.span.cover right.span))
  | none => return none

/-- Nothing bounds the number of operators. The operands are no constructs of their own, so that the depth stays. -/
def binaryTier (tier : BinaryTier) (operand : Counted Expr) : Counted Expr := do
  fold (tierTurn tier operand) (← operand)

/-- All tiers but the one of subranges, each a loop inside of the one before. -/
def boundOf (unary : Counted Expr) : Counted Expr :=
  binaryTier .or <| binaryTier .xor <| binaryTier .and <| binaryTier .equality <| binaryTier .comparison <|
    binaryTier .addSub <| binaryTier .mulDivMod <| binaryTier .power unary

/-- The outermost loop is the one of subranges. -/
def exprOf (unary : Counted Expr) : Counted Expr := binaryTier .subrange (boundOf unary)

/-- The cursor moves over both brackets. The depth is counted by the caller. -/
def parenthesized (unary : Counted Expr) : Counted Expr := do
  skip
  let inner ← exprOf unary
  expect .rParen
  return inner

/-- The cursor moves over both brackets. The depth is counted by the caller. -/
def indices (unary : Counted Expr) : Counted (List Expr) := do
  skip
  let indices ← sepByComma (exprOf unary)
  expect .rBracket
  return indices

/-- The cursor moves over the parameter, the arrow and the value. -/
def output (unary : Counted Expr) (start : Nat) (negated : Bool) : Counted Arg := do
  let param ← take
  skip
  let value ← exprOf unary
  return .output param negated value (← spanFrom start)

/-- Three tokens are looked at from the cursor before it moves. -/
def arg (unary : Counted Expr) : Counted Arg := do
  let s ← view
  let start := s.span.start
  match s.kind, s.kindAt 1, s.kindAt 2 with
  | .kwNot, .ident, .arrow =>
    skip
    output unary start true
  | .ident, .arrow, _ => output unary start false
  | .ident, .assign, _ =>
    let param ← take
    skip
    let value ← exprOf unary
    return .input param value (← spanFrom start)
  | _, _, _ => return .positional (← exprOf unary)

/-- The cursor moves over both brackets. The depth is counted by the caller. -/
def args (unary : Counted Expr) : Counted (List Arg) := do
  skip
  if ← eat .rParen then return []
  else
    let args ← sepByComma (arg unary)
    expect .rParen
    return args

section

variable (unary : Counted Expr)

/-- An expression in brackets is one level deeper. -/
def primary : Counted Expr := do
  let s ← view
  let start := s.span.start
  match s.kind with
  | .lParen =>
    nested "expression" do
      let inner ← parenthesized unary
      return .paren inner (← spanFrom start)
  | .ident => return .name (← qualifiedName "name")
  | .kwThis => return .this (← take).span
  | .kwSuper => return .super (← take).span
  | .typedLiteralPrefix =>
    if s.kindAt 1 = .ident ∧ !s.atLiteralType then
      let type ← take
      let value ← take
      return .name ⟨type.text ++ value.text, type.span.cover value.span⟩
    else return .literal (← literal)
  | kind => if kind.isLiteral then return .literal (← literal) else fail "expression"

/-- The cursor stands behind the `.`. An index in brackets is one level deeper. -/
def selection (receiver : Expr) (start : Nat) : Counted Expr := do
  match ← kind with
  | .ident =>
    let name ← take
    return .member receiver name (← spanFrom start)
  | .intLiteral =>
    let selector ← take
    return .part receiver none (.ofToken selector) (← spanFrom start)
  | .access width =>
    skip
    match ← kind with
    | .intLiteral =>
      let selector ← take
      return .part receiver (some width) (.ofToken selector) (← spanFrom start)
    | .lParen =>
      let index ← nested "expression" (parenthesized unary)
      return .partAt receiver width index (← spanFrom start)
    | _ => fail "partial access index"
  | _ => fail "member name"

/-- A turn moves over a suffix, and what stands in its brackets is one level deeper; or it ends the loop where it
stands. -/
def suffix? (start : Nat) (receiver : Expr) : Counted (Option Expr) := do
  match ← kind with
  | .dot =>
    skip
    return some (← selection unary receiver start)
  | .lBracket =>
    let indices ← nested "expression" (indices unary)
    return some (.index receiver indices (← spanFrom start))
  | .lParen =>
    if receiver.isCallable then
      let args ← nested "expression" (args unary)
      return some (.call receiver args (← spanFrom start))
    else return none
  | _ => return none

/-- Nothing bounds the number of suffixes. -/
def accessOf : Counted Expr := do
  let start ← offset
  fold (suffix? unary start) (← primary unary)

/-- The operand of an operator is one level deeper. -/
def unaryOf : Counted Expr := do
  match UnaryOp.ofToken? (← kind) with
  | some op =>
    let start ← offset
    skip
    let operand ← nested "expression" unary
    return .unary op operand (← spanFrom start)
  | none => accessOf unary

end

/-- Unary expressions with at most so many calls inside each other. -/
def unary : (calls : Nat) → Counted Expr
  | 0 => diverge
  | calls + 1 => unaryOf (unary calls)

/-- Expressions with at most so many calls inside each other. -/
def expr (calls : Nat) : Counted Expr := exprOf (unary calls)

/-- Bounds of ranges with at most so many calls inside each other. -/
def bound (calls : Nat) : Counted Expr := boundOf (unary calls)

/-! ## Statements -/

/-- The rules that a statement calls. -/
structure Callees where
  unary : Counted Expr
  statement : Counted Stmt

/-- A turn that does not end the list moves the cursor, if need be by force. -/
def statementTurn (statement : Counted Stmt) (stops : ParserState → Bool) : Counted (Turn Stmt) := do
  let s ← view
  if s.rest.isEmpty || s.kind.endsStatements || stops s then return .last []
  else recovering statement skipStatement

/-- Nothing bounds the number of statements. -/
def statementsUntil (statement : Counted Stmt) (stops : ParserState → Bool) : Counted (List Stmt) :=
  collect (statementTurn statement stops)

/-- Statements up to a word that ends them. -/
def statementList (statement : Counted Stmt) : Counted (List Stmt) := statementsUntil statement fun _ => false

/-- The cursor moves over a `;`, if there is one. -/
def blockSpan (start : Nat) : Counted Span := do
  let _ ← eat .semicolon
  spanFrom start

section

variable (callees : Callees)

/-- The cursor moves over `ELSE`, if there is one. The statements are as deep as those in front of it. -/
def elseBody : Counted (Option (List Stmt)) := do
  if ← eat .kwElse then return some (← statementList callees.statement) else return none

/-- A turn moves over a branch, or ends the loop where it stands. -/
def elsifTurn : Counted (Turn ElsifBranch) := do
  if ← sees .kwElsif then
    let start ← offset
    skip
    let condition ← exprOf callees.unary
    expect .kwThen
    let body ← statementList callees.statement
    return .more [.mk condition body (← spanFrom start)]
  else return .last []

/-- Two loops one behind the other, over statements and over branches. The depth is counted by the caller. -/
def ifStatement : Counted Stmt := do
  let start ← offset
  skip
  let condition ← exprOf callees.unary
  expect .kwThen
  let thenBody ← statementList callees.statement
  let elsifs ← collect (elsifTurn callees)
  let elseBody ← elseBody callees
  expectEnd .kwEndIf
  return .ifThen condition thenBody elsifs elseBody (← blockSpan start)

/-- The cursor moves over labels and statements, or stays where no label begins. -/
def caseArm : Counted CaseArm := do
  let start ← offset
  if (← kind).canStartExpr then
    let labels ← sepByComma (exprOf callees.unary)
    expect .colon
    let body ← statementsUntil callees.statement ParserState.atCaseLabel
    return .mk labels body (← spanFrom start)
  else fail "case label"

/-- A turn that does not end the loop moves the cursor, if need be by force. -/
def caseArmTurn : Counted (Turn CaseArm) := do
  let s ← view
  if s.rest.isEmpty || s.kind.endsStatements then return .last []
  else recovering (caseArm callees) skipStatement

/-- Nothing bounds the number of arms. -/
def caseArms (start : Nat) (selector : Expr) : Counted Stmt := do
  let arms ← collect (caseArmTurn callees)
  let elseBody ← elseBody callees
  expectEnd .kwEndCase
  return .select selector arms elseBody (← blockSpan start)

/-- A missing label moves nothing: the loop over the arms ends at once. -/
def caseStatement : Counted Stmt := do
  let start ← offset
  skip
  let selector ← exprOf callees.unary
  expect .kwOf
  match ← kind with
  | .kwElse | .kwEndCase => missing "case label"
  | _ => pure ()
  caseArms callees start selector

/-- The cursor moves over `BY` and the step, or stays. -/
def step : Counted (Option Expr) := do
  if ← eat .kwBy then return some (← exprOf callees.unary) else return none

/-- The depth is counted by the caller. -/
def forStatement : Counted Stmt := do
  let start ← offset
  skip
  let var ← ident "loop variable"
  expect .assign
  let first ← exprOf callees.unary
  expect .kwTo
  let last ← exprOf callees.unary
  let step ← step callees
  expect .kwDo
  let body ← statementList callees.statement
  expectEnd .kwEndFor
  return .forLoop var first last step body (← blockSpan start)

/-- The depth is counted by the caller. -/
def whileStatement : Counted Stmt := do
  let start ← offset
  skip
  let condition ← exprOf callees.unary
  expect .kwDo
  let body ← statementList callees.statement
  expectEnd .kwEndWhile
  return .whileLoop condition body (← blockSpan start)

/-- The depth is counted by the caller. -/
def repeatStatement : Counted Stmt := do
  let start ← offset
  skip
  let body ← statementList callees.statement
  expect .kwUntil
  let condition ← exprOf callees.unary
  expectEnd .kwEndRepeat
  return .repeatLoop body condition (← blockSpan start)

end

section

variable (callees : Callees)

/-- The cursor moves over the word, and over what is skipped where the `;` is missing. -/
def keywordStatement (make : Span → Stmt) : Counted Stmt := do
  let start ← offset
  skip
  expectSemicolon
  return make (← spanFrom start)

/-- The statement is no construct of its own: its expressions are as deep as it is. -/
def assignmentOrCall : Counted Stmt := do
  let start ← offset
  let target ← accessOf callees.unary
  if ← eat .assign then
    let value ← exprOf (unaryOf callees.unary)
    expectSemicolon
    return .assign target value (← spanFrom start)
  else
    expectSemicolon
    return .call target (← spanFrom start)

/-- A statement with a body is one level deeper. Where no statement begins, the cursor stays. -/
def statementOf : Counted Stmt := do
  match ← kind with
  | .kwIf => nested "statement" (ifStatement callees)
  | .kwCase => nested "statement" (caseStatement callees)
  | .kwFor => nested "statement" (forStatement callees)
  | .kwWhile => nested "statement" (whileStatement callees)
  | .kwRepeat => nested "statement" (repeatStatement callees)
  | .kwReturn => keywordStatement .leave
  | .kwExit => keywordStatement .exit
  | .kwContinue => keywordStatement .next
  | .semicolon => return .nop (← take).span
  | .ident | .kwThis | .kwSuper => assignmentOrCall callees
  | _ => fail "statement"

end

/-- Statements with at most so many calls inside each other. -/
def statement : (calls : Nat) → Counted Stmt
  | 0 => diverge
  | calls + 1 => statementOf ⟨unary calls, statement calls⟩

/-- Lists of statements with at most so many calls inside each other. -/
def statements (calls : Nat) : Counted (List Stmt) := statementList (statement calls)

/-! ## Declarations -/

/-- The target of a reference is one level deeper. -/
def typeRefOf (typeRef : Counted TypeRef) : Counted TypeRef := do
  match ← kind with
  | .type type => return .elementary type (← take).span
  | .kwRefTo =>
    let start ← offset
    skip
    let target ← nested "type" typeRef
    return .reference target (← spanFrom start)
  | .ident => return .named (← qualifiedName "type name")
  | _ => fail "type name"

/-- Types with at most so many calls inside each other. -/
def typeRef : (calls : Nat) → Counted TypeRef
  | 0 => diverge
  | calls + 1 => typeRefOf (typeRef calls)

/-- Nothing bounds the number of items. -/
def listUpTo (close : TokenKind) (item : Counted α) : Counted (List α) := do
  let items ← sepByComma item
  expect close
  return items

/-- The two tokens of a repetition are looked at before the cursor moves. -/
def arrayElement (initializer : Counted Initializer) : Counted ArrayElement := do
  let s ← view
  if s.kind = .intLiteral ∧ s.kindAt 1 = .lParen then
    let start := s.span.start
    let count ← literal
    skip
    if ← eat .rParen then return .repeated count [] (← spanFrom start)
    else
      let values ← listUpTo .rParen initializer
      return .repeated count values (← spanFrom start)
  else return .single (← initializer)

/-- The depth is counted by the caller. -/
def arrayInitializer (initializer : Counted Initializer) : Counted Initializer := do
  let start ← offset
  skip
  let elements ← listUpTo .rBracket (arrayElement initializer)
  return .array elements (← spanFrom start)

/-- The cursor moves over the name, the `:=` and the value. -/
def fieldInit (initializer : Counted Initializer) : Counted FieldInit := do
  let start ← offset
  let field ← ident "field name"
  expect .assign
  let value ← initializer
  return .mk field value (← spanFrom start)

/-- The depth is counted by the caller. -/
def recordInitializer (initializer : Counted Initializer) : Counted Initializer := do
  let start ← offset
  skip
  let fields ← listUpTo .rParen (fieldInit initializer)
  return .record fields (← spanFrom start)

/-- Arrays and records are one level deeper. Three tokens are looked at before the cursor moves. -/
def initializerOf (expr : Counted Expr) (initializer : Counted Initializer) : Counted Initializer := do
  let s ← view
  match s.kind, s.kindAt 1, s.kindAt 2 with
  | .lBracket, _, _ => nested "initializer" (arrayInitializer initializer)
  | .lParen, .ident, .assign => nested "initializer" (recordInitializer initializer)
  | _, _, _ => return .value (← expr)

/-- Initial values with at most so many calls inside each other. -/
def initializer : (calls : Nat) → Counted Initializer
  | 0 => diverge
  | calls + 1 => initializerOf (expr (calls + 1)) (initializer calls)

section

variable (calls : Nat)

/-- The cursor moves over both bounds. -/
def arrayBounds : Counted ArrayBounds := do
  let start ← offset
  let lower ← bound calls
  expect .dotDot
  let upper ← bound calls
  return ⟨lower, upper, ← spanFrom start⟩

/-- Nothing bounds the number of dimensions. -/
def arrayDimensions : Counted ArrayShape := do
  if ← sees .star then
    let stars ← sepByComma (expect .star)
    return .unbounded stars.length
  else return .bounded (← sepByComma (arrayBounds calls))

/-- The cursor moves over the whole shape, or stays. -/
def arrayShape? : Counted (Option ArrayShape) := do
  if ← eat .kwArray then
    expect .lBracket
    let shape ← arrayDimensions calls
    expect .rBracket
    expect .kwOf
    return some shape
  else return none

/-- The cursor moves over `AT` and the location, or stays. -/
def location? : Counted (Option Name) := do
  if ← eat .kwAt then return some (← qualifiedName "location") else return none

/-- The cursor moves over both brackets, or stays. -/
def maxLength? : Counted (Option Expr) := do
  if ← eat .lBracket then
    let length ← expr calls
    expect .rBracket
    return some length
  else return none

/-- The cursor moves over `:=` and the value, or stays. -/
def initial? : Counted (Option Initializer) := do
  if ← eat .assign then return some (← initializer calls) else return none

/-- The cursor moves over the `;`. Where it is missing, nothing is skipped. -/
def expectDeclEnd : Counted PUnit := do
  if ← sees .semicolon then skip
  else if (← view).atDeclEnd then missing TokenKind.semicolon.spelling
  else fail TokenKind.semicolon.spelling

/-- The cursor moves at least over the name, which the turn of the block has seen. -/
def varDecl : Counted VarDecl := do
  let start ← offset
  let name ← ident "variable name"
  let location ← location?
  expect .colon
  let shape ← arrayShape? calls
  let type ← typeRef calls
  let maxLength ← maxLength? calls
  let initial ← initial? calls
  expectDeclEnd
  return ⟨name, location, shape, type, maxLength, initial, ← spanFrom start⟩

/-- The cursor may stay, where it stands in front of a word that ends a block. -/
def skipDecl : Counted PUnit := skipTo fun k => k == .kwEndVar || k.endsBlock

/-- A turn that does not end the block moves the cursor: over a name, or over what is no name. -/
def varDeclTurn : Counted (Turn VarDecl) := do
  let s ← view
  match s.rest with
  | [] => fail TokenKind.kwEndVar.spelling
  | _ :: _ =>
    if s.kind = .kwEndVar then
      skip
      return .last []
    else if s.kind = .ident then
      if s.atStatementStart then
        missing TokenKind.kwEndVar.spelling
        return .last []
      else orRecover (return .more [← varDecl calls]) (do skipDecl; return .more [])
    else if s.kind.endsBlock then
      missing TokenKind.kwEndVar.spelling
      return .last []
    else
      missing "variable name"
      skipDecl
      return .more []

/-- Nothing moves. The word is behind the cursor by now. -/
def blockKind (span : Span) : TokenKind → Counted BlockKind
  | .kwVarInput => return .input
  | .kwVarOutput => return .output
  | .kwVarInOut => return .inOut
  | .kwVarTemp => return .temp
  | _ => do
    reportAt span .plainBlock
    return .temp

/-- The cursor moves over the first word, and then a loop that nothing bounds over declarations. -/
def varBlock (unit : UnitKind) : Counted VarBlock := do
  let s ← view
  skip
  let kind ← blockKind s.span s.kind
  if unit = .algorithm ∧ kind ≠ .temp then reportAt s.span (.blockInAlgorithm kind) else pure ()
  let isConstant ← eat .kwConstant
  let decls ← collect (varDeclTurn calls)
  return ⟨kind, isConstant, decls, ← spanFrom s.span.start⟩

/-! ## Units -/

/-- A turn moves over a block, or ends the loop where it stands. -/
def leadingBlockTurn (unit : UnitKind) : Counted (Turn BodyPart) := do
  if (← kind).isVarKeyword then return .more [.block (← varBlock calls unit)] else return .last []

/-- A turn that does not end the body moves over a block or over the token that does not belong here. -/
def bodyTurn (unit : UnitKind) : Counted (Turn BodyPart) := do
  let part := .statements (← statements calls)
  let s ← view
  match s.rest with
  | [] => fail unit.endKeyword.spelling
  | _ :: _ =>
    if s.kind = unit.endKeyword then
      skip
      let _ ← eat .semicolon
      return .last [part]
    else if s.kind.isVarKeyword then
      report .lateBlock
      let block ← varBlock calls unit
      return .more [part, .block block]
    else
      match s.kind with
      | .kwEndAlgorithm | .kwEndMethod =>
        missing unit.endKeyword.spelling
        skip
        return .last [part]
      | .kwAlgorithm | .kwMethod =>
        missing unit.endKeyword.spelling
        return .last [part]
      | _ =>
        report (.stray s.text)
        skip
        return .more [part]

/-- Two loops one behind the other, over the leading blocks and over the rest. -/
def body (unit : UnitKind) : Counted Body := do
  let leading ← collect (leadingBlockTurn calls unit)
  let parts ← collect (bodyTurn calls unit)
  return .ofParts (leading ++ parts)

/-- The cursor moves over a name, or stays where it is missing. -/
def unitName : Counted Name := do
  if ← sees .ident then take
  else if ← atEnd then fail "name"
  else
    missing "name"
    return ⟨"", .empty (← offset)⟩

/-- The cursor moves over the `:` and as much of the type as can be read. -/
def returnType? : Counted (Option TypeRef) := do
  if ← eat .colon then orRecover (return some (← typeRef calls)) (return none) else return none

/-- The cursor moves over the first word, so that the turn of the file makes progress. -/
def algorithm : Counted Algorithm := do
  let start ← offset
  skip
  let name ← unitName
  let body ← body calls .algorithm
  return ⟨name, body, ← spanFrom start⟩

/-- The cursor moves over the first word, so that the turn of the file makes progress. -/
def method : Counted Method := do
  let start ← offset
  skip
  let name ← unitName
  let returnType ← returnType? calls
  let body ← body calls .method
  return ⟨name, returnType, body, ← spanFrom start⟩

/-! ## Whole streams -/

/-- A turn moves over a unit or over what stands in front of the next one. At the end it ends the loop. -/
def unitTurn : Counted (Turn ProgramUnit) := do
  let s ← view
  match s.rest with
  | [] => return .last []
  | _ :: _ =>
    match s.kind with
    | .kwAlgorithm => return .more [.algorithm (← algorithm calls)]
    | .kwMethod => return .more [.method (← method calls)]
    | _ =>
      missing "ALGORITHM or METHOD"
      skipWhile fun s => s.kind != .kwAlgorithm && s.kind != .kwMethod
      return .more []

/-- Nothing bounds the number of units. -/
def sourceFile : Counted SourceFile := do
  let start ← offset
  let units ← collect (unitTurn calls)
  return ⟨units, ← spanFrom start⟩

/-- The cursor moves to the end, whatever is left behind the unit. -/
def algorithmRoot : Counted Algorithm := do
  if ← sees .kwAlgorithm then
    let algorithm ← algorithm calls
    expectEndOfInput
    return algorithm
  else fail TokenKind.kwAlgorithm.spelling

/-- The cursor moves to the end, whatever is left behind the unit. -/
def methodRoot : Counted Method := do
  if ← sees .kwMethod then
    let method ← method calls
    expectEndOfInput
    return method
  else fail TokenKind.kwMethod.spelling

/-- A turn moves over statements and one token that ends them. At the end it ends the loop. -/
def statementsTurn : Counted (Turn Stmt) := do
  let statements ← statements calls
  let s ← view
  match s.rest with
  | [] => return .last statements
  | _ :: _ =>
    report (.strayOutside s.text)
    skip
    return .more statements

/-- Nothing bounds the number of turns. -/
def statementRoot : Counted StatementList := do
  let start ← offset
  let statements ← collect (statementsTurn calls)
  return ⟨statements, ← spanFrom start⟩

/-- The cursor moves to the end, whatever is left behind the expression. -/
def expressionRoot : Counted Expr := do
  let e ← expr calls
  let _ ← eat .semicolon
  expectEndOfInput
  return e

/-- The cursor moves over the name and the `:=`, or stays. -/
def target? : Counted (Option Name) := do
  let s ← view
  if s.kind = .ident ∧ s.kindAt 1 = .assign then
    let name ← take
    skip
    return some name
  else return none

/-- The cursor moves to the end, whatever is left behind the value. -/
def initializerRoot : Counted InitializerSource := do
  let start ← offset
  let target ← target?
  let value ← initializer calls
  let span ← spanFrom start
  let _ ← eat .semicolon
  expectEndOfInput
  return ⟨target, value, span⟩

end

/-- Runs a rule on a stream. There is no outcome where it does not come back. -/
def run (rule : Counted α) (s : Stream) : Option (Parse α × Machine) :=
  match rule (.start s) with
  | some (.ok tree, m) => some (⟨some tree, m.reports.reverse⟩, m)
  | some (.error _, m) => some (⟨none, m.reports.reverse⟩, m)
  | none => none

/-- Reads the construct of an entry, and gives the machine behind it. -/
def parse (calls : Nat) (entry : Entry) (s : Stream) : Option (Parse Tree × Machine) :=
  match entry with
  | .source => ((sourceFile calls).run s).map fun (p, m) => (p.map .source, m)
  | .algorithm => ((algorithmRoot calls).run s).map fun (p, m) => (p.map .algorithm, m)
  | .method => ((methodRoot calls).run s).map fun (p, m) => (p.map .method, m)
  | .statements => ((statementRoot calls).run s).map fun (p, m) => (p.map .statements, m)
  | .expression => ((expressionRoot calls).run s).map fun (p, m) => (p.map .expression, m)
  | .initializer => ((initializerRoot calls).run s).map fun (p, m) => (p.map .initializer, m)

end

end Counted

end StructuredText
