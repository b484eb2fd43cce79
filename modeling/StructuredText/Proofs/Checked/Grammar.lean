import StructuredText.Proofs.Checked

/-!
# The grammar with checks

The rules of the grammar, over the steps that check offsets, spans and cuts. Where a rule computes an offset or makes a
span of its own, it is checked here: around two operands, around the parts of a name, around a type name and its value,
for the type name of a literal, between the quotes of a string, and for a name that is missing.
-/

namespace StructuredText

open StructuredText.Parser (Turn)

namespace Checked

/-! ## Literals -/

/-- Checks the span of the type name, as long as the text in front of the `#`. -/
def splitAtHash (kind : LiteralKind) (token : Name) : Checked Literal := do
  let typeName := token.text.toList.takeWhile (· != '#')
  match token.text.toList.dropWhile (· != '#') with
  | _ :: value =>
    let span ← rangeAt token.span.start typeName
    return ⟨kind, some ⟨String.ofList typeName, span⟩, String.ofList value, token.span⟩
  | [] => return ⟨kind, none, token.text, token.span⟩

/-- The value of a quoted text. -/
def quoted (q : Quote) (text : List Char) : Checked String :=
  return String.ofList (q.valueFrom 0 (← cutOut text 1 (Text.byteLength text - 1)))

/-- The text of a string is cut out between its quotes. Other texts are cut at characters that they hold. -/
def ofToken (kind : LiteralKind) (token : Name) : Checked Literal := do
  match kind with
  | .bool => return ⟨kind, none, Text.upperString token.text, token.span⟩
  | .integer | .nonDecimal | .real => return ⟨kind, none, withoutSeparators token.text, token.span⟩
  | .string => return ⟨kind, none, ← quoted .single token.text.toList, token.span⟩
  | .wideString => return ⟨kind, none, ← quoted .double token.text.toList, token.span⟩
  | .duration | .date | .timeOfDay | .dateAndTime => splitAtHash kind token

/-- The type name is looked up in the text that is cut out for the next token. -/
def atLiteralType (s : ParserState) : Checked Bool :=
  return s.kind == .typedLiteralPrefix && (LiteralType.ofName? (withoutHash (← textOf s))).isSome

/-- A literal of one token has the span of this token. -/
def tokenLiteral (kind : LiteralKind) : Checked Literal := do ofToken kind (← take)

/-- Checks the span over the five tokens. -/
def timeOfDay : Checked Literal := do
  let hours ← take
  let colon ← take
  let minutes ← take
  let colon' ← take
  let seconds ← take
  let value := hours.text ++ colon.text ++ minutes.text ++ colon'.text ++ seconds.text
  return ⟨.timeOfDay, none, value, ← spanFrom hours.span.start⟩

/-- A sign is cut out as it is taken. -/
def sign : Checked (Option String) := do
  match ← kind with
  | .minus | .plus => return some (← take).text
  | _ => return none

/-- Checks the span of the type name, and the one around it and the value, from which the text of a fault is cut out. -/
def typedLiteral : Checked Literal := do
  let token ← take
  let typeName := withoutHash token.text
  let nameSpan ← rangeAt token.span.start typeName.toList
  let sign ← sign
  match LiteralKind.ofToken? (← kind) with
  | none => fail "literal value"
  | some kind =>
    let value ← tokenLiteral kind
    let span ← cover token.span value.span
    match LiteralFault.of? typeName kind sign.isSome with
    | some fault => reportAt span (.malformedLiteral (← textIn span (← get).source) fault)
    | none => pure ()
    return ⟨kind, some ⟨typeName, nameSpan⟩, value.signedValue (sign.getD ""), span⟩

/-- Which literal it is goes by kinds alone, so that nothing is checked before it is read. -/
def literal : Checked Literal := do
  let s ← get
  match s.kind with
  | .typedLiteralPrefix => typedLiteral
  | kind =>
    if s.atTimeOfDay then timeOfDay
    else
      match LiteralKind.ofToken? kind with
      | some kind => tokenLiteral kind
      | none => fail "literal"

/-! ## Expressions -/

/-- A name is cut out as it is taken. -/
def ident (what : String) : Checked Name := do
  if ← sees .ident then take else fail what

/-- Checks the span around the name so far and each further part of it. -/
def qualifiedName (what : String) : Checked Name := do
  fold (fun name => do
    if ← eat .colonColon then
      let part ← ident "name"
      let span ← cover name.span part.span
      return some ⟨name.text ++ "::" ++ part.text, span⟩
    else return none) (← ident what)

/-- Checks the span around the two operands. -/
def tierTurn (tier : BinaryTier) (operand : Checked Expr) (left : Expr) : Checked (Option Expr) := do
  match tier.op? (← kind) with
  | some op =>
    skip
    let right ← operand
    let span ← cover left.span right.span
    return some (.binary op left right span)
  | none => return none

/-- Each turn checks the span of its operator with its operands. -/
def binaryTier (tier : BinaryTier) (operand : Checked Expr) : Checked Expr := do
  fold (tierTurn tier operand) (← operand)

/-- All tiers but the one of subranges. -/
def boundOf (unary : Checked Expr) : Checked Expr :=
  binaryTier .or <| binaryTier .xor <| binaryTier .and <| binaryTier .equality <| binaryTier .comparison <|
    binaryTier .addSub <| binaryTier .mulDivMod <| binaryTier .power unary

/-- The outermost tier is the one of subranges. -/
def exprOf (unary : Checked Expr) : Checked Expr := binaryTier .subrange (boundOf unary)

/-- The span of the brackets is checked where it is known what stands in front of them. -/
def parenthesized (unary : Checked Expr) : Checked Expr := do
  skip
  let inner ← exprOf unary
  expect .rParen
  return inner

/-- The span of the brackets is checked with the one of what they belong to. -/
def indices (unary : Checked Expr) : Checked (List Expr) := do
  skip
  let indices ← sepByComma (exprOf unary)
  expect .rBracket
  return indices

/-- Checks the span from the parameter, or the `NOT` in front of it, up to the value. -/
def output (unary : Checked Expr) (start : Nat) (negated : Bool) : Checked Arg := do
  let param ← take
  skip
  let value ← exprOf unary
  return .output param negated value (← spanFrom start)

/-- Checks where the argument starts, and the span of one with `:=`. -/
def arg (unary : Checked Expr) : Checked Arg := do
  let s ← get
  let start := (← spanOf s).start
  match s.kind, s.kindAt 1, s.kindAt 2 with
  | .kwNot, .ident, .arrow =>
    skip
    output unary start true
  | .ident, .arrow, _ => output unary start false
  | .ident, .assign, _ =>
    let param ← take
    skip
    let value ← exprOf unary
    return .input param value (← spanFrom start)
  | _, _, _ => return .positional (← exprOf unary)

/-- The span of the brackets is checked with the one of the call. -/
def args (unary : Checked Expr) : Checked (List Arg) := do
  skip
  if ← eat .rParen then return []
  else
    let args ← sepByComma (arg unary)
    expect .rParen
    return args

section

variable (deeper : Option (Checked Expr))

/-- Checks where it starts, the span of an expression in brackets, and the one around an enumeration and its value. -/
def primary : Checked Expr := do
  let s ← get
  let start := (← spanOf s).start
  match s.kind with
  | .lParen =>
    nested "expression" deeper fun unary => do
      let inner ← parenthesized unary
      return .paren inner (← spanFrom start)
  | .ident => return .name (← qualifiedName "name")
  | .kwThis => return .this (← take).span
  | .kwSuper => return .super (← take).span
  | .typedLiteralPrefix =>
    if s.kindAt 1 = .ident ∧ !(← atLiteralType s) then
      let type ← take
      let value ← take
      let span ← cover type.span value.span
      return .name ⟨type.text ++ value.text, span⟩
    else return .literal (← literal)
  | kind => if kind.isLiteral then return .literal (← literal) else fail "expression"

/-- Checks the span from the start of the receiver up to what is selected. -/
def selection (receiver : Expr) (start : Nat) : Checked Expr := do
  match ← kind with
  | .ident =>
    let name ← take
    return .member receiver name (← spanFrom start)
  | .intLiteral =>
    let selector ← take
    return .part receiver none (.ofToken selector) (← spanFrom start)
  | .access width =>
    skip
    match ← kind with
    | .intLiteral =>
      let selector ← take
      return .part receiver (some width) (.ofToken selector) (← spanFrom start)
    | .lParen =>
      let index ← nested "expression" deeper parenthesized
      return .partAt receiver width index (← spanFrom start)
    | _ => fail "partial access index"
  | _ => fail "member name"

/-- Checks the span from the start of the receiver up to the closing bracket. -/
def suffix? (start : Nat) (receiver : Expr) : Checked (Option Expr) := do
  match ← kind with
  | .dot =>
    skip
    return some (← selection deeper receiver start)
  | .lBracket =>
    let indices ← nested "expression" deeper indices
    return some (.index receiver indices (← spanFrom start))
  | .lParen =>
    if receiver.isCallable then
      let args ← nested "expression" deeper args
      return some (.call receiver args (← spanFrom start))
    else return none
  | _ => return none

/-- Checks where the access starts. Its suffixes have their spans from there. -/
def accessOf : Checked Expr := do
  let start ← offset
  fold (suffix? deeper start) (← primary deeper)

/-- Checks where the operator starts, and the span up to the end of its operand. -/
def unaryOf : Checked Expr := do
  match UnaryOp.ofToken? (← kind) with
  | some op =>
    let start ← offset
    skip
    let operand ← nested "expression" deeper id
    return .unary op operand (← spanFrom start)
  | none => accessOf deeper

end

/-- Unary expressions with at most so many levels, with all their checks. -/
def unary : (levels : Nat) → Checked Expr
  | 0 => unaryOf none
  | levels + 1 => unaryOf (some (unary levels))

/-- Expressions with at most so many levels, with all their checks. -/
def expr (levels : Nat) : Checked Expr := exprOf (unary levels)

/-- Bounds of ranges with at most so many levels, with all their checks. -/
def bound (levels : Nat) : Checked Expr := boundOf (unary levels)

/-! ## Statements -/

/-- The rules with checks one level deeper. -/
structure Level where
  unary : Checked Expr
  statement : Checked Stmt

/-- Whether a statement follows goes by kinds and labels. Going on behind a broken one makes no span. -/
def statementTurn (statement : Checked Stmt) (stops : ParserState → Bool) : Checked (Turn Stmt) := do
  let s ← get
  if s.rest.isEmpty || s.kind.endsStatements || stops s then return .last []
  else recovering statement skipStatement

/-- Each turn checks what its statement does. -/
def statementsUntil (statement : Checked Stmt) (stops : ParserState → Bool) : Checked (List Stmt) :=
  collect (statementTurn statement stops)

/-- Statements up to a word that ends them. -/
def statementList (statement : Checked Stmt) : Checked (List Stmt) := statementsUntil statement fun _ => false

/-- Checks the span of a statement with a body, with the `;` behind it. -/
def blockSpan (start : Nat) : Checked Span := do
  let _ ← eat .semicolon
  spanFrom start

section

variable (level : Level)

/-- The statements check their own spans, and there is none around them. -/
def elseBody : Checked (Option (List Stmt)) := do
  if ← eat .kwElse then return some (← statementList level.statement) else return none

/-- Checks where the branch starts, and its span. -/
def elsifTurn : Checked (Turn ElsifBranch) := do
  if ← sees .kwElsif then
    let start ← offset
    skip
    let condition ← exprOf level.unary
    expect .kwThen
    let body ← statementList level.statement
    return .more [.mk condition body (← spanFrom start)]
  else return .last []

/-- Checks where the statement starts, and its span. -/
def ifStatement : Checked Stmt := do
  let start ← offset
  skip
  let condition ← exprOf level.unary
  expect .kwThen
  let thenBody ← statementList level.statement
  let elsifs ← collect (elsifTurn level)
  let elseBody ← elseBody level
  expectEnd .kwEndIf
  return .ifThen condition thenBody elsifs elseBody (← blockSpan start)

/-- Checks where the arm starts, and the span of its labels and statements. -/
def caseArm : Checked CaseArm := do
  let start ← offset
  if (← kind).canStartExpr then
    let labels ← sepByComma (exprOf level.unary)
    expect .colon
    let body ← statementsUntil level.statement ParserState.atCaseLabel
    return .mk labels body (← spanFrom start)
  else fail "case label"

/-- Whether an arm follows goes by the kind of the next token. -/
def caseArmTurn : Checked (Turn CaseArm) := do
  let s ← get
  if s.rest.isEmpty || s.kind.endsStatements then return .last []
  else recovering (caseArm level) skipStatement

/-- Checks the span of the statement that the arms belong to. -/
def caseArms (start : Nat) (selector : Expr) : Checked Stmt := do
  let arms ← collect (caseArmTurn level)
  let elseBody ← elseBody level
  expectEnd .kwEndCase
  return .select selector arms elseBody (← blockSpan start)

/-- Checks where the statement starts. The report of a missing label is at a checked span. -/
def caseStatement : Checked Stmt := do
  let start ← offset
  skip
  let selector ← exprOf level.unary
  expect .kwOf
  match ← kind with
  | .kwElse | .kwEndCase => missing "case label"
  | _ => pure ()
  caseArms level start selector

/-- The step checks its own span. -/
def step : Checked (Option Expr) := do
  if ← eat .kwBy then return some (← exprOf level.unary) else return none

/-- Checks where the statement starts, and its span. -/
def forStatement : Checked Stmt := do
  let start ← offset
  skip
  let var ← ident "loop variable"
  expect .assign
  let first ← exprOf level.unary
  expect .kwTo
  let last ← exprOf level.unary
  let step ← step level
  expect .kwDo
  let body ← statementList level.statement
  expectEnd .kwEndFor
  return .forLoop var first last step body (← blockSpan start)

/-- Checks where the statement starts, and its span. -/
def whileStatement : Checked Stmt := do
  let start ← offset
  skip
  let condition ← exprOf level.unary
  expect .kwDo
  let body ← statementList level.statement
  expectEnd .kwEndWhile
  return .whileLoop condition body (← blockSpan start)

/-- Checks where the statement starts, and its span. -/
def repeatStatement : Checked Stmt := do
  let start ← offset
  skip
  let body ← statementList level.statement
  expect .kwUntil
  let condition ← exprOf level.unary
  expectEnd .kwEndRepeat
  return .repeatLoop body condition (← blockSpan start)

end

section

variable (deeper : Option Level)

/-- Checks the span from the word up to the last token taken. -/
def keywordStatement (make : Span → Stmt) : Checked Stmt := do
  let start ← offset
  skip
  expectSemicolon
  return make (← spanFrom start)

/-- Checks where the statement starts, and the span of the assignment or of the call. -/
def assignmentOrCall : Checked Stmt := do
  let start ← offset
  let target ← accessOf (deeper.map Level.unary)
  if ← eat .assign then
    let value ← exprOf (unaryOf (deeper.map Level.unary))
    expectSemicolon
    return .assign target value (← spanFrom start)
  else
    expectSemicolon
    return .call target (← spanFrom start)

/-- An empty statement has the span of its `;`. All others check their own. -/
def statementOf : Checked Stmt := do
  match ← kind with
  | .kwIf => nested "statement" deeper ifStatement
  | .kwCase => nested "statement" deeper caseStatement
  | .kwFor => nested "statement" deeper forStatement
  | .kwWhile => nested "statement" deeper whileStatement
  | .kwRepeat => nested "statement" deeper repeatStatement
  | .kwReturn => keywordStatement .leave
  | .kwExit => keywordStatement .exit
  | .kwContinue => keywordStatement .next
  | .semicolon => return .nop (← take).span
  | .ident | .kwThis | .kwSuper => assignmentOrCall deeper
  | _ => fail "statement"

end

/-- Statements with at most so many levels, with all their checks. -/
def statement : (levels : Nat) → Checked Stmt
  | 0 => statementOf none
  | levels + 1 => statementOf (some ⟨unary levels, statement levels⟩)

/-- Lists of statements with at most so many levels, with all their checks. -/
def statements (levels : Nat) : Checked (List Stmt) := statementList (statement levels)

/-! ## Declarations -/

/-- Checks the span of a reference with its target. A type of one token has the span of this token. -/
def typeRefOf (deeper : Option (Checked TypeRef)) : Checked TypeRef := do
  match ← kind with
  | .type type => return .elementary type (← take).span
  | .kwRefTo =>
    let start ← offset
    skip
    let target ← nested "type" deeper id
    return .reference target (← spanFrom start)
  | .ident => return .named (← qualifiedName "type name")
  | _ => fail "type name"

/-- Types with at most so many levels, with all their checks. -/
def typeRef : (levels : Nat) → Checked TypeRef
  | 0 => typeRefOf none
  | levels + 1 => typeRefOf (some (typeRef levels))

/-- The items check their own spans. -/
def listUpTo (close : TokenKind) (item : Checked α) : Checked (List α) := do
  let items ← sepByComma item
  expect close
  return items

/-- Checks where a repetition starts, and its span. -/
def arrayElement (initializer : Checked Initializer) : Checked ArrayElement := do
  let s ← get
  if s.kind = .intLiteral ∧ s.kindAt 1 = .lParen then
    let start := (← spanOf s).start
    let count ← literal
    skip
    if ← eat .rParen then return .repeated count [] (← spanFrom start)
    else
      let values ← listUpTo .rParen initializer
      return .repeated count values (← spanFrom start)
  else return .single (← initializer)

/-- Checks the span of the brackets. -/
def arrayInitializer (initializer : Checked Initializer) : Checked Initializer := do
  let start ← offset
  skip
  let elements ← listUpTo .rBracket (arrayElement initializer)
  return .array elements (← spanFrom start)

/-- Checks the span of the field with its value. -/
def fieldInit (initializer : Checked Initializer) : Checked FieldInit := do
  let start ← offset
  let field ← ident "field name"
  expect .assign
  let value ← initializer
  return .mk field value (← spanFrom start)

/-- Checks the span of the brackets. -/
def recordInitializer (initializer : Checked Initializer) : Checked Initializer := do
  let start ← offset
  skip
  let fields ← listUpTo .rParen (fieldInit initializer)
  return .record fields (← spanFrom start)

/-- Which initial value it is goes by the kinds of three tokens. -/
def initializerOf (expr : Checked Expr) (deeper : Option (Checked Initializer)) : Checked Initializer := do
  let s ← get
  match s.kind, s.kindAt 1, s.kindAt 2 with
  | .lBracket, _, _ => nested "initializer" deeper arrayInitializer
  | .lParen, .ident, .assign => nested "initializer" deeper recordInitializer
  | _, _, _ => return .value (← expr)

/-- Initial values with at most so many levels, with all their checks. -/
def initializer : (levels : Nat) → Checked Initializer
  | 0 => initializerOf (expr 0) none
  | levels + 1 => initializerOf (expr (levels + 1)) (some (initializer levels))

section

variable (levels : Nat)

/-- Checks the span of the two bounds. -/
def arrayBounds : Checked ArrayBounds := do
  let start ← offset
  let lower ← bound levels
  expect .dotDot
  let upper ← bound levels
  return ⟨lower, upper, ← spanFrom start⟩

/-- Bounds check their own spans, and stars are only counted. -/
def arrayDimensions : Checked ArrayShape := do
  if ← sees .star then
    let stars ← sepByComma (expect .star)
    return .unbounded stars.length
  else return .bounded (← sepByComma (arrayBounds levels))

/-- The shape has no span of its own. -/
def arrayShape? : Checked (Option ArrayShape) := do
  if ← eat .kwArray then
    expect .lBracket
    let shape ← arrayDimensions levels
    expect .rBracket
    expect .kwOf
    return some shape
  else return none

/-- The parts of the location are checked as those of a name. -/
def location? : Checked (Option Name) := do
  if ← eat .kwAt then return some (← qualifiedName "location") else return none

/-- The length checks its own span. -/
def maxLength? : Checked (Option Expr) := do
  if ← eat .lBracket then
    let length ← expr levels
    expect .rBracket
    return some length
  else return none

/-- The initial value checks its own span. -/
def initial? : Checked (Option Initializer) := do
  if ← eat .assign then return some (← initializer levels) else return none

/-- A missing `;` is reported at a checked span. -/
def expectDeclEnd : Checked PUnit := do
  if ← sees .semicolon then skip
  else if (← get).atDeclEnd then missing TokenKind.semicolon.spelling
  else fail TokenKind.semicolon.spelling

/-- Checks where the declaration starts, and its span. -/
def varDecl : Checked VarDecl := do
  let start ← offset
  let name ← ident "variable name"
  let location ← location?
  expect .colon
  let shape ← arrayShape? levels
  let type ← typeRef levels
  let maxLength ← maxLength? levels
  let initial ← initial? levels
  expectDeclEnd
  return ⟨name, location, shape, type, maxLength, initial, ← spanFrom start⟩

/-- Skipping makes no span. -/
def skipDecl : Checked PUnit := skipTo fun k => k == .kwEndVar || k.endsBlock

/-- What is wrong with a declaration is reported at checked spans. -/
def varDeclTurn : Checked (Turn VarDecl) := do
  let s ← get
  match s.rest with
  | [] => fail TokenKind.kwEndVar.spelling
  | _ :: _ =>
    if s.kind = .kwEndVar then
      skip
      return .last []
    else if s.kind = .ident then
      if s.atStatementStart then
        missing TokenKind.kwEndVar.spelling
        return .last []
      else orRecover (return .more [← varDecl levels]) (do skipDecl; return .more [])
    else if s.kind.endsBlock then
      missing TokenKind.kwEndVar.spelling
      return .last []
    else
      missing "variable name"
      skipDecl
      return .more []

/-- A block of no kind is reported at the span of its first word, which is checked before the word is taken. -/
def blockKind (span : Span) : TokenKind → Checked BlockKind
  | .kwVarInput => return .input
  | .kwVarOutput => return .output
  | .kwVarInOut => return .inOut
  | .kwVarTemp => return .temp
  | _ => do
    reportAt span .plainBlock
    return .temp

/-- Checks the span of the first word, which is reported later on, and the one of the whole block. -/
def varBlock (unit : UnitKind) : Checked VarBlock := do
  let s ← get
  let span ← spanOf s
  skip
  let kind ← blockKind span s.kind
  if unit = .algorithm ∧ kind ≠ .temp then reportAt span (.blockInAlgorithm kind) else pure ()
  let isConstant ← eat .kwConstant
  let decls ← collect (varDeclTurn levels)
  return ⟨kind, isConstant, decls, ← spanFrom span.start⟩

/-! ## Units -/

/-- The block checks its own span. -/
def leadingBlockTurn (unit : UnitKind) : Checked (Turn BodyPart) := do
  if (← kind).isVarKeyword then return .more [.block (← varBlock levels unit)] else return .last []

/-- Checks the spans of what is reported, and cuts out the token that does not belong here. -/
def bodyTurn (unit : UnitKind) : Checked (Turn BodyPart) := do
  let part := .statements (← statements levels)
  let s ← get
  match s.rest with
  | [] => fail unit.endKeyword.spelling
  | _ :: _ =>
    if s.kind = unit.endKeyword then
      skip
      let _ ← eat .semicolon
      return .last [part]
    else if s.kind.isVarKeyword then
      report .lateBlock
      let block ← varBlock levels unit
      return .more [part, .block block]
    else
      match s.kind with
      | .kwEndAlgorithm | .kwEndMethod =>
        missing unit.endKeyword.spelling
        skip
        return .last [part]
      | .kwAlgorithm | .kwMethod =>
        missing unit.endKeyword.spelling
        return .last [part]
      | _ =>
        report (.stray (← textOf s))
        skip
        return .more [part]

/-- The body has no span of its own. -/
def body (unit : UnitKind) : Checked Body := do
  let leading ← collect (leadingBlockTurn levels unit)
  let parts ← collect (bodyTurn levels unit)
  return .ofParts (leading ++ parts)

/-- Checks the empty span of a name that is missing. -/
def unitName : Checked Name := do
  if ← sees .ident then take
  else if ← atEnd then fail "name"
  else
    missing "name"
    let span ← empty (← offset)
    return ⟨"", span⟩

/-- The type checks its own span. What is skipped behind a broken one makes none. -/
def returnType? : Checked (Option TypeRef) := do
  if ← eat .colon then orRecover (return some (← typeRef levels)) (return none) else return none

/-- Checks where the unit starts, and its span. -/
def algorithm : Checked Algorithm := do
  let start ← offset
  skip
  let name ← unitName
  let body ← body levels .algorithm
  return ⟨name, body, ← spanFrom start⟩

/-- Checks where the unit starts, and its span. -/
def method : Checked Method := do
  let start ← offset
  skip
  let name ← unitName
  let returnType ← returnType? levels
  let body ← body levels .method
  return ⟨name, returnType, body, ← spanFrom start⟩

/-! ## Whole streams -/

/-- What stands between units is reported at a checked span, and skipped without one. -/
def unitTurn : Checked (Turn ProgramUnit) := do
  let s ← get
  match s.rest with
  | [] => return .last []
  | _ :: _ =>
    match s.kind with
    | .kwAlgorithm => return .more [.algorithm (← algorithm levels)]
    | .kwMethod => return .more [.method (← method levels)]
    | _ =>
      missing "ALGORITHM or METHOD"
      skipWhile fun s => s.kind != .kwAlgorithm && s.kind != .kwMethod
      return .more []

/-- Checks the span from the first token to the last. -/
def sourceFile : Checked SourceFile := do
  let start ← offset
  let units ← collect (unitTurn levels)
  return ⟨units, ← spanFrom start⟩

/-- Checks the span of the tokens that are left behind the unit. -/
def algorithmRoot : Checked Algorithm := do
  if ← sees .kwAlgorithm then
    let algorithm ← algorithm levels
    expectEndOfInput
    return algorithm
  else fail TokenKind.kwAlgorithm.spelling

/-- Checks the span of the tokens that are left behind the unit. -/
def methodRoot : Checked Method := do
  if ← sees .kwMethod then
    let method ← method levels
    expectEndOfInput
    return method
  else fail TokenKind.kwMethod.spelling

/-- The token that no statement begins with is cut out and reported at a checked span. -/
def statementsTurn : Checked (Turn Stmt) := do
  let statements ← statements levels
  let s ← get
  match s.rest with
  | [] => return .last statements
  | _ :: _ =>
    report (.strayOutside (← textOf s))
    skip
    return .more statements

/-- Checks the span from the first token to the last. -/
def statementRoot : Checked StatementList := do
  let start ← offset
  let statements ← collect (statementsTurn levels)
  return ⟨statements, ← spanFrom start⟩

/-- Checks the span of the tokens that are left behind the expression. -/
def expressionRoot : Checked Expr := do
  let e ← expr levels
  let _ ← eat .semicolon
  expectEndOfInput
  return e

/-- The name is cut out as it is taken. -/
def target? : Checked (Option Name) := do
  let s ← get
  if s.kind = .ident ∧ s.kindAt 1 = .assign then
    let name ← take
    skip
    return some name
  else return none

/-- Checks the span of the value with its target, and of the tokens that are left behind it. -/
def initializerRoot : Checked InitializerSource := do
  let start ← offset
  let target ← target?
  let value ← initializer levels
  let span ← spanFrom start
  let _ ← eat .semicolon
  expectEndOfInput
  return ⟨target, value, span⟩

end

/-- Runs a rule with checks on a stream. There is no outcome where a check fails. -/
def run (rule : Checked α) (s : Stream) : Option (Parse α) :=
  match EStateM.run rule (.start s) with
  | .ok tree state => some ⟨some tree, state.reports.reverse⟩
  | .error (.abort _) state => some ⟨none, state.reports.reverse⟩
  | .error .refused _ => none

/-- Reads the construct of an entry with all checks. There is no outcome where a check fails. -/
def parse (entry : Entry) (s : Stream) : Option (Parse Tree) :=
  match entry with
  | .source => ((sourceFile maxNesting).run s).map (·.map .source)
  | .algorithm => ((algorithmRoot maxNesting).run s).map (·.map .algorithm)
  | .method => ((methodRoot maxNesting).run s).map (·.map .method)
  | .statements => ((statementRoot maxNesting).run s).map (·.map .statements)
  | .expression => ((expressionRoot maxNesting).run s).map (·.map .expression)
  | .initializer => ((initializerRoot maxNesting).run s).map (·.map .initializer)

end Checked

end StructuredText
