import StructuredText.Parser.Expr
import StructuredText.Parser.Recovery
import StructuredText.Tree.Decl

/-!
# Reading declarations

A variable block goes on to its `END_VAR`. Where that is missing, the block ends in front of a word that begins
something else or of a statement. A broken declaration is reported and skipped.
-/

namespace StructuredText

/-- The units that a variable block can belong to. -/
inductive UnitKind where
  | algorithm | method
deriving DecidableEq

namespace TokenKind

/-- The elementary type that a word names. -/
def elementaryType? : TokenKind → Option ElementaryType
  | type t => some t
  | _ => none

/-- The tokens at which a variable block without `END_VAR` is over. -/
def endsBlock (k : TokenKind) : Bool :=
  k.isVarKeyword || k.isStatementKeyword || match k with
    | kwEndAlgorithm | kwEndMethod | kwAlgorithm | kwMethod => true
    | _ => false

end TokenKind

namespace ParserState

/-- A declaration begins here: a name, and `:` or `AT` behind it. -/
def atDeclStart (s : ParserState) : Bool :=
  s.kind == .ident && (s.kindAt 1 == .colon || s.kindAt 1 == .kwAt)

/-- The declaration is over here, but for its `;`. -/
def atDeclEnd (s : ParserState) : Bool :=
  s.atDeclStart || s.atStatementStart || s.kind == .kwEndVar || s.kind.endsBlock || s.rest.isEmpty

end ParserState

namespace Parser

/-! ## Types -/

/-- A type, over the rule for types one level deeper. -/
def typeRefOf (deeper : Option (Parser TypeRef)) : Parser TypeRef := do
  match ← kind with
  | .type type => return .elementary type (← take).span
  | .kwRefTo =>
    let start ← offset
    skip
    let target ← nested "type" deeper id
    return .reference target (← spanFrom start)
  | .ident => return .named (← qualifiedName "type name")
  | _ => fail "type name"

/-- A type of at most `levels` references. -/
def typeRef : (levels : Nat) → Parser TypeRef
  | 0 => typeRefOf none
  | levels + 1 => typeRefOf (some (typeRef levels))

/-! ## Initial values -/

/-- Initial values and the closing bracket behind them. -/
def listUpTo (close : TokenKind) (item : Parser α) : Parser (List α) := do
  let items ← sepByComma item
  expect close
  return items

/-- An element of an array: a value, or a count and the values to repeat. -/
def arrayElement (initializer : Parser Initializer) : Parser ArrayElement := do
  let s ← get
  if s.kind = .intLiteral ∧ s.kindAt 1 = .lParen then
    let start := s.span.start
    let count ← literal
    skip
    if ← eat .rParen then return .repeated count [] (← spanFrom start)
    else
      let values ← listUpTo .rParen initializer
      return .repeated count values (← spanFrom start)
  else return .single (← initializer)

/-- `[a, b, 3(c)]` -/
def arrayInitializer (initializer : Parser Initializer) : Parser Initializer := do
  let start ← offset
  skip
  let elements ← listUpTo .rBracket (arrayElement initializer)
  return .array elements (← spanFrom start)

/-- `field := value` -/
def fieldInit (initializer : Parser Initializer) : Parser FieldInit := do
  let start ← offset
  let field ← ident "field name"
  expect .assign
  let value ← initializer
  return .mk field value (← spanFrom start)

/-- `(field := value, …)` -/
def recordInitializer (initializer : Parser Initializer) : Parser Initializer := do
  let start ← offset
  skip
  let fields ← listUpTo .rParen (fieldInit initializer)
  return .record fields (← spanFrom start)

/-- An initial value, over the rule for expressions and the rule for initial values one level deeper. -/
def initializerOf (expr : Parser Expr) (deeper : Option (Parser Initializer)) : Parser Initializer := do
  let s ← get
  match s.kind, s.kindAt 1, s.kindAt 2 with
  | .lBracket, _, _ => nested "initializer" deeper arrayInitializer
  | .lParen, .ident, .assign => nested "initializer" deeper recordInitializer
  | _, _, _ => return .value (← expr)

/-- An initial value with at most `levels` constructs inside each other. -/
def initializer : (levels : Nat) → Parser Initializer
  | 0 => initializerOf (expr 0) none
  | levels + 1 => initializerOf (expr (levels + 1)) (some (initializer levels))

/-! ## Variables -/

/-- `lower..upper` -/
def arrayBounds (levels : Nat) : Parser ArrayBounds := do
  let start ← offset
  let lower ← bound levels
  expect .dotDot
  let upper ← bound levels
  return ⟨lower, upper, ← spanFrom start⟩

/-- The dimensions of an array in brackets, behind the opening one. -/
def arrayDimensions (levels : Nat) : Parser ArrayShape := do
  if ← sees .star then
    let stars ← sepByComma (expect .star)
    return .unbounded stars.length
  else return .bounded (← sepByComma (arrayBounds levels))

/-- `ARRAY [..] OF`, if it stands here. -/
def arrayShape? (levels : Nat) : Parser (Option ArrayShape) := do
  if ← eat .kwArray then
    expect .lBracket
    let shape ← arrayDimensions levels
    expect .rBracket
    expect .kwOf
    return some shape
  else return none

/-- `AT location`, if it stands here. -/
def location? : Parser (Option Name) := do
  if ← eat .kwAt then return some (← qualifiedName "location") else return none

/-- `[length]`, if it stands here. -/
def maxLength? (levels : Nat) : Parser (Option Expr) := do
  if ← eat .lBracket then
    let length ← expr levels
    expect .rBracket
    return some length
  else return none

/-- `:= value`, if it stands here. -/
def initial? (levels : Nat) : Parser (Option Initializer) := do
  if ← eat .assign then return some (← initializer levels) else return none

/-- Takes the `;` of a declaration. A missing one is reported only where the declaration is clearly over. -/
def expectDeclEnd : Parser PUnit := do
  if ← sees .semicolon then skip
  else if (← get).atDeclEnd then missing TokenKind.semicolon.spelling
  else fail TokenKind.semicolon.spelling

/-- `name [AT location] : [ARRAY [..] OF] type [[length]] [:= value];` -/
def varDecl (levels : Nat) : Parser VarDecl := do
  let start ← offset
  let name ← ident "variable name"
  let location ← location?
  expect .colon
  let shape ← arrayShape? levels
  let type ← typeRef levels
  let maxLength ← maxLength? levels
  let initial ← initial? levels
  expectDeclEnd
  return ⟨name, location, shape, type, maxLength, initial, ← spanFrom start⟩

/-- Skips the rest of a broken declaration. -/
def skipDecl : Parser PUnit := skipTo fun k => k == .kwEndVar || k.endsBlock

/-! ## Blocks -/

/-- One more declaration, unless the block is over. -/
def varDeclTurn (levels : Nat) : Parser (Turn VarDecl) := do
  let s ← get
  match s.rest with
  | [] => fail TokenKind.kwEndVar.spelling
  | _ :: _ =>
    if s.kind = .kwEndVar then
      skip
      return .last []
    else if s.kind = .ident then
      if s.atStatementStart then
        missing TokenKind.kwEndVar.spelling
        return .last []
      else orRecover (return .more [← varDecl levels]) (do skipDecl; return .more [])
    else if s.kind.endsBlock then
      missing TokenKind.kwEndVar.spelling
      return .last []
    else
      missing "variable name"
      skipDecl
      return .more []

/-- The kind of block that a word opens. A bare `VAR` is reported and taken for `VAR_TEMP`. -/
def blockKind (span : Span) : TokenKind → Parser BlockKind
  | .kwVarInput => return .input
  | .kwVarOutput => return .output
  | .kwVarInOut => return .inOut
  | .kwVarTemp => return .temp
  | _ => do
    reportAt span .plainBlock
    return .temp

/-- `VAR_… [CONSTANT] … END_VAR` in a unit. An algorithm has only `VAR_TEMP` blocks; others are reported and kept. -/
def varBlock (levels : Nat) (unit : UnitKind) : Parser VarBlock := do
  let s ← get
  skip
  let kind ← blockKind s.span s.kind
  if unit = .algorithm ∧ kind ≠ .temp then reportAt s.span (.blockInAlgorithm kind) else pure ()
  let isConstant ← eat .kwConstant
  let decls ← collect (varDeclTurn levels)
  return ⟨kind, isConstant, decls, ← spanFrom s.span.start⟩

end Parser

end StructuredText
