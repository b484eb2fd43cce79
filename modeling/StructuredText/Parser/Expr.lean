import StructuredText.Parser.Literal

/-!
# Reading expressions

An expression is made of nine tiers of binary operators over unary ones, and of suffixes on a primary below these. The
rules are written over the rule for unary expressions one level deeper (`deeper`), which is missing on the deepest
level; `Parser.unary` ties the knot for a given number of levels.
-/

namespace StructuredText

/-- The operator of the tier that a token writes. Every tier has a table of its own. -/
def BinaryTier.op? : BinaryTier → TokenKind → Option BinaryOp
  | subrange => fun
    | .dotDot => some .range
    | _ => none
  | or => fun
    | .kwOr => some .or
    | _ => none
  | xor => fun
    | .kwXor => some .xor
    | _ => none
  | and => fun
    | .kwAnd | .ampersand => some .and
    | _ => none
  | equality => fun
    | .eq => some .eq
    | .neq => some .neq
    | _ => none
  | comparison => fun
    | .lt => some .lt
    | .ltEq => some .ltEq
    | .gt => some .gt
    | .gtEq => some .gtEq
    | _ => none
  | addSub => fun
    | .plus => some .add
    | .minus => some .sub
    | _ => none
  | mulDivMod => fun
    | .star => some .mul
    | .slash => some .div
    | .kwMod => some .mod
    | _ => none
  | power => fun
    | .power => some .power
    | _ => none

/-- The unary operator that a token writes. -/
def UnaryOp.ofToken? : TokenKind → Option UnaryOp
  | .minus => some neg
  | .plus => some plus
  | .kwNot => some not
  | _ => none

/-- The number that a token selects a part with. -/
def Selector.ofToken (token : Name) : Selector := ⟨withoutSeparators token.text, token.span⟩

namespace Parser

/-! ## Names -/

/-- One name. -/
def ident (what : String) : Parser Name := do
  if ← sees .ident then take else fail what

/-- A name of one or more parts, such as `pkg::Name`. -/
def qualifiedName (what : String) : Parser Name := do
  fold (fun name => do
    if ← eat .colonColon then
      let part ← ident "name"
      return some ⟨name.text ++ "::" ++ part.text, name.span.cover part.span⟩
    else return none) (← ident what)

/-! ## Binary operators -/

/-- Operands and the operators of one tier between them, grouped from the left. -/
def binaryTier (tier : BinaryTier) (operand : Parser Expr) : Parser Expr := do
  fold (fun left => do
    match tier.op? (← kind) with
    | some op =>
      skip
      let right ← operand
      return some (.binary op left right (left.span.cover right.span))
    | none => return none) (← operand)

/-- An expression without `..` outside of brackets, over the rule for unary expressions. -/
def boundOf (unary : Parser Expr) : Parser Expr :=
  binaryTier .or <| binaryTier .xor <| binaryTier .and <| binaryTier .equality <| binaryTier .comparison <|
    binaryTier .addSub <| binaryTier .mulDivMod <| binaryTier .power unary

/-- An expression, over the rule for unary expressions. -/
def exprOf (unary : Parser Expr) : Parser Expr := binaryTier .subrange (boundOf unary)

/-! ## Brackets -/

/-- An expression in parentheses. -/
def parenthesized (unary : Parser Expr) : Parser Expr := do
  skip
  let inner ← exprOf unary
  expect .rParen
  return inner

/-- Indices in brackets. -/
def indices (unary : Parser Expr) : Parser (List Expr) := do
  skip
  let indices ← sepByComma (exprOf unary)
  expect .rBracket
  return indices

/-- An argument: a value, a parameter with its value, or a parameter with what takes its result. -/
def arg (unary : Parser Expr) : Parser Arg := do
  let s ← get
  let start := s.span.start
  match s.kind, s.kindAt 1, s.kindAt 2 with
  | .kwNot, .ident, .arrow =>
    skip
    output start true
  | .ident, .arrow, _ => output start false
  | .ident, .assign, _ =>
    let param ← take
    skip
    let value ← exprOf unary
    return .input param value (← spanFrom start)
  | _, _, _ => return .positional (← exprOf unary)
where
  output (start : Nat) (negated : Bool) : Parser Arg := do
    let param ← take
    skip
    let value ← exprOf unary
    return .output param negated value (← spanFrom start)

/-- Arguments in parentheses. -/
def args (unary : Parser Expr) : Parser (List Arg) := do
  skip
  if ← eat .rParen then return []
  else
    let args ← sepByComma (arg unary)
    expect .rParen
    return args

/-! ## Primaries and suffixes -/

section

variable (deeper : Option (Parser Expr))

/-- A primary: a name, a literal, `THIS`, `SUPER` or an expression in parentheses. A type name that announces no
literal makes one name with the name behind it. -/
def primary : Parser Expr := do
  let s ← get
  let start := s.span.start
  match s.kind with
  | .lParen =>
    nested "expression" deeper fun unary => do
      let inner ← parenthesized unary
      return .paren inner (← spanFrom start)
  | .ident => return .name (← qualifiedName "name")
  | .kwThis => return .this (← take).span
  | .kwSuper => return .super (← take).span
  | .typedLiteralPrefix =>
    if s.kindAt 1 = .ident ∧ !s.atLiteralType then
      let type ← take
      let value ← take
      return .name ⟨type.text ++ value.text, type.span.cover value.span⟩
    else return .literal (← literal)
  | kind => if kind.isLiteral then return .literal (← literal) else fail "expression"

/-- What follows the point behind a receiver: a member, or a part of a bit string. -/
def selection (receiver : Expr) (start : Nat) : Parser Expr := do
  match ← kind with
  | .ident =>
    let name ← take
    return .member receiver name (← spanFrom start)
  | .intLiteral =>
    let selector ← take
    return .part receiver none (.ofToken selector) (← spanFrom start)
  | .access width =>
    skip
    match ← kind with
    | .intLiteral =>
      let selector ← take
      return .part receiver (some width) (.ofToken selector) (← spanFrom start)
    | .lParen =>
      let index ← nested "expression" deeper parenthesized
      return .partAt receiver width index (← spanFrom start)
    | _ => fail "partial access index"
  | _ => fail "member name"

/-- One more suffix, if there is one. -/
def suffix? (start : Nat) (receiver : Expr) : Parser (Option Expr) := do
  match ← kind with
  | .dot =>
    skip
    return some (← selection deeper receiver start)
  | .lBracket =>
    let indices ← nested "expression" deeper indices
    return some (.index receiver indices (← spanFrom start))
  | .lParen =>
    if receiver.isCallable then
      let args ← nested "expression" deeper args
      return some (.call receiver args (← spanFrom start))
    else return none
  | _ => return none

/-- A primary and its suffixes. -/
def accessOf : Parser Expr := do
  let start ← offset
  fold (suffix? deeper start) (← primary deeper)

/-- A unary operator and its operand, or a primary and its suffixes. -/
def unaryOf : Parser Expr := do
  match UnaryOp.ofToken? (← kind) with
  | some op =>
    let start ← offset
    skip
    let operand ← nested "expression" deeper id
    return .unary op operand (← spanFrom start)
  | none => accessOf deeper

end

/-! ## All levels -/

/-- A unary expression with at most `levels` constructs inside each other. -/
def unary : (levels : Nat) → Parser Expr
  | 0 => unaryOf none
  | levels + 1 => unaryOf (some (unary levels))

/-- The rule for unary expressions one level deeper. -/
def deeperUnary : (levels : Nat) → Option (Parser Expr)
  | 0 => none
  | levels + 1 => some (unary levels)

/-- An expression. -/
def expr (levels : Nat) : Parser Expr := exprOf (unary levels)

/-- An expression without `..` outside of brackets. -/
def bound (levels : Nat) : Parser Expr := boundOf (unary levels)

/-- A primary and its suffixes. -/
def access (levels : Nat) : Parser Expr := accessOf (deeperUnary levels)

end Parser

end StructuredText
