import StructuredText.Parser.State

/-!
# Going on after an error

After a syntax error a parse skips to a place where it can go on: behind the next `;`, or in front of a word that
begins or ends a block or a statement. A missing `;` is only reported, and nothing is skipped, where the next statement
clearly begins.
-/

namespace StructuredText

namespace TokenKind

/-- The tokens at which a statement list is over: the words that end or continue a block, and those that begin or end
a variable block or a unit. -/
def endsStatements : TokenKind → Bool
  | kwElsif | kwElse | kwEndIf | kwEndCase | kwEndFor | kwEndWhile | kwUntil | kwEndRepeat
  | kwEndVar | kwEndAlgorithm | kwEndMethod | kwAlgorithm | kwMethod
  | kwVar | kwVarTemp | kwVarInput | kwVarOutput | kwVarInOut => true
  | _ => false

/-- The tokens at which skipping stops. -/
def isSyncPoint (k : TokenKind) : Bool := k == semicolon || k.endsStatements

/-- The tokens that end a statement for the search of a case label. -/
def endsLabelSearch : TokenKind → Bool
  | semicolon | assign | kwThen | kwDo | kwOf | kwElse | kwElsif | kwEndIf | kwEndCase | kwEndFor | kwEndWhile
  | kwEndRepeat | kwEndAlgorithm | kwEndMethod => true
  | _ => false

/-- The tokens behind a name with which a statement goes on. -/
def followsTarget : TokenKind → Bool
  | assign | dot | lBracket | lParen | colonColon => true
  | _ => false

end TokenKind

namespace ParserState

/-- A colon comes before the end of the statement, outside of brackets. Closing brackets without an opening one count
for nothing, and a token ends the statement only outside of brackets. -/
def colonAhead : (parens brackets : Nat) → List Lexeme → Bool
  | _, _, [] => false
  | parens, brackets, t :: ts =>
    match t.kind with
    | .lParen => colonAhead (parens + 1) brackets ts
    | .rParen => colonAhead (parens - 1) brackets ts
    | .lBracket => colonAhead parens (brackets + 1) ts
    | .rBracket => colonAhead parens (brackets - 1) ts
    | kind =>
      if parens = 0 ∧ brackets = 0 ∧ kind = .colon then true
      else if parens = 0 ∧ brackets = 0 ∧ kind.endsLabelSearch then false
      else colonAhead parens brackets ts

/-- The first label of an arm of a `CASE` stands here. -/
def atCaseLabel (s : ParserState) : Bool := s.kind.canStartExpr && colonAhead 0 0 s.rest

/-- A statement clearly begins here: a word says so, or a name and what it goes on with. A bare name may be the rest of
a broken statement. -/
def atStatementStart (s : ParserState) : Bool :=
  s.kind.isStatementKeyword ||
    match s.kind with
    | .ident | .kwThis | .kwSuper => (s.kindAt 1).followsTarget
    | _ => false

/-- A missing `;` needs no skipping here. -/
def atSemicolonInsertion (s : ParserState) : Bool :=
  s.rest.isEmpty || s.kind.isSyncPoint || s.atStatementStart || s.atCaseLabel

end ParserState

namespace Parser

/-- Skips to the first token of which `stops` holds, and takes it with the rest if it is a `;`. -/
def skipTo (stops : TokenKind → Bool) : Parser PUnit := do
  skipWhile fun s => s.kind != .semicolon && !stops s.kind
  if ← sees .semicolon then skip else pure ()

/-- Skips the rest of a broken statement. -/
def skipStatement : Parser PUnit := skipTo fun k => k.isSyncPoint || k.isStatementKeyword

/-- Takes the `;` of a statement. A missing one is reported, and where no statement clearly begins, the rest of this one
is skipped. -/
def expectSemicolon : Parser PUnit := do
  if ← sees .semicolon then skip
  else
    missing TokenKind.semicolon.spelling
    if (← get).atSemicolonInsertion then pure () else skipStatement

/-- Takes all tokens to come and reports them together, if there are any. -/
def expectEndOfInput : Parser PUnit := do
  let s ← get
  match s.rest with
  | [] => pure ()
  | _ :: _ =>
    skipWhile fun _ => true
    reportAt (← spanFrom s.span.start) (.unexpected "end of input" s.text)

/-- Runs the turn of a loop over parts that may be broken: after a syntax error, `skipRest` passes over the rest of the
part, and at least one token is taken. -/
def recovering (part : Parser α) (skipRest : Parser PUnit) : Parser (Turn α) := do
  let before := (← get).rest
  orRecover (return .more [← part]) do
    skipRest
    if (← get).rest.length = before.length then skip else pure ()
    return .more []

end Parser

end StructuredText
