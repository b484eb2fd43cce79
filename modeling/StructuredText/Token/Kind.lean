import StructuredText.Token.Elementary

/-!
# Kinds of tokens

Tokens fall into trivia (kept in a token list but passed over by the parser), symbols, reserved words, elementary
types, literals and names. A reserved word is recognised by its spelling (`TokenKind.ofWord?`), and every reserved word
is found under its own spelling (`ofWord?_spelling`).
-/

namespace StructuredText

/-- What a token is. -/
inductive TokenKind where
  -- Trivia
  | whitespace | lineComment | blockComment | pragma
  -- Symbols
  | semicolon | colon | colonColon | comma | dot | dotDot
  | lParen | rParen | lBracket | rBracket | hash
  | assign | arrow | eq | neq | lt | ltEq | gt | gtEq
  | plus | minus | star | slash | power | ampersand
  | access (width : AccessWidth)
  -- Units and declarations
  | kwAlgorithm | kwEndAlgorithm | kwMethod | kwEndMethod
  | kwVar | kwVarTemp | kwVarInput | kwVarOutput | kwVarInOut | kwEndVar
  | kwConstant | kwAt | kwArray | kwOf | kwRefTo
  -- Statements
  | kwIf | kwThen | kwElsif | kwElse | kwEndIf
  | kwCase | kwEndCase
  | kwFor | kwTo | kwBy | kwDo | kwEndFor
  | kwWhile | kwEndWhile
  | kwRepeat | kwUntil | kwEndRepeat
  | kwReturn | kwExit | kwContinue
  -- Operators and values
  | kwAnd | kwOr | kwXor | kwNot | kwMod
  | kwThis | kwSuper | kwTrue | kwFalse
  | type (type : ElementaryType)
  -- Literals and names
  | intLiteral | nonDecimalLiteral | realLiteral
  | timeLiteral | dateLiteral | timeOfDayLiteral | dateAndTimeLiteral
  | stringLiteral | wideStringLiteral
  | typedLiteralPrefix
  | ident
  -- Text that is no token, and the end of a token list
  | error | eof
deriving DecidableEq, Inhabited

namespace TokenKind

/-! ## Spellings -/

/-- The reserved words other than the elementary types. -/
def words : List TokenKind :=
  [kwAlgorithm, kwEndAlgorithm, kwMethod, kwEndMethod,
   kwVar, kwVarTemp, kwVarInput, kwVarOutput, kwVarInOut, kwEndVar, kwConstant, kwAt, kwArray, kwOf, kwRefTo,
   kwIf, kwThen, kwElsif, kwElse, kwEndIf, kwCase, kwEndCase, kwFor, kwTo, kwBy, kwDo, kwEndFor,
   kwWhile, kwEndWhile, kwRepeat, kwUntil, kwEndRepeat, kwReturn, kwExit, kwContinue,
   kwAnd, kwOr, kwXor, kwNot, kwMod, kwThis, kwSuper, kwTrue, kwFalse]

/-- How a symbol, a reserved word or an elementary type is written; empty for the kinds with more than one text. -/
def spelling : TokenKind → String
  | semicolon => ";" | colon => ":" | colonColon => "::" | comma => "," | dot => "." | dotDot => ".."
  | lParen => "(" | rParen => ")" | lBracket => "[" | rBracket => "]" | hash => "#"
  | assign => ":=" | arrow => "=>" | eq => "=" | neq => "<>" | lt => "<" | ltEq => "<=" | gt => ">" | gtEq => ">="
  | plus => "+" | minus => "-" | star => "*" | slash => "/" | power => "**" | ampersand => "&"
  | access width => width.spelling
  | kwAlgorithm => "ALGORITHM" | kwEndAlgorithm => "END_ALGORITHM"
  | kwMethod => "METHOD" | kwEndMethod => "END_METHOD"
  | kwVar => "VAR" | kwVarTemp => "VAR_TEMP" | kwVarInput => "VAR_INPUT" | kwVarOutput => "VAR_OUTPUT"
  | kwVarInOut => "VAR_IN_OUT" | kwEndVar => "END_VAR"
  | kwConstant => "CONSTANT" | kwAt => "AT" | kwArray => "ARRAY" | kwOf => "OF" | kwRefTo => "REF_TO"
  | kwIf => "IF" | kwThen => "THEN" | kwElsif => "ELSIF" | kwElse => "ELSE" | kwEndIf => "END_IF"
  | kwCase => "CASE" | kwEndCase => "END_CASE"
  | kwFor => "FOR" | kwTo => "TO" | kwBy => "BY" | kwDo => "DO" | kwEndFor => "END_FOR"
  | kwWhile => "WHILE" | kwEndWhile => "END_WHILE"
  | kwRepeat => "REPEAT" | kwUntil => "UNTIL" | kwEndRepeat => "END_REPEAT"
  | kwReturn => "RETURN" | kwExit => "EXIT" | kwContinue => "CONTINUE"
  | kwAnd => "AND" | kwOr => "OR" | kwXor => "XOR" | kwNot => "NOT" | kwMod => "MOD"
  | kwThis => "THIS" | kwSuper => "SUPER" | kwTrue => "TRUE" | kwFalse => "FALSE"
  | type t => t.spelling
  | _ => ""

/-- The reserved word or elementary type with this spelling, in upper case. -/
def ofWord? (s : String) : Option TokenKind :=
  (words.find? (·.spelling == s)).or ((ElementaryType.ofSpelling? s).map type)

/-- Every reserved word is found under its own spelling. -/
theorem ofWord?_spelling : ∀ k ∈ words, ofWord? k.spelling = some k := by decide

/-- Every elementary type is found under its canonical spelling. -/
theorem ofWord?_type (t : ElementaryType) : ofWord? t.spelling = some (type t) := by cases t <;> decide

/-! ## Classes -/

/-- Whitespace, comments and pragmas. -/
def isTrivia : TokenKind → Bool
  | whitespace | lineComment | blockComment | pragma => true
  | _ => false

/-- The words that open a variable block. -/
def isVarKeyword : TokenKind → Bool
  | kwVar | kwVarInput | kwVarOutput | kwVarInOut | kwVarTemp => true
  | _ => false

/-- The literals made of a single token. -/
def isLiteral : TokenKind → Bool
  | intLiteral | nonDecimalLiteral | realLiteral | stringLiteral | wideStringLiteral
  | timeLiteral | dateLiteral | timeOfDayLiteral | dateAndTimeLiteral | kwTrue | kwFalse => true
  | _ => false

/-- The tokens an expression begins with. -/
def canStartExpr (k : TokenKind) : Bool :=
  k.isLiteral || match k with
    | ident | typedLiteralPrefix | kwNot | lParen | minus | plus | kwThis | kwSuper => true
    | _ => false

/-- The words that begin a statement and stand in no expression. -/
def isStatementKeyword : TokenKind → Bool
  | kwIf | kwCase | kwFor | kwWhile | kwRepeat | kwReturn | kwExit | kwContinue => true
  | _ => false

/-! ## Names in listings -/

/-- The name of the kind in listings. -/
def label : TokenKind → String
  | whitespace => "Whitespace" | lineComment => "LineComment" | blockComment => "BlockComment" | pragma => "Pragma"
  | semicolon => "Semicolon" | colon => "Colon" | colonColon => "ColonColon" | comma => "Comma"
  | dot => "Dot" | dotDot => "DotDot"
  | lParen => "LParen" | rParen => "RParen" | lBracket => "LBracket" | rBracket => "RBracket" | hash => "Hash"
  | assign => "Assign" | arrow => "Arrow" | eq => "Eq" | neq => "Neq" | lt => "Lt" | ltEq => "LtEq"
  | gt => "Gt" | gtEq => "GtEq"
  | plus => "Plus" | minus => "Minus" | star => "Star" | slash => "Slash" | power => "Power"
  | ampersand => "Ampersand"
  | access width => "Partial" ++ width.label
  | kwAlgorithm => "KwAlgorithm" | kwEndAlgorithm => "KwEndAlgorithm"
  | kwMethod => "KwMethod" | kwEndMethod => "KwEndMethod"
  | kwVar => "KwVar" | kwVarTemp => "KwVarTemp" | kwVarInput => "KwVarInput" | kwVarOutput => "KwVarOutput"
  | kwVarInOut => "KwVarInOut" | kwEndVar => "KwEndVar"
  | kwConstant => "KwConstant" | kwAt => "KwAt" | kwArray => "KwArray" | kwOf => "KwOf" | kwRefTo => "KwRefTo"
  | kwIf => "KwIf" | kwThen => "KwThen" | kwElsif => "KwElsif" | kwElse => "KwElse" | kwEndIf => "KwEndIf"
  | kwCase => "KwCase" | kwEndCase => "KwEndCase"
  | kwFor => "KwFor" | kwTo => "KwTo" | kwBy => "KwBy" | kwDo => "KwDo" | kwEndFor => "KwEndFor"
  | kwWhile => "KwWhile" | kwEndWhile => "KwEndWhile"
  | kwRepeat => "KwRepeat" | kwUntil => "KwUntil" | kwEndRepeat => "KwEndRepeat"
  | kwReturn => "KwReturn" | kwExit => "KwExit" | kwContinue => "KwContinue"
  | kwAnd => "KwAnd" | kwOr => "KwOr" | kwXor => "KwXor" | kwNot => "KwNot" | kwMod => "KwMod"
  | kwThis => "KwThis" | kwSuper => "KwSuper" | kwTrue => "KwTrue" | kwFalse => "KwFalse"
  | type t => "Kw" ++ t.label
  | intLiteral => "IntLiteral" | nonDecimalLiteral => "NonDecimalLiteral" | realLiteral => "RealLiteral"
  | timeLiteral => "TimeLiteral" | dateLiteral => "DateLiteral"
  | timeOfDayLiteral => "TimeOfDayLiteral" | dateAndTimeLiteral => "DateAndTimeLiteral"
  | stringLiteral => "StringLiteral" | wideStringLiteral => "WideStringLiteral"
  | typedLiteralPrefix => "TypedLiteralPrefix" | ident => "Ident"
  | error => "Error" | eof => "Eof"

/-- Every kind. -/
def all : List TokenKind :=
  [whitespace, lineComment, blockComment, pragma,
   semicolon, colon, colonColon, comma, dot, dotDot, lParen, rParen, lBracket, rBracket, hash,
   assign, arrow, eq, neq, lt, ltEq, gt, gtEq, plus, minus, star, slash, power, ampersand] ++
  AccessWidth.all.map access ++ words ++ ElementaryType.all.map type ++
  [intLiteral, nonDecimalLiteral, realLiteral, timeLiteral, dateLiteral, timeOfDayLiteral, dateAndTimeLiteral,
   stringLiteral, wideStringLiteral, typedLiteralPrefix, ident, error, eof]

/-- The kind with this name in listings. -/
def ofLabel? (s : String) : Option TokenKind := all.find? (·.label == s)

end TokenKind

end StructuredText
