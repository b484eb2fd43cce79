import StructuredText.Parser.State

/-!
# Reading literals

Most literals are one token. Behind a type name with its `#` stands an optional sign and such a token, and a time of
day may also be written as five tokens that touch each other (`12:30:00`).
-/

namespace StructuredText

/-- The form of a literal made of one token. -/
def LiteralKind.ofToken? : TokenKind → Option LiteralKind
  | .kwTrue | .kwFalse => some bool
  | .intLiteral => some integer
  | .nonDecimalLiteral => some nonDecimal
  | .realLiteral => some real
  | .stringLiteral => some string
  | .wideStringLiteral => some wideString
  | .timeLiteral => some duration
  | .dateLiteral => some date
  | .timeOfDayLiteral => some timeOfDay
  | .dateAndTimeLiteral => some dateAndTime
  | _ => none

/-- The text without digit separators. -/
def withoutSeparators (text : String) : String := String.ofList (text.toList.filter (· != '_'))

/-- The text without the `#` at its end. -/
def withoutHash (text : String) : String := String.ofList (text.toList.reverse.dropWhile (· == '#')).reverse

namespace Literal

/-- A literal with its type name in front of the first `#`, if there is one. -/
def splitAtHash (kind : LiteralKind) (token : Name) : Literal :=
  let typeName := token.text.toList.takeWhile (· != '#')
  match token.text.toList.dropWhile (· != '#') with
  | _ :: value =>
    let span := ⟨token.span.start, token.span.start + Text.byteLength typeName⟩
    ⟨kind, some ⟨String.ofList typeName, span⟩, String.ofList value, token.span⟩
  | [] => ⟨kind, none, token.text, token.span⟩

/-- The literal that a token of this form stands for. -/
def ofToken (kind : LiteralKind) (token : Name) : Literal :=
  match kind with
  | .bool => ⟨kind, none, Text.upperString token.text, token.span⟩
  | .integer | .nonDecimal | .real => ⟨kind, none, withoutSeparators token.text, token.span⟩
  | .string => ⟨kind, none, String.ofList (Quote.single.read token.text.toList), token.span⟩
  | .wideString => ⟨kind, none, String.ofList (Quote.double.read token.text.toList), token.span⟩
  | .duration | .date | .timeOfDay | .dateAndTime => splitAtHash kind token

/-- The value in front of which a sign is put; a type name that the literal already has stays in front of it. -/
def signedValue (sign : String) (l : Literal) : String :=
  match l.typeName with
  | some name => sign ++ name.text ++ "#" ++ l.value
  | none => sign ++ l.value

end Literal

namespace ParserState

/-- The first tokens touch each other. -/
def touching : List Lexeme → Bool
  | t :: u :: ts => t.span.stop == u.span.start && touching (u :: ts)
  | _ => true

/-- The next five tokens are a time of day. -/
def atTimeOfDay (s : ParserState) : Bool :=
  match s.rest with
  | h :: c :: m :: d :: x :: _ =>
    h.kind == .intLiteral && c.kind == .colon && m.kind == .intLiteral && d.kind == .colon &&
      (x.kind == .intLiteral || x.kind == .realLiteral) && touching [h, c, m, d, x]
  | _ => false

/-- The next token is a type name that announces a literal. -/
def atLiteralType (s : ParserState) : Bool :=
  s.kind == .typedLiteralPrefix && (LiteralType.ofName? (withoutHash s.text)).isSome

end ParserState

namespace Parser

/-- A literal of one token. -/
def tokenLiteral (kind : LiteralKind) : Parser Literal := return .ofToken kind (← take)

/-- A time of day of five tokens. -/
def timeOfDay : Parser Literal := do
  let hours ← take
  let colon ← take
  let minutes ← take
  let colon' ← take
  let seconds ← take
  let value := hours.text ++ colon.text ++ minutes.text ++ colon'.text ++ seconds.text
  return ⟨.timeOfDay, none, value, ← spanFrom hours.span.start⟩

/-- An optional sign. -/
def sign : Parser (Option String) := do
  match ← kind with
  | .minus | .plus => return some (← take).text
  | _ => return none

/-- A literal behind a type name. A value that the type does not accept is reported and kept. -/
def typedLiteral : Parser Literal := do
  let token ← take
  let typeName := withoutHash token.text
  let sign ← sign
  match LiteralKind.ofToken? (← kind) with
  | none => fail "literal value"
  | some kind =>
    let value ← tokenLiteral kind
    let span := token.span.cover value.span
    match LiteralFault.of? typeName kind sign.isSome with
    | some fault => reportAt span (.malformedLiteral (span.textIn (← get).source) fault)
    | none => pure ()
    let nameSpan := ⟨token.span.start, token.span.start + Text.byteLength typeName.toList⟩
    return ⟨kind, some ⟨typeName, nameSpan⟩, value.signedValue (sign.getD ""), span⟩

/-- A literal. -/
def literal : Parser Literal := do
  let s ← get
  match s.kind with
  | .typedLiteralPrefix => typedLiteral
  | kind =>
    if s.atTimeOfDay then timeOfDay
    else
      match LiteralKind.ofToken? kind with
      | some kind => tokenLiteral kind
      | none => fail "literal"

end Parser

end StructuredText
