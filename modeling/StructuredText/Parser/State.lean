import StructuredText.Diagnostic
import StructuredText.Token.Lexeme

/-!
# The state of a parse

A parse looks at the significant tokens of a stream (trivia are passed over and an `eof` token ends the stream), takes
them one by one, and reports problems on the way. A rule of the grammar is a `Parser`: it yields a part of the tree or
gives up with an `Abort`, and in both cases it keeps the tokens taken and the problems reported.

A loop of the grammar makes at most one turn more than there are tokens to come (`Parser.foldWithin`,
`Parser.collectWithin`), since a turn that goes on takes at least one.
-/

namespace StructuredText

/-- The tokens to parse and the text they belong to. -/
structure Stream where
  tokens : List Token
  source : List Char

namespace Stream

/-- The tokens a parse looks at, with their texts: those before the first `eof`, without trivia. -/
def significant (s : Stream) : List Lexeme :=
  lexemes s.source ((s.tokens.takeWhile (·.kind ≠ .eof)).filter fun t => !t.kind.isTrivia)

/-- Where the stream ends: behind its last token that is not `eof`, trivia included, and with the text where there is
none. Offsets have 32 bits, so that a longer text ends with the last one of them. -/
def stop (s : Stream) : Nat :=
  match s.tokens.reverse.find? (·.kind ≠ .eof) with
  | some t => t.span.stop
  | none => min (Text.byteLength s.source) (UInt32.size - 1)

end Stream

/-- Why a rule gave up. The problem is reported by then. -/
inductive Abort where
  /-- Something else was expected. The parse can go on behind it. -/
  | syntaxError
  /-- The stream ended inside a construct. -/
  | endOfStream
  /-- Too many constructs stand inside each other. -/
  | tooDeep
deriving DecidableEq

/-- Where a parse stands. -/
structure ParserState where
  source : List Char
  /-- Where the stream ends. -/
  stop : Nat
  /-- The tokens to come. -/
  rest : List Lexeme
  /-- The end of the last token taken. -/
  lastStop : Nat
  /-- The problems reported, the latest first. -/
  reports : List Report

namespace ParserState

/-- The state at the beginning of a stream. -/
def start (s : Stream) : ParserState := ⟨s.source, s.stop, s.significant, 0, []⟩

/-- The kind of the next token but `n`, and `eof` behind the last one. -/
def kindAt (s : ParserState) (n : Nat) : TokenKind :=
  match s.rest[n]? with
  | some t => t.kind
  | none => .eof

/-- The kind of the next token. -/
def kind (s : ParserState) : TokenKind :=
  match s.rest with
  | t :: _ => t.kind
  | [] => .eof

/-- The span of the next token, and the empty one at the end of the stream. -/
def span (s : ParserState) : Span :=
  match s.rest with
  | t :: _ => t.span
  | [] => .empty (max s.stop s.lastStop)

/-- The text of the next token. -/
def text (s : ParserState) : String :=
  match s.rest with
  | t :: _ => t.text
  | [] => ""

/-- The span from an offset to the end of the last token taken. -/
def spanFrom (s : ParserState) (start : Nat) : Span := ⟨start, max s.lastStop start⟩

/-- The state with a problem reported. -/
def report (s : ParserState) (problem : Problem) (span : Span) : ParserState :=
  { s with reports := ⟨problem, span⟩ :: s.reports }

/-- The state behind the next token. -/
def advance (s : ParserState) : ParserState :=
  match s.rest with
  | t :: ts => { s with rest := ts, lastStop := t.span.stop }
  | [] => s

end ParserState

/-- A rule of the grammar. -/
abbrev Parser := EStateM Abort ParserState

namespace Parser

/-! ## Looking -/

/-- The kind of the next token. -/
def kind : Parser TokenKind := return (← get).kind

/-- The kind of the next token but `n`. -/
def kindAt (n : Nat) : Parser TokenKind := return (← get).kindAt n

/-- The next token is of this kind. -/
def sees (k : TokenKind) : Parser Bool := return (← get).kind == k

/-- No token is left. -/
def atEnd : Parser Bool := return (← get).rest.isEmpty

/-- Where the next token begins. -/
def offset : Parser Nat := return (← get).span.start

/-- The span from an offset to the end of the last token taken. -/
def spanFrom (start : Nat) : Parser Span := return (← get).spanFrom start

/-! ## Taking -/

/-- Takes the next token, if there is one. -/
def skip : Parser PUnit := modify ParserState.advance

/-- Takes the next token and gives its text and span. -/
def take : Parser Name := do
  let s ← get
  set s.advance
  return ⟨s.text, s.span⟩

/-- Takes the next token if it is of this kind. -/
def eat (k : TokenKind) : Parser Bool := do
  if ← sees k then
    skip
    return true
  else return false

/-! ## Reporting and giving up -/

/-- Reports a problem with the next token. -/
def report (problem : Problem) : Parser PUnit := modify fun s => s.report problem s.span

/-- Reports a problem with a part of the text. -/
def reportAt (span : Span) (problem : Problem) : Parser PUnit := modify (·.report problem span)

/-- Reports that something is missing, and goes on. -/
def missing (what : String) : Parser PUnit := report (.missing what)

/-- Gives up since something else stands here, or nothing at all. -/
def fail (what : String) : Parser α := do
  let s ← get
  match s.rest with
  | [] =>
    report (.ended what)
    throw .endOfStream
  | _ :: _ =>
    report (.unexpected what s.text)
    throw .syntaxError

/-- Takes a token of this kind or gives up. -/
def expect (k : TokenKind) : Parser PUnit := do
  if ← sees k then skip else fail k.spelling

/-- Takes the word that closes a block. A missing one is reported only, unless the stream ends here. -/
def expectEnd (k : TokenKind) : Parser PUnit := do
  if ← sees k then skip
  else if ← atEnd then fail k.spelling
  else missing k.spelling

/-- Runs a rule one level deeper, or gives up where there is no deeper level. -/
def nested (what : String) (deeper : Option α) (rule : α → Parser β) : Parser β :=
  match deeper with
  | some level => rule level
  | none => do
    report (.tooDeep what)
    throw .tooDeep

/-- Runs a rule; where it gives up for another reason than the end of the stream or the depth, `recover` takes over. -/
def orRecover (rule recover : Parser α) : Parser α := fun s =>
  match rule s with
  | .error .syntaxError s' => recover s'
  | result => result

/-! ## Loops -/

/-- Takes turns from `a` until one gives nothing. -/
def foldWithin (turn : α → Parser (Option α)) : List Lexeme → α → Parser α
  | [], a => return (← turn a).getD a
  | _ :: left, a => do
    match ← turn a with
    | some a => foldWithin turn left a
    | none => return a

/-- Takes turns from `a` until one gives nothing. A turn that gives something takes a token, so that the tokens to come
bound the turns. -/
def fold (turn : α → Parser (Option α)) (a : α) : Parser α := do
  foldWithin turn (← get).rest a

/-- What a turn of a loop gives. -/
inductive Turn (α : Type) where
  /-- Something, and the loop goes on. -/
  | more (items : List α)
  /-- Something, and the loop is over. -/
  | last (items : List α)

/-- The items of all turns up to the last one. -/
def collectWithin (turn : Parser (Turn α)) : List Lexeme → Parser (List α)
  | [] => do
    match ← turn with
    | .more items | .last items => return items
  | _ :: left => do
    match ← turn with
    | .more items => return items ++ (← collectWithin turn left)
    | .last items => return items

/-- The items of all turns up to the last one. A turn after which the loop goes on takes a token, so that the tokens to
come bound the turns. -/
def collect (turn : Parser (Turn α)) : Parser (List α) := do
  collectWithin turn (← get).rest

/-- One item, and as many more as there are commas. -/
def sepByComma (item : Parser α) : Parser (List α) := do
  let first ← item
  let more ← collect do
    if ← eat .comma then return .more [← item] else return .last []
  return first :: more

/-- Takes tokens while `p` holds of the state. -/
def skipWhile (p : ParserState → Bool) : Parser PUnit := modify fun s => go s.rest s
where
  go : List Lexeme → ParserState → ParserState
    | [], s => s
    | _ :: left, s => if p s then go left s.advance else s

end Parser

end StructuredText
