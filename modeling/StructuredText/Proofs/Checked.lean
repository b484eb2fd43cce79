import StructuredText.Parse

/-!
# Parsing with checks

Offsets have 32 bits, a span does not end before it starts, and a text is cut between characters only. A parse of any
tokens computes offsets, makes spans and cuts texts; here it refuses to go on where one of these would be wrong. What is
refused is never taken back: only the reasons to give up that the grammar knows are recovered from. The rules over these
steps are those of the grammar (`StructuredText.Proofs.Checked.Grammar`).
-/

namespace StructuredText

namespace Text

/-- A cut at byte `n` lies between two characters of the text, or at one of its ends. -/
def IsBoundary (cs : List Char) (n : Nat) : Prop := (splitAt? cs n).isSome

instance (cs : List Char) (n : Nat) : Decidable (IsBoundary cs n) := inferInstanceAs (Decidable (_ = true))

end Text

/-- Why a rule with checks stops. -/
inductive Halt where
  /-- The rule gives up. -/
  | abort (why : Abort)
  /-- An offset is too large, a span ends before it starts, or a cut lies inside a character or outside of the text. -/
  | refused

/-- A rule of the grammar that checks offsets, spans and cuts. -/
abbrev Checked := EStateM Halt ParserState

namespace Checked

/-! ## Checks -/

/-- Goes on where `c` holds. -/
def check (c : Prop) [Decidable c] : Checked PUnit := if c then pure ⟨⟩ else throw .refused

/-- The span between two offsets. -/
def range (start stop : Nat) : Checked Span := do
  check (start ≤ stop ∧ stop < UInt32.size)
  return ⟨start, stop⟩

/-- The empty span at an offset. -/
def empty (offset : Nat) : Checked Span := range offset offset

/-- The smallest span around both. -/
def cover (a b : Span) : Checked Span := range (min a.start b.start) (max a.stop b.stop)

/-- The span as long as a text. Its length is an offset of its own. -/
def rangeAt (start : Nat) (text : List Char) : Checked Span := do
  check (Text.byteLength text < UInt32.size)
  range start (start + Text.byteLength text)

/-- The text between two offsets. -/
def slice (text : List Char) (start stop : Nat) : Checked (List Char) :=
  match Text.slice? text start stop with
  | some inner => return inner
  | none => throw .refused

/-- The text between two offsets, if it can be cut out. -/
def cutOut (text : List Char) (start stop : Nat) : Checked (List Char) :=
  if start ≤ stop ∧ Text.IsBoundary text start ∧ Text.IsBoundary text stop then slice text start stop else return []

/-- The text that a span covers. -/
def textIn (span : Span) (source : List Char) : Checked String :=
  return String.ofList (← cutOut source span.start span.stop)

/-- The span of the next token, and the empty one at the end of the stream. -/
def spanOf (s : ParserState) : Checked Span :=
  match s.rest with
  | t :: _ => return t.span
  | [] => empty (max s.stop s.lastStop)

/-- The text of the next token. -/
def textOf (s : ParserState) : Checked String :=
  match s.rest with
  | t :: _ => textIn t.span s.source
  | [] => return ""

/-! ## Looking and taking -/

def kind : Checked TokenKind := return (← get).kind

def kindAt (n : Nat) : Checked TokenKind := return (← get).kindAt n

def sees (k : TokenKind) : Checked Bool := return (← get).kind == k

def atEnd : Checked Bool := return (← get).rest.isEmpty

def offset : Checked Nat := return (← spanOf (← get)).start

def spanFrom (start : Nat) : Checked Span := do range start (max (← get).lastStop start)

def skip : Checked PUnit := do
  let s ← get
  let _ ← spanOf s
  set s.advance

def take : Checked Name := do
  let s ← get
  let span ← spanOf s
  set s.advance
  return ⟨← textIn span s.source, span⟩

def eat (k : TokenKind) : Checked Bool := do
  if ← sees k then
    skip
    return true
  else return false

/-! ## Reporting and giving up -/

def reportAt (span : Span) (problem : Problem) : Checked PUnit := modify (·.report problem span)

def report (problem : Problem) : Checked PUnit := do reportAt (← spanOf (← get)) problem

def missing (what : String) : Checked PUnit := report (.missing what)

def fail (what : String) : Checked α := do
  let s ← get
  match s.rest with
  | [] =>
    report (.ended what)
    throw (.abort .endOfStream)
  | _ :: _ =>
    report (.unexpected what (← textOf s))
    throw (.abort .syntaxError)

def expect (k : TokenKind) : Checked PUnit := do
  if ← sees k then skip else fail k.spelling

def expectEnd (k : TokenKind) : Checked PUnit := do
  if ← sees k then skip
  else if ← atEnd then fail k.spelling
  else missing k.spelling

def nested (what : String) (deeper : Option α) (rule : α → Checked β) : Checked β :=
  match deeper with
  | some level => rule level
  | none => do
    report (.tooDeep what)
    throw (.abort .tooDeep)

def orRecover (rule recover : Checked α) : Checked α := fun s =>
  match rule s with
  | .error (.abort .syntaxError) s' => recover s'
  | result => result

/-! ## Loops -/

def foldWithin (turn : α → Checked (Option α)) : List Lexeme → α → Checked α
  | [], a => return (← turn a).getD a
  | _ :: left, a => do
    match ← turn a with
    | some a => foldWithin turn left a
    | none => return a

def fold (turn : α → Checked (Option α)) (a : α) : Checked α := do
  foldWithin turn (← get).rest a

def collectWithin (turn : Checked (Parser.Turn α)) : List Lexeme → Checked (List α)
  | [] => do
    match ← turn with
    | .more items | .last items => return items
  | _ :: left => do
    match ← turn with
    | .more items => return items ++ (← collectWithin turn left)
    | .last items => return items

def collect (turn : Checked (Parser.Turn α)) : Checked (List α) := do
  collectWithin turn (← get).rest

def sepByComma (item : Checked α) : Checked (List α) := do
  let first ← item
  let more ← collect do
    if ← eat .comma then return .more [← item] else return .last []
  return first :: more

/-- Skipping looks at tokens only and makes no span. -/
def skipWhile (p : ParserState → Bool) : Checked PUnit := modify fun s => Parser.skipWhile.go p s.rest s

/-! ## Going on after an error -/

def skipTo (stops : TokenKind → Bool) : Checked PUnit := do
  skipWhile fun s => s.kind != .semicolon && !stops s.kind
  if ← sees .semicolon then skip else pure ()

def skipStatement : Checked PUnit := skipTo fun k => k.isSyncPoint || k.isStatementKeyword

def expectSemicolon : Checked PUnit := do
  if ← sees .semicolon then skip
  else
    missing TokenKind.semicolon.spelling
    if (← get).atSemicolonInsertion then pure () else skipStatement

def expectEndOfInput : Checked PUnit := do
  let s ← get
  match s.rest with
  | [] => pure ()
  | _ :: _ =>
    let span ← spanOf s
    let found ← textOf s
    skipWhile fun _ => true
    reportAt (← spanFrom span.start) (.unexpected "end of input" found)

def recovering (part : Checked α) (skipRest : Checked PUnit) : Checked (Parser.Turn α) := do
  let before := (← get).rest
  orRecover (return .more [← part]) do
    skipRest
    if (← get).rest.length = before.length then skip else pure ()
    return .more []

end Checked

end StructuredText
