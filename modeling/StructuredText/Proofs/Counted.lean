import StructuredText.Parse
import Mathlib.Data.PFun

/-!
# Parsing with a cursor

A parse may as well be run on the tokens as they come, with trivia and `eof` tokens among them. It stands somewhere in
the list (the cursor), it counts the constructs that it is inside of (the depth), and its loops go on until a turn says
that they are over: nothing bounds them, so that a parse might not come back at all. What the steps do to the cursor and
the depth is noted, for every token that is taken, every turn of a loop that goes on, and both ends of every construct.
A problem that is reported is kept together with what was looked at then. The rules over these steps are those of the
grammar (`StructuredText.Proofs.Counted.Grammar`).
-/

namespace StructuredText

/-! ## What is noted -/

/-- What happens to the cursor and the depth. -/
inductive Event where
  /-- A token was taken, with the trivia in front of it. -/
  | taken (before after : Nat)
  /-- A turn of a loop led from one place to another, and the loop goes on. -/
  | turned (before after : Nat)
  /-- A construct was entered, and this is the depth inside of it. -/
  | entered (depth : Nat)
  /-- A construct was left, and these are the depths in front of it and behind it. -/
  | left (before after : Nat)

/-- The cursor does not go back, a loop goes on only further ahead, no construct is too deep, and each one is left on
the depth it was entered from. -/
def Event.Fine : Event → Prop
  | taken before after => before ≤ after
  | turned before after => before < after
  | entered depth => depth ≤ maxNesting
  | left before after => after = before

/-- A problem that was reported, and what the grammar looked at then. -/
structure Raised where
  state : ParserState
  report : Report

/-! ## The state -/

/-- Where a parse of raw tokens stands. -/
structure Machine where
  tokens : List Token
  source : List Char
  /-- The number of raw tokens that were passed. -/
  cursor : Nat
  /-- The end of the last token taken. -/
  lastStop : Nat
  /-- The number of constructs around this place. -/
  depth : Nat
  /-- The problems reported, the latest first. -/
  raised : List Raised
  /-- What happened, the latest first. -/
  log : List Event

namespace Machine

/-- The machine in front of a stream. -/
def start (s : Stream) : Machine := ⟨s.tokens, s.source, 0, 0, 0, [], []⟩

/-- The problems reported, the latest first, without what was looked at. -/
def reports (m : Machine) : List Report := m.raised.map Raised.report

/-- What a rule of the grammar looks at. -/
def view (m : Machine) : ParserState :=
  ⟨m.source, Stream.stop ⟨m.tokens, m.source⟩, Stream.significant ⟨m.tokens.drop m.cursor, m.source⟩, m.lastStop,
    m.reports⟩

def note (m : Machine) (e : Event) : Machine := { m with log := e :: m.log }

/-- Reports a problem, and keeps what is looked at here. -/
def report (m : Machine) (problem : Problem) (span : Span) : Machine :=
  { m with raised := ⟨m.view, problem, span⟩ :: m.raised }

/-- Passes trivia and the token behind them. An `eof` token is not passed. -/
def pass (m : Machine) : List Token → Machine
  | [] => m
  | t :: ts =>
    if t.kind = .eof then m
    else if t.kind.isTrivia then pass { m with cursor := m.cursor + 1 } ts
    else { m with cursor := m.cursor + 1, lastStop := t.span.stop }

/-- Takes the next token, if there is one. -/
def advance (m : Machine) : Machine :=
  let m' := m.pass (m.tokens.drop m.cursor)
  m'.note (.taken m.cursor m'.cursor)

/-- Goes into a construct. -/
def enter (m : Machine) : Machine := { m with depth := m.depth + 1 }.note (.entered (m.depth + 1))

/-- Goes out of a construct that was entered on this depth. -/
def leave (m : Machine) (before : Nat) : Machine := { m with depth := m.depth - 1 }.note (.left before (m.depth - 1))

end Machine

/-- A rule of the grammar on raw tokens. It keeps its state where it gives up, and there is no outcome where it does not
come back. -/
abbrev Counted := ExceptT Abort (StateT Machine Option)

namespace Counted

/-- Does not come back. -/
def diverge : Counted α := fun _ => none

/-! ## Looking and taking -/

def view : Counted ParserState := return (← get).view

def cursor : Counted Nat := return (← get).cursor

def kind : Counted TokenKind := return (← view).kind

def sees (k : TokenKind) : Counted Bool := return (← view).kind == k

def atEnd : Counted Bool := return (← view).rest.isEmpty

def offset : Counted Nat := return (← view).span.start

def spanFrom (start : Nat) : Counted Span := return (← view).spanFrom start

def skip : Counted PUnit := modify Machine.advance

def take : Counted Name := do
  let s ← view
  skip
  return ⟨s.text, s.span⟩

def eat (k : TokenKind) : Counted Bool := do
  if ← sees k then
    skip
    return true
  else return false

/-! ## Reporting and giving up -/

def reportAt (span : Span) (problem : Problem) : Counted PUnit := modify (·.report problem span)

def report (problem : Problem) : Counted PUnit := do reportAt (← view).span problem

def missing (what : String) : Counted PUnit := report (.missing what)

def fail (what : String) : Counted α := do
  let s ← view
  match s.rest with
  | [] =>
    report (.ended what)
    throw .endOfStream
  | _ :: _ =>
    report (.unexpected what s.text)
    throw .syntaxError

def expect (k : TokenKind) : Counted PUnit := do
  if ← sees k then skip else fail k.spelling

def expectEnd (k : TokenKind) : Counted PUnit := do
  if ← sees k then skip
  else if ← atEnd then fail k.spelling
  else missing k.spelling

def tooDeep (what : String) : Counted α := do
  report (.tooDeep what)
  throw .tooDeep

/-- Runs a rule inside of a construct, or gives up where there are too many around already. The construct is left also
where the rule gives up. -/
def nested (what : String) (rule : Counted α) : Counted α := fun m =>
  if m.depth < maxNesting then (rule m.enter).map fun (r, m') => (r, m'.leave m.depth)
  else tooDeep what m

def orRecover (rule recover : Counted α) : Counted α := fun m =>
  match rule m with
  | some (.error .syntaxError, m') => recover m'
  | result => result

/-! ## Loops -/

noncomputable section

/-- Goes from state to state until one tells what comes out. There is no outcome where none does. -/
def iterate (next : σ → Option (β ⊕ σ)) (s : σ) : Option β :=
  let next : σ →. β ⊕ σ := fun s => next s
  open Classical in (next.fix s).toOption

theorem mem_iterate {next : σ → Option (β ⊕ σ)} {s : σ} {b : β} :
    b ∈ iterate next s ↔ .inl b ∈ next s ∨ ∃ s', .inr s' ∈ next s ∧ b ∈ iterate next s' := by
  classical
  refine Part.mem_toOption.trans (PFun.mem_fix_iff.trans (or_congr Part.mem_coe ?_))
  exact exists_congr fun s' => and_congr Part.mem_coe Part.mem_toOption.symm

theorem iterate_eq (next : σ → Option (β ⊕ σ)) (s : σ) :
    iterate next s = (next s).bind (Sum.elim some (iterate next)) := by
  ext b
  rw [← Option.mem_def, mem_iterate]
  rcases next s with _ | b' | s' <;> simp [eq_comm]

/-- A turn from a place. It ends the loop, or it is noted and leads to the place where the loop goes on. -/
def turnFrom (turn : α → Counted (β ⊕ α)) : α × Machine → Option ((Except Abort β × Machine) ⊕ (α × Machine))
  | (a, m) => (turn a m).map fun
    | (.ok (.inl b), m') => .inl (.ok b, m')
    | (.ok (.inr a'), m') => .inr (a', m'.note (.turned m.cursor m'.cursor))
    | (.error e, m') => .inl (.error e, m')

/-- Takes turns until one ends the loop or gives up. -/
def loop (turn : α → Counted (β ⊕ α)) (a : α) : Counted β := fun m => iterate (turnFrom turn) (a, m)

def fold (turn : α → Counted (Option α)) : α → Counted α :=
  loop fun a => do
    match ← turn a with
    | some a' => return .inr a'
    | none => return .inl a

/-- Puts what the turns give behind what there is. -/
def collectFrom (turn : Counted (Parser.Turn α)) : List α → Counted (List α) :=
  loop fun items => do
    match ← turn with
    | .more more => return .inr (items ++ more)
    | .last more => return .inl (items ++ more)

def collect (turn : Counted (Parser.Turn α)) : Counted (List α) := collectFrom turn []

def sepByComma (item : Counted α) : Counted (List α) := do
  let first ← item
  let more ← collect do
    if ← eat .comma then return .more [← item] else return .last []
  return first :: more

def skipWhile (p : ParserState → Bool) : Counted PUnit :=
  loop (fun (_ : PUnit) => do
    let s ← view
    if !s.rest.isEmpty && p s then
      skip
      return .inr ⟨⟩
    else return .inl ⟨⟩) ⟨⟩

/-! ## Going on after an error -/

def skipTo (stops : TokenKind → Bool) : Counted PUnit := do
  skipWhile fun s => s.kind != .semicolon && !stops s.kind
  if ← sees .semicolon then skip else pure ()

def skipStatement : Counted PUnit := skipTo fun k => k.isSyncPoint || k.isStatementKeyword

def expectSemicolon : Counted PUnit := do
  if ← sees .semicolon then skip
  else
    missing TokenKind.semicolon.spelling
    if (← view).atSemicolonInsertion then pure () else skipStatement

def expectEndOfInput : Counted PUnit := do
  let s ← view
  match s.rest with
  | [] => pure ()
  | _ :: _ =>
    skipWhile fun _ => true
    reportAt (← spanFrom s.span.start) (.unexpected "end of input" s.text)

/-- Whether a broken part and what was skipped behind it took a token is told by the cursor. -/
def recovering (part : Counted α) (skipRest : Counted PUnit) : Counted (Parser.Turn α) := do
  let before ← cursor
  orRecover (return .more [← part]) do
    skipRest
    if (← cursor) = before then skip else pure ()
    return .more []

end

end Counted

end StructuredText
