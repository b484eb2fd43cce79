import StructuredText.Token.Scan

/-!
# Reading quoted strings

A quoted string ends with its quotation mark on the line it begins on. An escape that is none spoils the string: if
nothing but valid text stands before it, the error goes on to the quotation mark or to the end of the line, and after
an escaped quotation mark it ends in front of the `$`.
-/

namespace StructuredText

/-- What has been read of a quoted string. -/
inductive QuotedState where
  /-- Valid text without an escaped quotation mark. -/
  | clean
  /-- Valid text with an escaped quotation mark. -/
  | escapedMark
  /-- A `$` that begins no escape. -/
  | spoilt
deriving DecidableEq

namespace Quote

/-- The kind of a string in these quotes. -/
def kind : Quote → TokenKind
  | single => .stringLiteral
  | double => .wideStringLiteral

/-- The letters that make an escape with a `$`. -/
def escapeLetters : List Char := "$LlNnPpRrTt".toList

/-- How many characters behind a `$` make an escape with it. -/
def escapeLength? (q : Quote) : List Char → Option Nat
  | [] => none
  | c :: cs =>
    if c == q.mark || escapeLetters.contains c then some 1
    else if q.codeDigits ≤ ((c :: cs).takeWhile isHexDigit).length then some q.codeDigits
    else none

/-- The line ends at the front of the text. -/
def atLineEnd : List Char → Bool
  | [] => true
  | c :: _ => isLineEnd c

/-- Reads on in a quoted string, whose next `skip` characters belong to an escape. -/
def scanFrom (q : Quote) : QuotedState → Nat → List Char → Scan
  | _, _, [] => .stop .error []
  | state, skip + 1, c :: cs => (scanFrom q state skip cs).cons c
  | state, 0, c :: cs =>
    if isLineEnd c then .stop .error (c :: cs)
    else if c == q.mark then ⟨if state = .spoilt then .error else q.kind, [c], cs⟩
    else if c == '$' && state != .spoilt then
      match q.escapeLength? cs with
      | some length => (scanFrom q (if startsWith (· == q.mark) cs then .escapedMark else state) length cs).cons c
      | none =>
        if state = .clean ∧ !atLineEnd (cs.dropWhile isHexDigit) then (scanFrom q .spoilt 0 cs).cons c
        else .stop .error (c :: cs)
    else (scanFrom q state 0 cs).cons c

/-- Reads a quoted string behind its opening mark. -/
def scan (q : Quote) (cs : List Char) : Scan := q.scanFrom .clean 0 cs

theorem scanFrom_of (q : Quote) (state : QuotedState) (skip : Nat) (cs : List Char) :
    (q.scanFrom state skip cs).Of cs := by
  fun_induction scanFrom q state skip cs with
  | case1 | case3 | case4 | case7 => rfl
  | case2 | case5 | case6 | case8 =>
    rename_i ih
    exact ih.cons _

theorem scan_of (q : Quote) (cs : List Char) : (q.scan cs).Of cs := scanFrom_of q _ _ cs

end Quote

end StructuredText
