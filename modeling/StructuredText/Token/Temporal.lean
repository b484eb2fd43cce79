import StructuredText.Token.Scan

/-!
# Durations, dates and times of day

The value behind the `#` of a date or a time has a fixed layout of digits. A duration is a sum of numbers with units.
What begins like such a value and does not go through is no literal: the token then ends with the `#`, or, inside a
duration, where the reading stopped.
-/

namespace StructuredText

/-! ## Fixed layouts -/

/-- The values with a fixed layout of digits. -/
inductive Stamp where
  | date | timeOfDay | dateAndTime
deriving DecidableEq

namespace Stamp

/-- How many digits tell that a value follows. -/
def leadingDigits : Stamp → Nat
  | date | dateAndTime => 4
  | timeOfDay => 2

/-- The layout, with `d` for a digit. -/
def layout : Stamp → List Char
  | date => "dddd-dd-dd".toList
  | timeOfDay => "dd:dd:dd".toList
  | dateAndTime => "dddd-dd-dd-dd:dd:dd".toList

/-- The seconds may have a fraction. -/
def hasFraction : Stamp → Bool
  | date => false
  | timeOfDay | dateAndTime => true

/-- The kind of the whole literal. -/
def kind : Stamp → TokenKind
  | date => .dateLiteral
  | timeOfDay => .timeOfDayLiteral
  | dateAndTime => .dateAndTimeLiteral

end Stamp

/-- Reads `layout`, in which `d` stands for a digit and any other character for itself. -/
def readLayout? : List Char → List Char → Option (List Char × List Char)
  | [], cs => some ([], cs)
  | _ :: _, [] => none
  | p :: layout, c :: cs =>
    if (if p == 'd' then c.isDigit else c == p) then
      (readLayout? layout cs).map fun (taken, rest) => (c :: taken, rest)
    else none

/-- Reads an optional fraction of a second. A point without a digit spoils the literal in front of it. -/
def scanSeconds (kind : TokenKind) : List Char → Scan
  | [] => .stop kind []
  | c :: cs =>
    if c == '.' then
      if startsWith Char.isDigit cs then
        ⟨kind, c :: cs.takeWhile (fun d => d.isDigit || d == '_'), cs.dropWhile (fun d => d.isDigit || d == '_')⟩
      else .stop .ident (c :: cs)
    else .stop kind (c :: cs)

/-- Reads a value with a fixed layout behind its `#`. -/
def Stamp.scan (stamp : Stamp) (cs : List Char) : Scan :=
  if (readLayout? (List.replicate stamp.leadingDigits 'd') cs).isNone then .stop .typedLiteralPrefix cs
  else
    match readLayout? stamp.layout cs with
    | none => .stop .ident cs
    | some (taken, rest) =>
      (if stamp.hasFraction then scanSeconds stamp.kind rest else .stop stamp.kind rest).after taken

/-! ## Durations -/

/-- The length of the unit at the front of a text: two for `ms`, `us` and `ns`, one for `d`, `h`, `m` and `s`, and zero
where there is none. -/
def unitLength : List Char → Nat
  | [] => 0
  | c :: cs =>
    let c := c.toLower
    if (c == 'm' || c == 'u' || c == 'n') && startsWith (·.toLower == 's') cs then 2
    else if c == 'd' || c == 'h' || c == 'm' || c == 's' then 1
    else 0

/-- Where the reading of a duration stands. -/
inductive DurationState where
  /-- In the whole part of a number. -/
  | whole
  /-- In the fraction of a number. -/
  | fraction
  /-- In a unit with `left` characters to come. -/
  | unit (left : Nat)
deriving DecidableEq

/-- Reads on in a duration. Behind a unit, a digit begins the next number, with or without an underscore before it. -/
def scanDurationFrom : DurationState → List Char → Scan
  | .unit 0, [] => .stop .timeLiteral []
  | _, [] => .stop .error []
  | .unit (left + 1), c :: cs => (scanDurationFrom (.unit left) cs).cons c
  | .unit 0, c :: cs =>
    if c.isDigit || (c == '_' && startsWith Char.isDigit cs) then (scanDurationFrom .whole cs).cons c
    else .stop (if c == '_' then .error else .timeLiteral) (c :: cs)
  | state, c :: cs =>
    if c.isDigit then (scanDurationFrom state cs).cons c
    else if c == '.' && state == .whole && startsWith Char.isDigit cs then (scanDurationFrom .fraction cs).cons c
    else
      match unitLength (c :: cs) with
      | 0 => .stop .error (c :: cs)
      | left + 1 => (scanDurationFrom (.unit left) cs).cons c

/-- Reads a duration behind its `#`. -/
def scanDuration : List Char → Scan
  | [] => .stop .typedLiteralPrefix []
  | c :: cs =>
    if c == '+' || c == '-' then
      if startsWith Char.isDigit cs then (scanDurationFrom .whole cs).cons c else .stop .ident (c :: cs)
    else if c.isDigit then scanDurationFrom .whole (c :: cs)
    else .stop .typedLiteralPrefix (c :: cs)

/-! ## Nothing is lost -/

theorem append_of_readLayout? {layout cs taken rest : List Char} (h : readLayout? layout cs = some (taken, rest)) :
    taken ++ rest = cs := by
  fun_induction readLayout? layout cs generalizing taken rest with
  | case1 => cases h; rfl
  | case2 => cases h
  | case3 p layout c cs _ ih =>
    obtain ⟨⟨t, r⟩, ht, heq⟩ := Option.map_eq_some_iff.1 h
    cases heq; simp [ih ht]
  | case4 => cases h

theorem scanSeconds_of (kind : TokenKind) (cs : List Char) : (scanSeconds kind cs).Of cs := by
  unfold scanSeconds
  split
  · rfl
  · split
    · split
      · simp [Scan.Of]
      · rfl
    · rfl

theorem Stamp.scan_of (stamp : Stamp) (cs : List Char) : (stamp.scan cs).Of cs := by
  unfold Stamp.scan
  split
  · rfl
  · split
    · rfl
    · next taken rest h =>
      rw [← append_of_readLayout? h]
      split
      · exact (scanSeconds_of _ _).after taken
      · exact (Scan.stop_of _ _).after taken

theorem scanDurationFrom_of (state : DurationState) (cs : List Char) : (scanDurationFrom state cs).Of cs := by
  fun_induction scanDurationFrom state cs with
  | case1 | case2 | case5 | case8 => rfl
  | case3 | case4 | case6 | case7 | case9 =>
    rename_i ih
    exact ih.cons _

theorem scanDuration_of (cs : List Char) : (scanDuration cs).Of cs := by
  unfold scanDuration
  split
  · rfl
  · next c cs =>
    split
    · split
      · exact (scanDurationFrom_of _ cs).cons c
      · rfl
    · split
      · exact scanDurationFrom_of _ _
      · rfl

end StructuredText
