import StructuredText.Settings.Toml.Number
import StructuredText.Settings.Toml.Reader

/-!
# Dates and times of a settings file

A date is a day that the calendar has. A time has hours and minutes, and possibly seconds with a fraction. Behind a date
and its time may stand how far the time is from the universal one.
-/

namespace StructuredText.Toml

/-! ## The calendar -/

/-- The year has a 29th of February. -/
def isLeapYear (year : Nat) : Bool := year % 4 == 0 && (year % 100 != 0 || year % 400 == 0)

/-- The number of days in a month. -/
def daysIn (year month : Nat) : Nat :=
  match month with
  | 2 => if isLeapYear year then 29 else 28
  | 4 | 6 | 9 | 11 => 30
  | _ => 31

/-! ## Readers -/

/-- Reads a number of `width` digits between two bounds. -/
def numeral (width least greatest : Nat) : Reader Nat := do
  let cs ← get
  let digits := cs.take width
  let n := valueIn 10 digits
  if digits.length = width && digits.all Char.isDigit && least ≤ n && n ≤ greatest then
    set (cs.drop width)
    return n
  else failure

/-- Reads a date. -/
def date : Reader Unit := do
  let year ← numeral 4 0 9999
  char '-'
  let month ← numeral 2 1 12
  char '-'
  discard (numeral 2 1 (daysIn year month))

/-- Reads hours and minutes with a colon between. -/
def hoursAndMinutes : Reader Unit := do
  discard (numeral 2 0 23)
  char ':'
  discard (numeral 2 0 59)

/-- Reads a time. A minute may have a leap second. -/
def time : Reader Unit := do
  hoursAndMinutes
  if ← charIf ':' then
    discard (numeral 2 0 60)
    if ← charIf '.' then
      if (← run Char.isDigit).isEmpty then failure

/-- Reads the distance from the universal time, if there is one. -/
def offset : Reader Unit := do
  if ← charOf fun c => c == 'Z' || c == 'z' then return
  if ← charOf fun c => c == '+' || c == '-' then hoursAndMinutes

/-- Reads a date, a date with a time, or a time. -/
def moment : Reader Unit := dated <|> time
where
  dated : Reader Unit := do
    date
    if ← charOf fun c => c == 'T' || c == 't' || c == ' ' then
      time
      offset

end StructuredText.Toml
