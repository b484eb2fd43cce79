/-!
# Elementary types and access widths

The elementary data types are the ones spelled with a reserved word; every type has one canonical spelling, and the
time-of-day and date-and-time types have a short one besides. An access width says which part of a bit string a
`%`-specifier selects.
-/

namespace StructuredText

/-- A data type spelled with a reserved word. -/
inductive ElementaryType where
  | bool | sInt | int | dInt | lInt | usInt | uInt | udInt | ulInt
  | real | lReal
  | byte | word | dWord | lWord
  | time | lTime | date | lDate | timeOfDay | lTimeOfDay | dateAndTime | lDateAndTime
  | string | wString | char | wChar
deriving DecidableEq, Inhabited

namespace ElementaryType

/-- Every elementary type. -/
def all : List ElementaryType :=
  [.bool, .sInt, .int, .dInt, .lInt, .usInt, .uInt, .udInt, .ulInt, .real, .lReal, .byte, .word, .dWord, .lWord,
   .time, .lTime, .date, .lDate, .timeOfDay, .lTimeOfDay, .dateAndTime, .lDateAndTime, .string, .wString, .char, .wChar]

/-- The canonical spelling. -/
def spelling : ElementaryType → String
  | bool => "BOOL" | sInt => "SINT" | int => "INT" | dInt => "DINT" | lInt => "LINT"
  | usInt => "USINT" | uInt => "UINT" | udInt => "UDINT" | ulInt => "ULINT"
  | real => "REAL" | lReal => "LREAL"
  | byte => "BYTE" | word => "WORD" | dWord => "DWORD" | lWord => "LWORD"
  | time => "TIME" | lTime => "LTIME" | date => "DATE" | lDate => "LDATE"
  | timeOfDay => "TIME_OF_DAY" | lTimeOfDay => "LTIME_OF_DAY"
  | dateAndTime => "DATE_AND_TIME" | lDateAndTime => "LDATE_AND_TIME"
  | string => "STRING" | wString => "WSTRING" | char => "CHAR" | wChar => "WCHAR"

/-- The short spelling, where there is one. -/
def shortSpelling? : ElementaryType → Option String
  | timeOfDay => some "TOD" | lTimeOfDay => some "LTOD"
  | dateAndTime => some "DT" | lDateAndTime => some "LDT"
  | _ => none

/-- The type with this spelling, in upper case. -/
def ofSpelling? (s : String) : Option ElementaryType :=
  all.find? fun t => t.spelling == s || t.shortSpelling? == some s

/-- The name of the type in listings. -/
def label : ElementaryType → String
  | bool => "Bool" | sInt => "SInt" | int => "Int" | dInt => "DInt" | lInt => "LInt"
  | usInt => "USInt" | uInt => "UInt" | udInt => "UDInt" | ulInt => "ULInt"
  | real => "Real" | lReal => "LReal"
  | byte => "Byte" | word => "Word" | dWord => "DWord" | lWord => "LWord"
  | time => "Time" | lTime => "LTime" | date => "Date" | lDate => "LDate"
  | timeOfDay => "TimeOfDay" | lTimeOfDay => "LTimeOfDay"
  | dateAndTime => "DateAndTime" | lDateAndTime => "LDateAndTime"
  | string => "String" | wString => "WString" | char => "Char" | wChar => "WChar"

theorem mem_all (t : ElementaryType) : t ∈ all := by cases t <;> decide

end ElementaryType

/-- The part of a bit string that a partial access selects. -/
inductive AccessWidth where
  | bit | byte | word | dWord | lWord
deriving DecidableEq, Inhabited

namespace AccessWidth

/-- Every width. -/
def all : List AccessWidth := [.bit, .byte, .word, .dWord, .lWord]

/-- The letter after the `%`. -/
def letter : AccessWidth → Char
  | bit => 'X' | byte => 'B' | word => 'W' | dWord => 'D' | lWord => 'L'

/-- The width with this letter, in either case. -/
def ofLetter? (c : Char) : Option AccessWidth := all.find? (·.letter == c.toUpper)

/-- The canonical spelling. -/
def spelling (w : AccessWidth) : String := String.ofList ['%', w.letter]

/-- The name of the width in listings. -/
def label : AccessWidth → String
  | bit => "Bit" | byte => "Byte" | word => "Word" | dWord => "DWord" | lWord => "LWord"

end AccessWidth

end StructuredText
