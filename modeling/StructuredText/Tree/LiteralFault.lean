import StructuredText.Token.LiteralType
import StructuredText.Tree.Literal

/-!
# What a type name accepts

A literal behind a type name has to have the form that the name announces. Numbers may carry a sign and non-decimal
ones may not; a real type takes integers, and the Boolean type takes them as well.
-/

namespace StructuredText

/-- What is wrong with a literal behind a type name. -/
inductive LiteralFault where
  | unknownType | signedNonDecimal | boolWithoutBool | realUnderInteger
  | notString | notWideString | notDuration | notDate | notTimeOfDay | notDateAndTime | notNumeric
deriving DecidableEq

/-- The fault in words. -/
def LiteralFault.message : LiteralFault → String
  | unknownType => "unknown literal type prefix"
  | signedNonDecimal => "non-decimal literals cannot carry a sign"
  | boolWithoutBool => "boolean values need a BOOL prefix"
  | realUnderInteger => "real value under an integer prefix"
  | notString => "expected a single-quoted string"
  | notWideString => "expected a double-quoted string"
  | notDuration => "expected a duration such as T#1h30m"
  | notDate => "expected a date such as D#2024-01-15"
  | notTimeOfDay => "expected a time of day such as TOD#12:30:00"
  | notDateAndTime => "expected a date and time such as DT#2024-01-15-12:30:00"
  | notNumeric => "expected a numeric value"

namespace LiteralType

/-- What is wrong with a value of this form, with or without a sign, where the type is announced. -/
def faultIn? : LiteralType → LiteralKind → (signed : Bool) → Option LiteralFault
  | _, .nonDecimal, true => some .signedNonDecimal
  | bool, .bool, _ | bool, .integer, _ | bool, .nonDecimal, _ => none
  | integer, .integer, _ | integer, .nonDecimal, _ => none
  | real, .integer, _ | real, .real, _ | real, .nonDecimal, _ => none
  | integer, .bool, _ | real, .bool, _ => some .boolWithoutBool
  | integer, .real, _ | bool, .real, _ => some .realUnderInteger
  | string, .string, false | wideString, .wideString, false => none
  | string, _, _ => some .notString
  | wideString, _, _ => some .notWideString
  | duration, _, _ => some .notDuration
  | date, _, _ => some .notDate
  | timeOfDay, _, _ => some .notTimeOfDay
  | dateAndTime, _, _ => some .notDateAndTime
  | _, _, _ => some .notNumeric

end LiteralType

/-- What is wrong with a value of this form behind a type name. -/
def LiteralFault.of? (typeName : String) (kind : LiteralKind) (signed : Bool) : Option LiteralFault :=
  match LiteralType.ofName? typeName with
  | some type => type.faultIn? kind signed
  | none => some .unknownType

end StructuredText
