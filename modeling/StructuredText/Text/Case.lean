/-!
# Letters regardless of case

Keywords, type names and the names of literal types are read regardless of the case of their ASCII letters. No other
letter has a case here.
-/

namespace StructuredText.Text

/-- The text with its ASCII letters in upper case. -/
def upper (cs : List Char) : List Char := cs.map Char.toUpper

/-- The string with its ASCII letters in upper case. -/
def upperString (s : String) : String := String.ofList (upper s.toList)

/-- Equality of texts up to the case of ASCII letters. -/
def sameLetters (a b : String) : Bool := upper a.toList == upper b.toList

@[simp] theorem upper_append (cs ds : List Char) : upper (cs ++ ds) = upper cs ++ upper ds := List.map_append

@[simp] theorem length_upper (cs : List Char) : (upper cs).length = cs.length := List.length_map ..

@[simp] theorem toList_upperString (s : String) : (upperString s).toList = upper s.toList := by simp [upperString]

theorem sameLetters_iff {a b : String} : sameLetters a b = true ↔ upper a.toList = upper b.toList := by
  simp [sameLetters]

end StructuredText.Text
