import StructuredText.Proofs.Lexing.Lexed
import StructuredText.Proofs.Lexing.Quoted
import StructuredText.Tree.Literal

/-!
# Strings in source form

Whatever the value of a string literal is, its source form is one token, and the value of that token is the value of the
literal (`lex_renderValue_string`). That a single character is written and read alike is in `Lexing/Quoted`.
-/

namespace StructuredText

/-- The form of the literals in these quotes. -/
def Quote.literalKind : Quote → LiteralKind
  | single => .string
  | double => .wideString

/-- A value in quotes is one piece of text. -/
theorem pieces_write (q : Quote) (value : List Char) : pieces (q.write value) = [⟨q.kind, q.write value⟩] := by
  have hcut : Cut (q.write value) [⟨q.kind, q.write value⟩] [] :=
    (Scanned.quoted q value []).cut (by cases q <;> exact nofun)
  exact cuts_iff.1 hcut.cuts

/-- The source form of a string literal is its value between quotes, with an escape for each character that cannot
stand there as it is. It is one token of the kind that the quotes tell, and that token stands for the value again. -/
theorem lex_renderValue_string (q : Quote) (typeName : Option Name) (value : String) (span : Span) :
    let text := (⟨q.literalKind, typeName, value, span⟩ : Literal).renderValue
    text.toList = q.mark :: q.escape value.toList ++ [q.mark] ∧
    lex text = [⟨q.kind, ⟨0, text.utf8ByteSize⟩⟩] ∧
    ∀ t ∈ lex text, t.text text.toList = text ∧ String.ofList (q.read (t.text text.toList).toList) = value := by
  intro text
  have htext : text.toList = q.write value.toList := by
    cases q <;> exact String.toList_ofList
  have hlex : lex text = [⟨q.kind, ⟨0, text.utf8ByteSize⟩⟩] := by
    rw [lex, htext, pieces_write, ← Text.byteLength_toList, htext, place, place, Nat.zero_add]
  have htoken : Token.text ⟨q.kind, ⟨0, text.utf8ByteSize⟩⟩ text.toList = text := by
    have hwhole := @Token.text_of_append q.kind [] text.toList []
    simpa [Text.byteLength_toList, Text.byteLength] using hwhole
  refine ⟨htext, hlex, fun t ht => ?_⟩
  rw [hlex, List.mem_singleton] at ht
  rw [ht, htoken, htext, Quote.read_write, String.ofList_toList]
  exact ⟨rfl, rfl⟩

end StructuredText
