import StructuredText.Token

/-!
# Tokens with their texts

The text of a token is cut out of the source. `lexemes` cuts out the texts of many tokens while it goes through the
source once, as long as the tokens stand in order, and gives each the same text as `Token.text` (`lexemes_eq_map`).
-/

namespace StructuredText

/-- A token with its text. -/
structure Lexeme where
  kind : TokenKind
  span : Span
  text : String
deriving DecidableEq

/-- The token with its text in a source. -/
def Token.lexeme (source : List Char) (t : Token) : Lexeme := ⟨t.kind, t.span, t.text source⟩

/-- The text at the front, `length` bytes long, or nothing where it does not end between characters. -/
def frontText (here : List Char) (length : Nat) : String :=
  match Text.splitAt? here length with
  | some (inner, _) => String.ofList inner
  | none => ""

/-- The tokens with their texts, where `here` is the source from byte `offset` on. -/
def lexemesFrom (source : List Char) : (offset : Nat) → (here : List Char) → List Token → List Lexeme
  | _, _, [] => []
  | offset, here, t :: ts =>
    match if offset ≤ t.span.start then Text.splitAt? here (t.span.start - offset) else none with
    | some (_, tail) =>
      ⟨t.kind, t.span, frontText tail (t.span.stop - t.span.start)⟩ :: lexemesFrom source t.span.start tail ts
    | none => t.lexeme source :: lexemesFrom source offset here ts

/-- The tokens with their texts in a source. -/
def lexemes (source : List Char) (tokens : List Token) : List Lexeme := lexemesFrom source 0 source tokens

/-! ## The same texts -/

/-- Where the cut at `start` succeeds, the text of a token that begins there is the text at the front of the rest. -/
theorem Token.text_eq_frontText {t : Token} {source before tail : List Char}
    (h : Text.splitAt? source t.span.start = some (before, tail)) :
    t.text source = frontText tail (t.span.stop - t.span.start) := by
  by_cases hle : t.span.start ≤ t.span.stop
  · simp only [Token.text, Span.textIn, Text.slice?, if_pos hle, h, frontText, Option.bind_eq_bind, Option.bind_some]
    cases Text.splitAt? tail (t.span.stop - t.span.start) <;> rfl
  · have hzero : t.span.stop - t.span.start = 0 := by omega
    simp [Token.text, Span.textIn, Text.slice?, hle, frontText, hzero, Text.splitAt?]

theorem lexemesFrom_eq_map {source here : List Char} (before : List Char) (h : source = before ++ here)
    (tokens : List Token) :
    lexemesFrom source (Text.byteLength before) here tokens = tokens.map (Token.lexeme source) := by
  induction tokens generalizing before here with
  | nil => rfl
  | cons t ts ih =>
    simp only [lexemesFrom, List.map_cons]
    split
    · next skipped tail hcut =>
      split at hcut
      · next hle =>
        obtain ⟨rfl, hlen⟩ := Text.eq_append_of_splitAt? hcut
        have hstart : t.span.start = Text.byteLength (before ++ skipped) := by simp; omega
        have hsource : source = (before ++ skipped) ++ tail := by simp [h]
        have hcut' : Text.splitAt? source t.span.start = some (before ++ skipped, tail) := by
          rw [hsource, hstart]
          exact Text.splitAt?_append ..
        rw [Token.lexeme, Token.text_eq_frontText hcut']
        congr 1
        rw [hstart]
        exact ih _ hsource
      · cases hcut
    · rw [ih before h]

/-- Each token has its text. -/
theorem lexemes_eq_map (source : List Char) (tokens : List Token) :
    lexemes source tokens = tokens.map (Token.lexeme source) :=
  lexemesFrom_eq_map [] rfl tokens

end StructuredText
