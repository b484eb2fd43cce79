import StructuredText.Proofs.Lexing.Tiling
import StructuredText.Proofs.Lexing.TypedPatterns

/-!
# Tokens are texts of their kinds

The first character of a token tells its scanner, and so every token is a text of the language of its kind or overruns
it (`scanToken_language`). The dots cut off behind an integer are symbols as well, and so it is for every token of a
text (`lex_language`).
-/

namespace StructuredText

open Computability

/-- Every token is a text of the language of its kind, or overruns it. -/
theorem scanToken_language (c : Char) (cs : List Char) :
    (scanToken c cs).kind ≠ .error →
      (scanToken c cs).lexeme ∈ (scanToken c cs).kind.language + (scanToken c cs).kind.overrun := by
  unfold scanToken
  split
  · next hc => exact fun _ => .inl (cons_mem_mul hc (takeWhile_mem_kstar _ cs))
  split
  · next hc => exact scanWord_language hc
  split
  · next hc => exact fun _ => scanNumber_language hc
  split
  · next hc =>
    rw [eq_of_beq hc]
    intro h
    have hkind : (Quote.single.scan cs).kind = .stringLiteral := (Quote.single.scan_kind cs).resolve_right h
    have hmem := Quote.single.scan_language cs h
    rw [Scan.cons] at hmem ⊢
    rw [hkind]
    exact .inl hmem
  split
  · next hc =>
    rw [eq_of_beq hc]
    intro h
    have hkind : (Quote.double.scan cs).kind = .wideStringLiteral := (Quote.double.scan_kind cs).resolve_right h
    have hmem := Quote.double.scan_language cs h
    rw [Scan.cons] at hmem ⊢
    rw [hkind]
    exact .inl hmem
  split
  · next hc =>
    rw [eq_of_beq hc]
    exact fun h => .inl (scanPragma_language cs h)
  split
  · next hc =>
    rw [Bool.and_eq_true] at hc
    rw [eq_of_beq hc.1]
    intro _
    cases cs with
    | nil => cases hc.2
    | cons d ds =>
      have hd : (d == '/') = true := hc.2
      have htake : ('/' :: ds).takeWhile (!isLineEnd ·) = '/' :: ds.takeWhile (!isLineEnd ·) :=
        List.takeWhile_cons_of_pos rfl
      rw [eq_of_beq hd, scanLineComment, htake]
      have hslashes : ['/', '/'] ∈ exactly "//" := mem_exactly "//"
      exact .inl (Language.append_mem_mul hslashes (takeWhile_mem_kstar _ ds))
  cases hcomment : scanBlockComment? c cs with
  | none => exact fun h => .inl (scanSymbol_language c cs h)
  | some s => exact fun h => .inl (scanBlockComment?_language hcomment h)

theorem Cuts.language {cs : List Char} {ps : List Piece} (h : Cuts cs ps) :
    ∀ p ∈ ps, p.kind ≠ .error → p.lexeme ∈ p.kind.language + p.kind.overrun := by
  induction h with
  | nil => exact nofun
  | token _ _ ih => exact List.forall_mem_cons.2 ⟨scanToken_language _ _, ih⟩
  | @dotted c cs rest dots ps hdots _ ih =>
    have hdot : dots.lexeme ∈ dots.kind.language + dots.kind.overrun := by
      unfold dotsAfter? at hdots
      split at hdots
      · unfold dotsAfterInteger? at hdots
        split at hdots <;> cases hdots <;> exact .inl (.head _)
      · cases hdots
    exact List.forall_mem_cons.2 ⟨scanToken_language _ _, List.forall_mem_cons.2 ⟨fun _ => hdot, ih⟩⟩

/-- A placed piece has its kind and its text. -/
theorem exists_mem_of_mem_place {source before after : List Char} {ps : List Piece}
    (h : source = before ++ ps.flatMap Piece.lexeme ++ after) :
    ∀ t ∈ place (Text.byteLength before) ps, ∃ p ∈ ps, t.kind = p.kind ∧ (t.text source).toList = p.lexeme := by
  induction ps generalizing before with
  | nil => exact nofun
  | cons p ps ih =>
    have hsource : source = before ++ p.lexeme ++ (ps.flatMap Piece.lexeme ++ after) := by simp [h]
    have hrest : source = (before ++ p.lexeme) ++ ps.flatMap Piece.lexeme ++ after := by simp [h]
    have ih := ih hrest
    rw [Text.byteLength_append] at ih
    refine List.forall_mem_cons.2 ⟨⟨p, List.mem_cons_self, rfl, ?_⟩, fun t ht => ?_⟩
    · rw [hsource, Token.text_of_append, String.toList_ofList]
    · obtain ⟨q, hq, hkind, htext⟩ := ih t ht
      exact ⟨q, List.mem_cons_of_mem _ hq, hkind, htext⟩

/-- Every token of a text but an error is a text of the language of its kind, or one of the few that overrun it. -/
theorem lex_language (text : String) :
    ∀ t ∈ lex text, t.kind ≠ .error →
      (t.text text.toList).toList ∈ t.kind.language + t.kind.overrun := by
  intro t ht hkind
  have htext : text.toList = [] ++ (pieces text.toList).flatMap Piece.lexeme ++ [] := by simp [flatMap_pieces]
  obtain ⟨p, hp, hpiece, hlexeme⟩ := exists_mem_of_mem_place htext t ht
  rw [hlexeme, hpiece]
  rw [hpiece] at hkind
  exact (cuts_pieces _).language p hp hkind

/-- The duration of a text is one of the language of durations. -/
theorem lex_language_duration :
    (⟨.timeLiteral, ⟨2, 9⟩⟩ : Token) ∈ lex "x:T#1h_2m" ∧ TokenKind.timeLiteral ≠ .error ∧
      "T#1h_2m".toList ∈ TokenKind.timeLiteral.language + TokenKind.timeLiteral.overrun := by
  refine ⟨by decide, by decide, ?_⟩
  exact lex_language "x:T#1h_2m" ⟨.timeLiteral, ⟨2, 9⟩⟩ (by decide) (by decide)

/-- Groups of digits hold nothing but digits and underscores. -/
theorem of_mem_grouped {p : Char → Bool} {l : List Char} (h : l ∈ grouped p) : ∀ c ∈ l, p c = true ∨ c = '_' := by
  have hone {l : List Char} (h : l ∈ oneOf p) : ∀ c ∈ l, p c = true := by
    obtain ⟨d, rfl, hd⟩ := h
    intro c hc
    rwa [List.mem_singleton.1 hc]
  obtain ⟨a, ha, b, hb, rfl⟩ := Language.mem_mul.1 h
  obtain ⟨ls, rfl, hls⟩ := Language.mem_kstar.1 hb
  intro c hc
  rcases List.mem_append.1 hc with hc | hc
  · exact .inl (hone ha c hc)
  · obtain ⟨l, hl, hc⟩ := List.mem_flatten.1 hc
    rcases hls l hl with hdigit | hgroup
    · exact .inl (hone hdigit c hc)
    · obtain ⟨u, rfl, v, hv, rfl⟩ := Language.mem_mul.1 hgroup
      rcases List.mem_append.1 hc with hc | hc
      · exact .inr (List.mem_singleton.1 hc)
      · exact .inl (hone hv c hc)

/-- Not every token is a text of the language of its kind: in `8#9` the base and its `#` are read as an integer. -/
theorem exists_lex_overrun :
    ¬∀ text : String, ∀ t ∈ lex text, t.kind ≠ .error → (t.text text.toList).toList ∈ t.kind.language := by
  intro h
  have hbase := h "8#9" ⟨.intLiteral, ⟨0, 2⟩⟩ (by decide) (by decide)
  rcases of_mem_grouped hbase '#' (by decide) with hdigit | hunderscore
  · cases hdigit
  · cases hunderscore

end StructuredText
