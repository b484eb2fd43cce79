import StructuredText.Proofs.Lexing.Pieces

/-!
# Tokens tile the text

The tokens of a text stand one directly behind the other, from its first byte to its last, and each covers at least one
byte (`Tiles`). No token begins or ends inside a character, and the texts of the tokens one behind the other are the
text. So whatever the text is, the spans of its tokens lose nothing of it and invent nothing (`lex_lossless`).
-/

namespace StructuredText

/-! ## Bytes -/

theorem Text.byteLength_pos {cs : List Char} (h : cs ≠ []) : 0 < Text.byteLength cs := by
  cases cs with
  | nil => exact absurd rfl h
  | cons c cs =>
    have := Char.utf8Size_pos c
    rw [Text.byteLength_cons]
    omega

theorem Text.byteLength_toList (s : String) : Text.byteLength s.toList = s.utf8ByteSize := by
  rw [← String.ofList_toList (s := s), String.toList_ofList]
  induction s.toList with
  | nil => rfl
  | cons c cs ih =>
    rw [Text.byteLength_cons, ih, String.ofList_cons, String.utf8ByteSize_append, String.utf8ByteSize_singleton]

/-- Behind the characters `before` lies a character boundary. -/
theorem Text.isValid_of_append {s : String} {before after : List Char} (h : s.toList = before ++ after) :
    String.Pos.Raw.IsValid s ⟨Text.byteLength before⟩ := by
  refine String.Pos.Raw.isValid_iff_exists_append.2 ⟨String.ofList before, String.ofList after, ?_, ?_⟩
  · rw [← String.ofList_append, ← h, String.ofList_toList]
  · rw [String.rawEndPos, ← Text.byteLength_toList, String.toList_ofList]

/-! ## Tilings -/

/-- The tokens cover the bytes from an offset on, each at least one of them and directly behind the token before it, up
to another offset. -/
inductive Tiles : Nat → List Token → Nat → Prop
  | nil {offset : Nat} : Tiles offset [] offset
  | cons {t : Token} {ts : List Token} {stop : Nat} :
      t.span.start < t.span.stop → Tiles t.span.stop ts stop → Tiles t.span.start (t :: ts) stop

/-- Pieces that are not empty are placed as a tiling. -/
theorem place_tiles {ps : List Piece} (h : ∀ p ∈ ps, p.lexeme ≠ []) (offset : Nat) :
    Tiles offset (place offset ps) (offset + Text.byteLength (ps.flatMap Piece.lexeme)) := by
  induction ps generalizing offset with
  | nil => exact .nil
  | cons p ps ih =>
    have hpos := Text.byteLength_pos (h p List.mem_cons_self)
    rw [List.flatMap_cons, Text.byteLength_append, ← Nat.add_assoc]
    exact .cons (t := ⟨p.kind, ⟨offset, offset + Text.byteLength p.lexeme⟩⟩) (Nat.lt_add_of_pos_right hpos)
      (ih (fun q hq => h q (List.mem_cons_of_mem _ hq)) _)

/-- Pieces that are placed further to the right give the same tokens, moved there. -/
theorem place_shift (offset n : Nat) (ps : List Piece) :
    place (offset + n) ps = (place offset ps).map (Token.shift n) := by
  induction ps generalizing offset with
  | nil => rfl
  | cons p ps ih =>
    have hstop : offset + n + Text.byteLength p.lexeme = offset + Text.byteLength p.lexeme + n := by omega
    rw [place, place, List.map_cons, hstop, ih]
    rfl

/-- A token that is placed behind `before` and covers `inner` has `inner` as its text. -/
theorem Token.text_of_append {kind : TokenKind} {before inner : List Char} (after : List Char) :
    Token.text ⟨kind, ⟨Text.byteLength before, Text.byteLength before + Text.byteLength inner⟩⟩
      (before ++ inner ++ after) = String.ofList inner := by
  simp only [Token.text, Span.textIn, Text.slice?_append]

/-- Behind `before`, the texts of the placed pieces are their lexemes. -/
theorem map_text_place {source before after : List Char} {ps : List Piece}
    (h : source = before ++ ps.flatMap Piece.lexeme ++ after) :
    (place (Text.byteLength before) ps).map (·.text source) = ps.map fun p => String.ofList p.lexeme := by
  induction ps generalizing before with
  | nil => rfl
  | cons p ps ih =>
    have hsource : source = before ++ p.lexeme ++ (ps.flatMap Piece.lexeme ++ after) := by simp [h]
    have hrest : source = (before ++ p.lexeme) ++ ps.flatMap Piece.lexeme ++ after := by simp [h]
    have ih := ih hrest
    rw [Text.byteLength_append] at ih
    rw [place, List.map_cons, List.map_cons, ih]
    congr 1
    rw [hsource]
    exact Token.text_of_append _

/-- No placed piece begins or ends inside a character. -/
theorem isValid_of_mem_place {text : String} {before after : List Char} {ps : List Piece}
    (h : text.toList = before ++ ps.flatMap Piece.lexeme ++ after) :
    ∀ t ∈ place (Text.byteLength before) ps,
      String.Pos.Raw.IsValid text ⟨t.span.start⟩ ∧ String.Pos.Raw.IsValid text ⟨t.span.stop⟩ := by
  induction ps generalizing before with
  | nil => simp [place]
  | cons p ps ih =>
    have hstart : text.toList = before ++ (p.lexeme ++ ps.flatMap Piece.lexeme ++ after) := by simp [h]
    have hstop : text.toList = (before ++ p.lexeme) ++ (ps.flatMap Piece.lexeme ++ after) := by simp [h]
    have hrest : text.toList = (before ++ p.lexeme) ++ ps.flatMap Piece.lexeme ++ after := by simp [h]
    have ih := ih hrest
    have hvalid := Text.isValid_of_append hstop
    rw [Text.byteLength_append] at ih hvalid
    exact List.forall_mem_cons.2 ⟨⟨Text.isValid_of_append hstart, hvalid⟩, ih⟩

/-! ## Texts -/

theorem join_map_ofList (css : List (List Char)) : String.join (css.map String.ofList) = String.ofList css.flatten := by
  rw [← String.toList_inj, String.toList_join, String.toList_ofList, List.flatMap_map]
  simp [List.flatMap]

theorem lex_tiles (text : String) : Tiles 0 (lex text) text.utf8ByteSize := by
  have htiles := place_tiles (cuts_pieces text.toList).lexeme_ne_nil 0
  rwa [flatMap_pieces, Nat.zero_add, Text.byteLength_toList] at htiles

theorem isValid_of_mem_lex (text : String) :
    ∀ t ∈ lex text, String.Pos.Raw.IsValid text ⟨t.span.start⟩ ∧ String.Pos.Raw.IsValid text ⟨t.span.stop⟩ := by
  have htext : text.toList = [] ++ (pieces text.toList).flatMap Piece.lexeme ++ [] := by simp [flatMap_pieces]
  exact isValid_of_mem_place htext

/-- The tokens of a text tile it, their ends lie between characters, and their texts one behind the other are the
text. -/
theorem lex_lossless (text : String) :
    Tiles 0 (lex text) text.utf8ByteSize ∧
    (∀ t ∈ lex text, String.Pos.Raw.IsValid text ⟨t.span.start⟩ ∧ String.Pos.Raw.IsValid text ⟨t.span.stop⟩) ∧
    String.join ((lex text).map (·.text text.toList)) = text := by
  refine ⟨lex_tiles text, isValid_of_mem_lex text, ?_⟩
  have htext : text.toList = [] ++ (pieces text.toList).flatMap Piece.lexeme ++ [] := by simp [flatMap_pieces]
  have hmap : (lex text).map (·.text text.toList) =
      ((pieces text.toList).map Piece.lexeme).map String.ofList := by
    rw [List.map_map]
    exact map_text_place htext
  rw [hmap, join_map_ofList, ← List.flatMap_def, flatMap_pieces, String.ofList_toList]

end StructuredText
