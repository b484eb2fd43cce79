import StructuredText.Proofs.Lexing.Patterns
import StructuredText.Proofs.Lexing.Tiling

/-!
# Block comments

A comment may hold comments of its own style. The scanner counts them, and so it finds the end of the comment whatever
stands behind it (`CommentStyle.Balanced.body?_append`) and finds no other end (`CommentStyle.body?_eq_some_iff`). A
text that begins with an opener begins with one comment, or it is an error as a whole (`lex_blockComment`).
-/

namespace StructuredText

namespace CommentStyle

variable {style : CommentStyle} {a b cs rest : List Char}

theorem left_ne_star (style : CommentStyle) : style.left ≠ '*' := by cases style <;> decide

/-- The text of a comment ends one level, and the scanner goes on behind it on the level around it. -/
theorem Balanced.body?_append (h : style.Balanced a) (depth : Nat) (cs : List Char) :
    style.body? depth (a ++ cs) =
      match depth with
      | 0 => some (a, cs)
      | depth + 1 => (style.body? depth cs).map fun (inner, rest) => (a ++ inner, rest) := by
  induction h generalizing depth cs with
  | close =>
    have hopen : ¬('*' = style.left ∧ style.right = '*') := fun h => style.left_ne_star h.1.symm
    simp only [List.cons_append, List.nil_append, body?, if_neg hopen]
    cases depth <;> simp
  | @nested a b _ _ iha ihb =>
    have hopen : style.body? depth (style.left :: '*' :: (a ++ b) ++ cs) =
        (style.body? (depth + 1) (a ++ (b ++ cs))).map
          fun (inner, rest) => (style.left :: '*' :: inner, rest) := by
      rw [← List.append_assoc]
      simp [body?]
    rw [hopen, iha (depth + 1) (b ++ cs)]
    dsimp only
    rw [ihb depth cs]
    cases depth with
    | zero => rfl
    | succ depth =>
      simp only [Option.map_map]
      congr 1
      funext p
      simp
  | @char c a hopen hclose ha ih =>
    obtain ⟨d, a, rfl⟩ := List.exists_cons_of_ne_nil ha.ne_nil
    have hopen : ¬(c = style.left ∧ d = '*') := by
      rintro ⟨rfl, rfl⟩
      exact hopen ⟨a, rfl⟩
    have hclose : ¬(c = '*' ∧ d = style.right) := by
      rintro ⟨rfl, rfl⟩
      exact hclose ⟨a, rfl⟩
    have hchar : style.body? depth (c :: d :: a ++ cs) =
        (style.body? depth (d :: a ++ cs)).map fun (inner, rest) => (c :: inner, rest) := by
      simp only [List.cons_append, body?, if_neg hopen, if_neg hclose]
    rw [hchar, ih depth cs]
    cases depth with
    | zero => rfl
    | succ depth =>
      simp only [Option.map_map]
      rfl

/-- Behind an opener, the scanner finds a comment just where one ends. -/
theorem body?_eq_some_iff : style.body? 0 cs = some (a, rest) ↔ cs = a ++ rest ∧ style.Balanced a := by
  constructor
  · intro h
    obtain ⟨b, bs, hlength, rfl, hb, -⟩ := balanced_of_body? h
    refine ⟨(append_of_body? h).symm, ?_⟩
    rwa [List.eq_nil_of_length_eq_zero hlength, List.flatten_nil, List.append_nil]
  · rintro ⟨rfl, h⟩
    exact h.body?_append 0 rest

/-- A text begins with at most one comment. -/
theorem eq_of_language (ha : a ∈ style.language) (hb : b ∈ style.language) (hacs : a <+: cs) (hbcs : b <+: cs) :
    b = a := by
  obtain ⟨a, rfl, ha⟩ := ha
  obtain ⟨b, rfl, hb⟩ := hb
  obtain ⟨rest, rfl⟩ := hacs
  obtain ⟨rest', heq⟩ := hbcs
  have heq : b ++ rest' = a ++ rest := (List.cons.inj (List.cons.inj heq).2).2
  have hbodyA : style.body? 0 (a ++ rest) = some (a, rest) := body?_eq_some_iff.2 ⟨rfl, ha⟩
  have hbodyB : style.body? 0 (b ++ rest') = some (b, rest') := body?_eq_some_iff.2 ⟨rfl, hb⟩
  rw [heq, hbodyA] at hbodyB
  cases hbodyB
  rfl

/-- The scan behind an opener. -/
theorem scanToken_opener (style : CommentStyle) (cs : List Char) :
    scanToken style.left ('*' :: cs) = (style.scan cs).after [style.left, '*'] := by
  cases style <;> rfl

end CommentStyle

/-- A text that begins with the opener of a style: if it begins with a comment of this style, it does so with one only,
which is its first token; the others are those of the text behind it. If it begins with none, all of it is an error. -/
theorem lex_blockComment {style : CommentStyle} {text : String} (h : [style.left, '*'] <+: text.toList) :
    (∀ comment ∈ style.language, ∀ rest, text.toList = comment ++ rest →
      lex text = ⟨.blockComment, ⟨0, Text.byteLength comment⟩⟩ ::
        (lex (String.ofList rest)).map (Token.shift (Text.byteLength comment)) ∧
      ∀ other ∈ style.language, other <+: text.toList → other = comment) ∧
    ((∀ comment ∈ style.language, ¬comment <+: text.toList) →
      lex text = [⟨.error, ⟨0, text.utf8ByteSize⟩⟩]) := by
  constructor
  · intro comment hcomment rest htext
    refine ⟨?_, fun other hother hprefix => CommentStyle.eq_of_language hcomment hother ⟨rest, htext.symm⟩ hprefix⟩
    obtain ⟨body, rfl, hbody⟩ := hcomment
    have hscan : scanToken style.left ('*' :: (body ++ rest)) = ⟨.blockComment, style.left :: '*' :: body, rest⟩ := by
      rw [CommentStyle.scanToken_opener, CommentStyle.scan, CommentStyle.body?_eq_some_iff.2 ⟨rfl, hbody⟩]
      rfl
    have hcuts : Cuts (style.left :: '*' :: (body ++ rest))
        (⟨.blockComment, style.left :: '*' :: body⟩ :: pieces rest) := .of_token hscan rfl (cuts_pieces rest)
    rw [lex, htext, List.cons_append, List.cons_append, cuts_iff.1 hcuts, lex, String.toList_ofList, ← place_shift,
      place, Nat.zero_add]
  · intro hnone
    obtain ⟨cs, htext⟩ := h
    have hbody : style.body? 0 cs = none := by
      rw [Option.eq_none_iff_forall_ne_some]
      rintro ⟨body, rest⟩ hbody
      obtain ⟨rfl, hbalanced⟩ := CommentStyle.body?_eq_some_iff.1 hbody
      exact hnone _ ⟨body, rfl, hbalanced⟩ ⟨rest, htext⟩
    have hscan : scanToken style.left ('*' :: cs) = ⟨.error, style.left :: '*' :: cs, []⟩ := by
      rw [CommentStyle.scanToken_opener, CommentStyle.scan, hbody]
      rfl
    have hcuts : Cuts (style.left :: '*' :: cs) [⟨.error, style.left :: '*' :: cs⟩] := .of_token hscan rfl .nil
    have htext : text.toList = style.left :: '*' :: cs := htext.symm
    rw [lex, ← Text.byteLength_toList, htext, cuts_iff.1 hcuts]
    simp [place]

theorem lex_blockComment_nested :
    [CommentStyle.round.left, '*'] <+: "(*(*)*)**)x".toList ∧ "(*(*)*)**)".toList ∈ CommentStyle.round.language ∧
    lex "(*(*)*)**)x" = ⟨.blockComment, ⟨0, 10⟩⟩ :: (lex "x").map (Token.shift 10) := by
  have hopen : [CommentStyle.round.left, '*'] <+: "(*(*)*)**)x".toList := by decide
  have hinner : CommentStyle.round.Balanced ")*)".toList := .char (by decide) (by decide) .close
  have houter : CommentStyle.round.Balanced "**)".toList := .char (by decide) (by decide) .close
  have hcomment : "(*(*)*)**)".toList ∈ CommentStyle.round.language := ⟨_, rfl, .nested hinner houter⟩
  exact ⟨hopen, hcomment, ((lex_blockComment hopen).1 _ hcomment ['x'] rfl).1⟩

end StructuredText
