import StructuredText.Proofs.Labels
import StructuredText.Proofs.Lawful
import StructuredText.Proofs.Roots

/-!
# How far the search for a label looks

Wherever a parse stands, it looks for the colon of a label from a place in its stream on (`Run.exists_cursor`). The
search goes through the tokens and is over at the first one that settles the answer: an `eof`, or a colon or the end of
a statement outside of brackets.

So a `;` keeps what stands behind it from the search where no bracket is open in front of it, or where the answer is
settled before. These are the only cases (`labelAhead_congr_iff`): behind a `;` with an open bracket in front of it, the
search finds the colon of the next statement.
-/

namespace StructuredText

/-! ## Open brackets -/

/-- The open parentheses and brackets behind a token. A closing one without an opening one counts for nothing. -/
def TokenKind.openBehind (opened : Nat × Nat) : TokenKind → Nat × Nat
  | lParen => (opened.1 + 1, opened.2)
  | rParen => (opened.1 - 1, opened.2)
  | lBracket => (opened.1, opened.2 + 1)
  | rBracket => (opened.1, opened.2 - 1)
  | _ => opened

/-- The open parentheses and brackets behind the tokens. -/
def openBehind (opened : Nat × Nat) (ts : List Token) : Nat × Nat :=
  ts.foldl (fun opened t => t.kind.openBehind opened) opened

/-- A token of this kind tells whether a colon comes before the end of the statement. -/
def TokenKind.Settles (opened : Nat × Nat) (k : TokenKind) : Prop :=
  k = eof ∨ opened = (0, 0) ∧ (k = colon ∨ k.endsLabelSearch = true)

/-- One of the tokens tells whether a colon comes before the end of the statement. -/
def SearchSettled (opened : Nat × Nat) (ts : List Token) : Prop :=
  ∃ before t behind, ts = before ++ t :: behind ∧ t.kind.Settles (openBehind opened before)

/-- A colon comes before the end of the statement that stands behind the first tokens of the stream. -/
def Stream.labelAhead (s : Stream) (cursor : Nat) : Bool :=
  ParserState.colonAhead 0 0 (significant ⟨s.tokens.drop cursor, s.source⟩)

/-! ## The search goes from token to token -/

/-- What a token tells, if it tells anything. -/
def TokenKind.verdict? (opened : Nat × Nat) (k : TokenKind) : Option Bool :=
  if k = eof then some false
  else if opened = (0, 0) ∧ k = colon then some true
  else if opened = (0, 0) ∧ k.endsLabelSearch = true then some false
  else none

/-- What the first token that tells anything does. -/
def verdict? : Nat × Nat → List Token → Option Bool
  | _, [] => none
  | opened, t :: ts => (t.kind.verdict? opened).or (verdict? (t.kind.openBehind opened) ts)

section

variable {opened : Nat × Nat} {t : Token} {ts us : List Token} {source : List Char}

theorem TokenKind.verdict?_isSome {k : TokenKind} : (k.verdict? opened).isSome = true ↔ k.Settles opened := by
  unfold verdict? Settles
  split
  · next h => simp [h]
  · split
    · next h => simp [h]
    · split <;> simp_all

theorem searchSettled_cons : SearchSettled opened (t :: ts) ↔
    t.kind.Settles opened ∨ SearchSettled (t.kind.openBehind opened) ts := by
  constructor
  · rintro ⟨_ | ⟨u, before⟩, v, behind, hts, hv⟩
    · cases hts
      exact .inl hv
    · cases hts
      exact .inr ⟨before, v, behind, rfl, hv⟩
  · rintro (ht | ⟨before, v, behind, rfl, hv⟩)
    · exact ⟨[], t, ts, rfl, ht⟩
    · exact ⟨t :: before, v, behind, rfl, hv⟩

theorem verdict?_isSome : (verdict? opened ts).isSome = true ↔ SearchSettled opened ts := by
  induction ts generalizing opened with
  | nil => exact ⟨nofun, fun ⟨before, t, behind, hts, _⟩ => by simp at hts⟩
  | cons t ts ih => rw [verdict?, Option.isSome_or, Bool.or_eq_true, TokenKind.verdict?_isSome, ih, searchSettled_cons]

theorem verdict?_append :
    verdict? opened (ts ++ us) = (verdict? opened ts).or (verdict? (openBehind opened ts) us) := by
  induction ts generalizing opened with
  | nil => rfl
  | cons t ts ih => rw [List.cons_append, verdict?, verdict?, ih, Option.or_assoc]; rfl

/-- A token that is looked at tells something, or the search goes on behind it. -/
theorem colonAhead_cons {u : Lexeme} {x : List Lexeme} (hu : u.kind ≠ .eof) :
    ParserState.colonAhead opened.1 opened.2 (u :: x) = (u.kind.verdict? opened).getD
      (ParserState.colonAhead (u.kind.openBehind opened).1 (u.kind.openBehind opened).2 x) := by
  have hzero : opened = (0, 0) ↔ opened.1 = 0 ∧ opened.2 = 0 := Prod.ext_iff
  unfold TokenKind.verdict?
  rw [ParserState.colonAhead, if_neg hu]
  split
  iterate 4 next hk => simp [hk, TokenKind.openBehind, TokenKind.endsLabelSearch]
  next h₁ h₂ h₃ h₄ =>
  have hsame : u.kind.openBehind opened = opened := by
    unfold TokenKind.openBehind
    split <;> simp_all
  simp only [hsame, hzero, and_assoc]
  split
  · rfl
  · split <;> rfl

/-- Trivia tell nothing and count no bracket. -/
theorem TokenKind.verdict?_of_isTrivia {k : TokenKind} (h : k.isTrivia = true) :
    k.verdict? opened = none ∧ k.openBehind opened = opened := by
  cases k <;> cases h <;> exact ⟨by simp [verdict?, endsLabelSearch], rfl⟩

/-- The search answers what the first token does that tells anything, and no colon comes where none does. -/
theorem colonAhead_significant : ParserState.colonAhead opened.1 opened.2 (Stream.significant ⟨ts, source⟩) =
    (verdict? opened ts).getD false := by
  induction ts generalizing opened with
  | nil => rfl
  | cons t ts ih =>
    rw [Stream.significant_cons, verdict?]
    by_cases heof : t.kind = .eof
    · simp [heof, TokenKind.verdict?, ParserState.colonAhead]
    · by_cases htrivia : t.kind.isTrivia = true
      · obtain ⟨hverdict, hopen⟩ : t.kind.verdict? opened = none ∧ t.kind.openBehind opened = opened :=
          TokenKind.verdict?_of_isTrivia htrivia
        rw [if_neg heof, if_pos htrivia, hverdict, hopen, Option.none_or, ih]
      · rw [if_neg heof, if_neg htrivia, colonAhead_cons heof, Token.lexeme, ih, Option.getD_or]

end

namespace Stream

/-! ## Cursors -/

/-- What is left of the tokens a parse looks at is what it would look at from some place on. -/
theorem exists_cursor {s : Stream} {x : List Lexeme} (h : x <:+ s.significant) :
    ∃ cursor ≤ s.tokens.length, x = significant ⟨s.tokens.drop cursor, s.source⟩ := by
  obtain ⟨tokens, source⟩ := s
  induction tokens with
  | nil => exact ⟨0, Nat.le_refl _, List.suffix_nil.1 h⟩
  | cons t ts ih =>
    have hlater (h : x <:+ significant ⟨ts, source⟩) :
        ∃ cursor ≤ (t :: ts).length, x = significant ⟨(t :: ts).drop cursor, source⟩ := by
      obtain ⟨cursor, hle, hx⟩ := ih h
      exact ⟨cursor + 1, Nat.succ_le_succ hle, hx⟩
    have hhere (hx : x = significant ⟨t :: ts, source⟩) :
        ∃ cursor ≤ (t :: ts).length, x = significant ⟨(t :: ts).drop cursor, source⟩ :=
      ⟨0, Nat.zero_le _, hx⟩
    rw [significant_cons] at h
    split at h
    · next heof => exact hhere (by rw [significant_cons, if_pos heof, List.suffix_nil.1 h])
    · next heof =>
      split at h
      · exact hlater h
      · next htrivia =>
        rcases List.suffix_cons_iff.1 h with hx | h
        · exact hhere (by rw [significant_cons, if_neg heof, if_neg htrivia, hx])
        · exact hlater h

/-- The search begins where the cursor is. -/
theorem labelAhead_eq {passed ts : List Token} {source : List Char} :
    labelAhead ⟨passed ++ ts, source⟩ passed.length = (verdict? (0, 0) ts).getD false := by
  rw [labelAhead, List.drop_left]
  exact @colonAhead_significant (0, 0) _ _

end Stream

/-- Wherever a parse stands, what is left for it begins at a place in its stream, and whether it takes this place for a
label goes by the search from there on. -/
theorem Run.exists_cursor {s : Stream} {p : ParserState} {ts : List Lexeme} (h : Run (.start s) ts p) :
    ∃ cursor ≤ s.tokens.length, p.rest = Stream.significant ⟨s.tokens.drop cursor, s.source⟩ ∧
      p.atCaseLabel = (p.kind.canStartExpr && s.labelAhead cursor) := by
  obtain ⟨cursor, hle, hrest⟩ := Stream.exists_cursor h.rest_suffix
  refine ⟨cursor, hle, hrest, ?_⟩
  rw [ParserState.atCaseLabel, hrest, Stream.labelAhead]

/-! ## A `;` in the way -/

section

variable {t : Token} {passed before rest rest' : List Token}

theorem searchSettled_append_singleton {opened : Nat × Nat} {ts : List Token} :
    SearchSettled opened (ts ++ [t]) ↔ SearchSettled opened ts ∨ t.kind.Settles (openBehind opened ts) := by
  simp only [← verdict?_isSome, ← TokenKind.verdict?_isSome, verdict?_append, verdict?, Option.isSome_or,
    Option.or_none, Bool.or_eq_true]

/-- What closes the open brackets, and a colon behind it, let the search find the colon. -/
theorem exists_colon (parens brackets : Nat) : ∃ ts, verdict? (parens, brackets) ts = some true := by
  induction parens with
  | zero =>
    induction brackets with
    | zero => exact ⟨[⟨.colon, .empty 0⟩], rfl⟩
    | succ brackets ih =>
      obtain ⟨ts, h⟩ := ih
      refine ⟨⟨.rBracket, .empty 0⟩ :: ts, ?_⟩
      rw [verdict?, TokenKind.verdict?]
      exact h
  | succ parens ih =>
    obtain ⟨ts, h⟩ := ih
    refine ⟨⟨.rParen, .empty 0⟩ :: ts, ?_⟩
    rw [verdict?, TokenKind.verdict?]
    exact h

/-- What stands behind a `;` makes no difference to the search just if no bracket is open in front of the `;`, or the
answer is settled in front of it. -/
theorem labelAhead_congr_iff (ht : t.kind = .semicolon) :
    (∀ rest rest' source source', Stream.labelAhead ⟨passed ++ (before ++ t :: rest), source⟩ passed.length =
      Stream.labelAhead ⟨passed ++ (before ++ t :: rest'), source'⟩ passed.length) ↔
    openBehind (0, 0) before = (0, 0) ∨ SearchSettled (0, 0) before := by
  have hlook (rest : List Token) (source : List Char) :
      Stream.labelAhead ⟨passed ++ (before ++ t :: rest), source⟩ passed.length =
        ((verdict? (0, 0) (before ++ [t])).or (verdict? (openBehind (0, 0) (before ++ [t])) rest)).getD false := by
    rw [Stream.labelAhead_eq, List.append_cons, verdict?_append]
  simp only [hlook]
  constructor
  · intro h
    by_contra hopen
    have hnone : verdict? (0, 0) (before ++ [t]) = none := by
      rw [← Option.not_isSome_iff_eq_none, verdict?_isSome, searchSettled_append_singleton, ht]
      rintro (h | h | ⟨h, -⟩)
      · exact hopen (.inr h)
      · cases h
      · exact hopen (.inl h)
    -- The answer at the end of the stream, and the one in front of a colon that is outside of all brackets.
    obtain ⟨rest, hrest⟩ := exists_colon (openBehind (0, 0) (before ++ [t])).1 (openBehind (0, 0) (before ++ [t])).2
    have hanswers := h [] rest [] []
    rw [hnone, Option.none_or, Option.none_or, hrest] at hanswers
    cases hanswers
  · intro h rest rest' _ _
    have hsettled : SearchSettled (0, 0) (before ++ [t]) :=
      searchSettled_append_singleton.2 (h.symm.imp id fun h => by rw [ht]; exact .inr ⟨h, .inr rfl⟩)
    obtain ⟨answer, hanswer⟩ := Option.isSome_iff_exists.1 (verdict?_isSome.2 hsettled)
    rw [hanswer, Option.some_or, Option.some_or]

theorem labelAhead_congr_call :
    openBehind (0, 0) (lex "f)(a[i])") = (0, 0) ∧
    Stream.labelAhead ⟨lex "x; " ++ (lex "f)(a[i])" ++ ⟨.semicolon, ⟨11, 12⟩⟩ :: lex " 2: g;"), []⟩ (lex "x; ").length =
      Stream.labelAhead ⟨lex "x; " ++ (lex "f)(a[i])" ++ ⟨.semicolon, ⟨11, 12⟩⟩ :: lex ")]"), []⟩ (lex "x; ").length :=
  have hclosed : openBehind (0, 0) (lex "f)(a[i])") = (0, 0) := rfl
  ⟨hclosed, (labelAhead_congr_iff rfl).2 (.inl hclosed) _ _ _ _⟩

/-- Behind a `;` in an open parenthesis, the search finds the colon of another statement. -/
theorem labelAhead_openParen :
    (lex "f(a; 2): g").take 4 = (lex "f(a; 2: g").take 4 ∧
    ((lex "f(a; 2): g").take 4).map Token.kind = [.ident, .lParen, .ident, .semicolon] ∧
    (Stream.ofText "f(a; 2): g").labelAhead 0 = true ∧ (Stream.ofText "f(a; 2: g").labelAhead 0 = false := by
  have hclosed : lex "f(a; 2): g" = [⟨.ident, ⟨0, 1⟩⟩, ⟨.lParen, ⟨1, 2⟩⟩, ⟨.ident, ⟨2, 3⟩⟩, ⟨.semicolon, ⟨3, 4⟩⟩,
    ⟨.whitespace, ⟨4, 5⟩⟩, ⟨.intLiteral, ⟨5, 6⟩⟩, ⟨.rParen, ⟨6, 7⟩⟩, ⟨.colon, ⟨7, 8⟩⟩, ⟨.whitespace, ⟨8, 9⟩⟩,
    ⟨.ident, ⟨9, 10⟩⟩] := rfl
  have hopen : lex "f(a; 2: g" = [⟨.ident, ⟨0, 1⟩⟩, ⟨.lParen, ⟨1, 2⟩⟩, ⟨.ident, ⟨2, 3⟩⟩, ⟨.semicolon, ⟨3, 4⟩⟩,
    ⟨.whitespace, ⟨4, 5⟩⟩, ⟨.intLiteral, ⟨5, 6⟩⟩, ⟨.colon, ⟨6, 7⟩⟩, ⟨.whitespace, ⟨7, 8⟩⟩, ⟨.ident, ⟨8, 9⟩⟩] := rfl
  rw [Stream.ofText, Stream.ofText, hclosed, hopen]
  exact ⟨rfl, rfl, rfl, rfl⟩

end

end StructuredText
