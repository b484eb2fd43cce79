import StructuredText.Proofs.Lexing.Tiling
import StructuredText.Proofs.Lexing.Symbols
import StructuredText.Proofs.Lexing.Temporal
import StructuredText.Proofs.Roots

/-!
# The tokens of a text

What the parser looks at in a text are its pieces but for trivia, each where it stands (`Stream.significant_ofText`).
Each of these tokens was scanned in front of the text that begins with the next one, or with the trivia before that one
(`Lexed`).
-/

namespace StructuredText

/-- The pieces but for trivia, placed one behind the other from a byte on. -/
def placed : Nat → List Piece → List Lexeme
  | _, [] => []
  | offset, p :: ps =>
    let stop := offset + Text.byteLength p.lexeme
    if p.kind.isTrivia then placed stop ps else ⟨p.kind, ⟨offset, stop⟩, String.ofList p.lexeme⟩ :: placed stop ps

theorem placed_append (offset : Nat) (ps qs : List Piece) :
    placed offset (ps ++ qs) =
      placed offset ps ++ placed (offset + Text.byteLength (ps.flatMap Piece.lexeme)) qs := by
  induction ps generalizing offset with
  | nil => simp [placed]
  | cons p ps ih =>
    simp only [List.cons_append, placed, ih, List.flatMap_cons, Text.byteLength_append, Nat.add_assoc]
    split <;> rfl

/-- Tokens with the texts of the pieces they were placed for. -/
theorem map_lexeme_place {source before after : List Char} {ps : List Piece}
    (h : source = before ++ ps.flatMap Piece.lexeme ++ after) :
    ((place (Text.byteLength before) ps).filter fun t => !t.kind.isTrivia).map (Token.lexeme source) =
      placed (Text.byteLength before) ps := by
  induction ps generalizing before with
  | nil => rfl
  | cons p ps ih =>
    have hsource : source = before ++ p.lexeme ++ (ps.flatMap Piece.lexeme ++ after) := by simp [h]
    have ih := @ih (before ++ p.lexeme) (by simp [h])
    rw [Text.byteLength_append] at ih
    rw [place, placed]
    cases hp : p.kind.isTrivia with
    | true => simpa [hp] using ih
    | false =>
      have htext : Token.text ⟨p.kind, ⟨Text.byteLength before, Text.byteLength before + Text.byteLength p.lexeme⟩⟩
          source = String.ofList p.lexeme := by
        rw [hsource]
        exact Token.text_of_append _
      simp [hp, ih, Token.lexeme, htext]

theorem scanToken_ne_eof (c : Char) (cs : List Char) : (scanToken c cs).kind ≠ .eof := by
  have hsymbol (k : TokenKind) (hk : k.isSymbol = true) : (k == .eof) = false := by
    cases k <;> first | rfl | cases hk
  have htrivia (k : TokenKind) (hk : k.isTriviaOrError = true) : (k == .eof) = false := by
    cases k <;> first | rfl | cases hk
  have htyped (k : TokenKind) (hk : k.isTyped = true) : (k == .eof) = false := by
    cases k <;> first | rfl | cases hk
  have hquote (q : Quote) : (q.kind == .eof) = false := by cases q <;> rfl
  intro h
  rcases scanToken_kinds (p := (· == .eof)) hsymbol htrivia hquote c cs with ⟨-, hs⟩ | ⟨-, hs⟩ | hs
  · have hne := scanWord_not (p := (· == .eof)) (by decide) (fun _ => rfl) htyped (c :: cs)
    rw [← hs, h] at hne
    cases hne
  · have hnumber := isNumber_scanNumber (c :: cs)
    rw [← hs, h] at hnumber
    cases hnumber
  · rw [h] at hs
    cases hs

/-- The dots behind an integer are the beginning of what stands behind it. -/
theorem kind_of_dotsAfter? {s : Scan} {rest : List Char} {dots : Piece} (h : dotsAfter? s = some (dots, rest)) :
    dots.kind = .dot ∨ dots.kind = .dotDot := by
  unfold dotsAfter? at h
  split at h
  · unfold dotsAfterInteger? at h
    split at h
    · cases h
      exact .inl rfl
    · cases h
      exact .inr rfl
    · cases h
      exact .inl rfl
    · cases h
  · cases h

theorem Cuts.kind_ne_eof {cs : List Char} {ps : List Piece} (h : Cuts cs ps) : ∀ p ∈ ps, p.kind ≠ .eof := by
  induction h with
  | nil => simp
  | token _ _ ih => exact List.forall_mem_cons.2 ⟨scanToken_ne_eof _ _, ih⟩
  | dotted hdots _ ih =>
    refine List.forall_mem_cons.2 ⟨scanToken_ne_eof _ _, List.forall_mem_cons.2 ⟨?_, ih⟩⟩
    rcases kind_of_dotsAfter? hdots with h | h <;> rw [h] <;> exact nofun

theorem map_kind_place (offset : Nat) (ps : List Piece) : (place offset ps).map Token.kind = ps.map Piece.kind := by
  induction ps generalizing offset with
  | nil => rfl
  | cons p ps ih => simp [place, ih]

/-- No token of a text ends the stream. -/
theorem Stream.kind_ne_eof_ofText {text : String} : ∀ t ∈ (Stream.ofText text).tokens, t.kind ≠ .eof := by
  intro t ht
  have hmem : t.kind ∈ (pieces text.toList).map Piece.kind := by
    rw [← map_kind_place 0]
    exact List.mem_map_of_mem ht
  obtain ⟨p, hp, hkind⟩ := List.mem_map.1 hmem
  rw [← hkind]
  exact (cuts_pieces _).kind_ne_eof p hp

/-- The parser looks at the pieces but for trivia. -/
theorem Stream.significant_ofText (text : String) :
    (Stream.ofText text).significant = placed 0 (pieces text.toList) := by
  have htext : text.toList = [] ++ (pieces text.toList).flatMap Piece.lexeme ++ [] := by simp [flatMap_pieces]
  rw [Stream.significant_of_no_eof Stream.kind_ne_eof_ofText]
  have hplaced := map_lexeme_place htext
  exact hplaced

/-! ## Tokens in front of the text behind them -/

theorem isTriviaStart_of_isTrivia {c : Char} {cs : List Char} (h : (scanToken c cs).kind.isTrivia = true) :
    isTriviaStart c = true := by
  rcases scanToken_cases c cs with ⟨-, hs⟩ | ⟨-, hs⟩ | ⟨q, -, hs⟩ | ⟨hc, -⟩ | hs
  · have htyped (k : TokenKind) (hk : k.isTyped = true) : k.isTrivia = false := by
      cases k <;> first | rfl | cases hk
    rw [hs, scanWord_not (by decide) (fun _ => rfl) htyped] at h
    cases h
  · have hnumber (k : TokenKind) (hk : k.isNumber = true) : k.isTrivia = false := by
      cases k <;> first | rfl | cases hk
    rw [hs, hnumber _ (isNumber_scanNumber (c :: cs))] at h
    cases h
  · rw [hs, Scan.cons] at h
    rcases q.scan_kind cs with hq | hq
    · rw [hq] at h
      cases q <;> cases h
    · rw [hq] at h
      cases h
  · exact hc
  · have hsymbol (k : TokenKind) (hk : k.isSymbol = true) : k.isTrivia = false := by
      cases k <;> first | rfl | cases hk
    rw [hs, hsymbol _ (isSymbol_scanSymbol c cs)] at h
    cases h

/-- The text begins with the first of the tokens or with trivia. -/
def Heads (f : List Char) (x : List Lexeme) : Prop :=
  ∀ c ∈ f.head?, isTriviaStart c = true ∨ ∃ u y, x = u :: y ∧ u.text.toList.head? = some c

/-- Each token but the dots was scanned in front of a text that begins with the next one or with trivia. -/
inductive Lexed : List Lexeme → Prop
  | nil : Lexed []
  | cons {t : Lexeme} {x : List Lexeme} :
      (t.kind ≠ .dot → t.kind ≠ .dotDot → ∃ f, Scanned t.kind t.text.toList f ∧ Heads f x) → Lexed x →
      Lexed (t :: x)

theorem Lexed.suffix {x y : List Lexeme} (h : Lexed x) (hy : y <:+ x) : Lexed y := by
  obtain ⟨ts, rfl⟩ := hy
  induction ts with
  | nil => exact h
  | cons t ts ih =>
    cases h with
    | cons _ h => exact ih h

theorem Cuts.heads {cs : List Char} {ps : List Piece} (h : Cuts cs ps) (offset : Nat) :
    Heads cs (placed offset ps) := by
  have hfirst (c : Char) (cs : List Char) (qs : List Piece) :
      Heads (c :: cs) (placed offset (⟨(scanToken c cs).kind, (scanToken c cs).lexeme⟩ :: qs)) := by
    intro d hd
    cases hd
    obtain ⟨taken, hl, -⟩ := exists_scanToken_lexeme c cs
    rw [placed]
    split
    · next h => exact .inl (isTriviaStart_of_isTrivia h)
    · exact .inr ⟨_, _, rfl, by rw [hl]; simp⟩
  cases h with
  | nil => exact nofun
  | token => exact hfirst _ _ _
  | dotted => exact hfirst _ _ _

/-- A token is scanned in front of what it leaves. -/
theorem Scanned.of_scanToken (c : Char) (cs : List Char) :
    Scanned (scanToken c cs).kind (String.ofList (scanToken c cs).lexeme).toList (scanToken c cs).rest := by
  obtain ⟨taken, hl, hcs⟩ := exists_scanToken_lexeme c cs
  rw [String.toList_ofList]
  refine ⟨c, taken, hl, ?_⟩
  rw [hcs]

theorem Cuts.lexed {cs : List Char} {ps : List Piece} (h : Cuts cs ps) (offset : Nat) : Lexed (placed offset ps) := by
  induction h generalizing offset with
  | nil => exact .nil
  | token hdots hps ih =>
    rw [placed]
    split
    · exact ih _
    · exact .cons (fun _ _ => ⟨_, .of_scanToken _ _, hps.heads _⟩) (ih _)
  | @dotted c cs rest dots ps hdots hps ih =>
    have hkind := kind_of_dotsAfter? hdots
    have htrivia : dots.kind.isTrivia = false := by rcases hkind with h | h <;> rw [h] <;> rfl
    have hint : (scanToken c cs).kind.isTrivia = false := by
      unfold dotsAfter? at hdots
      split at hdots
      · next h =>
        rw [h.1]
        rfl
      · cases hdots
    obtain ⟨hne, happend⟩ := dotsAfter?_append hdots
    have hheads (o : Nat) (x : List Lexeme) :
        Heads (scanToken c cs).rest
          (⟨dots.kind, ⟨o, o + Text.byteLength dots.lexeme⟩, String.ofList dots.lexeme⟩ :: x) := by
      intro d hd
      refine .inr ⟨_, _, rfl, ?_⟩
      rw [← happend] at hd
      rw [String.toList_ofList]
      cases hl : dots.lexeme with
      | nil => exact absurd hl hne
      | cons e es =>
        rw [hl] at hd
        exact hd
    simp only [placed, hint, htrivia, Bool.false_eq_true, if_false]
    refine .cons (fun _ _ => ⟨_, .of_scanToken _ _, hheads _ _⟩) (.cons (fun hdot hdotDot => ?_) (ih _))
    rcases hkind with h | h
    · exact absurd h hdot
    · exact absurd h hdotDot

/-- Neither a digit nor a sign nor a point begins `::`. -/
theorem scanToken_ne_colonColon {c : Char} (h : (c.isDigit || isSign c || c == '.') = true) (cs : List Char) :
    (scanToken c cs).kind ≠ .colonColon := by
  intro hk
  simp only [Bool.or_eq_true, beq_iff_eq] at h
  rcases h with (hd | hsign) | rfl
  · have hnumber := isNumber_scanNumber (c :: cs)
    rw [← scanToken_of_isDigit hd, hk] at hnumber
    cases hnumber
  · have hc : c = '+' ∨ c = '-' := by simpa [isSign] using hsign
    rcases hc with rfl | rfl
    · rw [Scanned.kind_eq (k := .plus) (.alone rfl rfl (by decide)) rfl] at hk
      cases hk
    · rw [Scanned.kind_eq (k := .minus) (.alone rfl rfl (by decide)) rfl] at hk
      cases hk
  · rw [scanToken_point] at hk
    unfold scanSymbol at hk
    split at hk
    · cases hk
    · rw [symbolOfTwo?_point] at hk
      split at hk
      · next h =>
        split at h <;> cases h
        cases hk
      · cases hk

theorem not_isTriviaStart {c : Char} (h : (c.isDigit || isSign c || c == '.') = true) : ¬isTriviaStart c = true := by
  intro hc
  simp only [isTriviaStart, isBlank, Bool.or_eq_true, beq_iff_eq] at hc
  rcases hc with (((((rfl | rfl) | rfl) | rfl) | rfl) | rfl) | rfl <;> exact absurd h (by decide)

/-- A name in front of `::` is a word. -/
theorem Lexed.isWord {t u : Lexeme} {x : List Lexeme} (h : Lexed (t :: u :: x)) (ht : t.kind = .ident)
    (hu : u.kind = .colonColon) : IsWord t.text.toList := by
  cases h with
  | cons hst h =>
    cases h with
    | cons hsu _ =>
      obtain ⟨f, hs, hheads⟩ := hst (by rw [ht]; exact nofun) (by rw [ht]; exact nofun)
      obtain ⟨g, ⟨c, cs, hc, hscan⟩, -⟩ := hsu (by rw [hu]; exact nofun) (by rw [hu]; exact nofun)
      rw [ht] at hs
      refine hs.isWord ?_
      cases f with
      | nil => rfl
      | cons d ds =>
        rw [← Bool.not_eq_true]
        intro hd
        rcases hheads d rfl with htrivia | ⟨u', y, heq, hhead⟩
        · exact not_isTriviaStart hd htrivia
        · cases heq
          rw [hc] at hhead
          cases hhead
          refine scanToken_ne_colonColon hd (cs ++ g) ?_
          rw [hscan, hu]

/-- The tokens of a text are lexed. -/
theorem lexed_significant (text : String) : Lexed (Stream.ofText text).significant := by
  rw [Stream.significant_ofText]
  exact (cuts_pieces _).lexed 0

end StructuredText
