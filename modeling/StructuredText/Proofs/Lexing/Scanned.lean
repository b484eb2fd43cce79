import StructuredText.Proofs.Lexing.Pieces

/-!
# Tokens and what stands behind them

`Scanned k l f` says that the text `l` is scanned as one token of the kind `k` where `f` stands behind it, and
`Cut a ps f` that the text `a` is cut into the pieces `ps` there. What is cut part by part, each in front of the next
one, is cut as a whole (`Cut.append`); and a token is a piece of its own (`Scanned.cut`), unless it is an integer in
front of three dots. The first character of a token tells by which scanner it is read (`scanToken_cases`), and so of
which kinds it may be (`scanToken_kinds`).
-/

namespace StructuredText

/-! ## Symbols -/

/-- A character that begins no blanks, word, number, string or pragma. -/
def isSymbolStart (c : Char) : Bool :=
  !(isBlank c || isWordStart c || c.isDigit || c == Quote.single.mark || c == Quote.double.mark || c == '\x7b')

/-- A character that begins nothing else begins a symbol, unless it opens a comment. -/
theorem scanToken_of_symbol {c : Char} {cs : List Char} (hc : isSymbolStart c = true)
    (hslash : c = '/' → startsWith (fun d => d == '/' || d == '*') cs = false)
    (hparen : c = '(' → startsWith (· == '*') cs = false) : scanToken c cs = scanSymbol c cs := by
  simp only [isSymbolStart, Bool.not_eq_true', Bool.or_eq_false_iff] at hc
  obtain ⟨⟨⟨⟨⟨h₁, h₂⟩, h₃⟩, h₄⟩, h₅⟩, h₆⟩ := hc
  have hline : (c == '/' && startsWith (· == '/') cs) = false := by
    by_cases h : c = '/'
    · have := hslash h
      cases cs with
      | nil => simp [startsWith]
      | cons d ds => simp_all [startsWith]
    · simp [h]
  have hblock : scanBlockComment? c cs = none := by
    unfold scanBlockComment?
    split
    · rw [if_neg fun h => ?_, if_neg fun h => ?_]
      · simpa [startsWith] using hslash (eq_of_beq h)
      · simpa [startsWith] using hparen (eq_of_beq h)
    · rfl
  simp only [scanToken, h₁, h₂, h₃, h₄, h₅, h₆, hline, hblock, Bool.false_eq_true, if_false, Option.getD_none]

/-- The scan of a point, or of two. -/
theorem scanToken_point (cs : List Char) : scanToken '.' cs = scanSymbol '.' cs :=
  scanToken_of_symbol rfl nofun nofun

/-! ## What a token begins with -/

/-- Symbols, and text that is no token. -/
def TokenKind.isSymbol : TokenKind → Bool
  | semicolon | colon | colonColon | comma | dot | dotDot | lParen | rParen | lBracket | rBracket | hash
  | assign | arrow | eq | neq | lt | ltEq | gt | gtEq | plus | minus | star | slash | power | ampersand | access _
  | error => true
  | _ => false

/-- The characters that trivia begin with. -/
def isTriviaStart (c : Char) : Bool := isBlank c || c == '(' || c == '/' || c == '\x7b'

/-- Trivia, and text that is no token. -/
def TokenKind.isTriviaOrError (k : TokenKind) : Bool := k.isTrivia || k == .error

theorem isSymbol_scanSymbol (c : Char) (cs : List Char) : (scanSymbol c cs).kind.isSymbol = true := by
  have hone : ((symbolOfOne? c).getD .error).isSymbol = true := by
    unfold symbolOfOne?
    split <;> rfl
  unfold scanSymbol
  split
  · exact hone
  · split
    · next h =>
      unfold symbolOfTwo? at h
      split at h
      iterate 8 cases h; rfl
      · obtain ⟨w, -, rfl⟩ := Option.map_eq_some_iff.1 h
        rfl
      · cases h
    · exact hone

theorem scanPragma_kind (cs : List Char) : (scanPragma cs).kind.isTriviaOrError = true := by
  unfold scanPragma
  split <;> rfl

/-- A block comment begins with its style's character. -/
theorem scanBlockComment?_kind {c : Char} {cs : List Char} {s : Scan} (h : scanBlockComment? c cs = some s) :
    isTriviaStart c = true ∧ s.kind.isTriviaOrError = true := by
  have hstyle (style : CommentStyle) (cs : List Char) : (style.scan cs).kind.isTriviaOrError = true := by
    unfold CommentStyle.scan
    split <;> rfl
  unfold scanBlockComment? at h
  split at h
  · split at h
    · next hc =>
      cases h
      exact ⟨by simp [isTriviaStart, eq_of_beq hc], hstyle _ _⟩
    · split at h
      · next hc =>
        cases h
        exact ⟨by simp [isTriviaStart, eq_of_beq hc], hstyle _ _⟩
      · cases h
  · cases h

/-- The first character of a token tells a word, a number, a quoted string, trivia and a symbol from one another. -/
theorem scanToken_cases (c : Char) (cs : List Char) :
    (isWordStart c = true ∧ scanToken c cs = scanWord (c :: cs)) ∨
    (c.isDigit = true ∧ scanToken c cs = scanNumber (c :: cs)) ∨
    (∃ q : Quote, c = q.mark ∧ scanToken c cs = (q.scan cs).cons c) ∨
    (isTriviaStart c = true ∧ (scanToken c cs).kind.isTriviaOrError = true) ∨
    scanToken c cs = scanSymbol c cs := by
  unfold scanToken
  split
  · next hc => exact .inr (.inr (.inr (.inl ⟨by simp [isTriviaStart, hc], rfl⟩)))
  · split
    · next hc => exact .inl ⟨hc, rfl⟩
    · split
      · next hc => exact .inr (.inl ⟨hc, rfl⟩)
      · split
        · next hc => exact .inr (.inr (.inl ⟨.single, eq_of_beq hc, rfl⟩))
        · split
          · next hc => exact .inr (.inr (.inl ⟨.double, eq_of_beq hc, rfl⟩))
          · split
            · next hc =>
              exact .inr (.inr (.inr (.inl ⟨by simp [isTriviaStart, eq_of_beq hc], scanPragma_kind cs⟩)))
            · split
              · next hc =>
                rw [Bool.and_eq_true] at hc
                exact .inr (.inr (.inr (.inl ⟨by simp [isTriviaStart, eq_of_beq hc.1], rfl⟩)))
              · cases h : scanBlockComment? c cs with
                | none => exact .inr (.inr (.inr (.inr rfl)))
                | some s => exact .inr (.inr (.inr (.inl (scanBlockComment?_kind h))))

/-- The kinds of numbers. -/
def TokenKind.isNumber : TokenKind → Bool
  | intLiteral | nonDecimalLiteral | realLiteral => true
  | _ => false

theorem isNumber_scanNumber (cs : List Char) : (scanNumber cs).kind.isNumber = true := by
  unfold scanNumber
  dsimp only
  unfold scanAfterWhole
  split
  · rfl
  · split
    · split <;> rfl
    · split <;> rfl
    · rfl

theorem Quote.scan_kind (q : Quote) (cs : List Char) : (q.scan cs).kind = q.kind ∨ (q.scan cs).kind = .error := by
  have hfrom (state : QuotedState) (skip : Nat) :
      (q.scanFrom state skip cs).kind = q.kind ∨ (q.scanFrom state skip cs).kind = .error := by
    fun_induction scanFrom q state skip cs with
    | case1 | case3 | case7 => exact .inr rfl
    | case4 =>
      split
      · exact .inr rfl
      · exact .inl rfl
    | case2 | case5 | case6 | case8 => assumption
  exact hfrom _ _

/-- What holds of the kinds of symbols, of trivia and of errors holds of a token that begins otherwise than with a word,
a number or a quotation mark. -/
theorem scanToken_kinds {p : TokenKind → Bool} (hsymbol : ∀ k, k.isSymbol = true → p k = false)
    (htrivia : ∀ k, k.isTriviaOrError = true → p k = false) (hquote : ∀ q : Quote, p q.kind = false) (c : Char)
    (cs : List Char) :
    (isWordStart c = true ∧ scanToken c cs = scanWord (c :: cs)) ∨
    (c.isDigit = true ∧ scanToken c cs = scanNumber (c :: cs)) ∨ p (scanToken c cs).kind = false := by
  rcases scanToken_cases c cs with h | h | ⟨q, -, hs⟩ | ⟨-, hs⟩ | hs
  · exact .inl h
  · exact .inr (.inl h)
  · refine .inr (.inr ?_)
    rw [hs, Scan.cons]
    rcases q.scan_kind cs with hq | hq
    · rw [hq]
      exact hquote q
    · rw [hq]
      exact htrivia _ rfl
  · exact .inr (.inr (htrivia _ hs))
  · rw [hs]
    exact .inr (.inr (hsymbol _ (isSymbol_scanSymbol c cs)))

/-! ## Cutting part by part -/

/-- The text is scanned as one token of the kind in front of `f`. -/
def Scanned (k : TokenKind) (l f : List Char) : Prop := ∃ c cs, l = c :: cs ∧ scanToken c (cs ++ f) = ⟨k, l, f⟩

/-- The text is cut into the pieces in front of `f`. -/
def Cut (a : List Char) (ps : List Piece) (f : List Char) : Prop :=
  ∀ ⦃qs : List Piece⦄, Cuts f qs → Cuts (a ++ f) (ps ++ qs)

theorem Cut.append {a b f : List Char} {ps qs : List Piece} (ha : Cut a ps (b ++ f)) (hb : Cut b qs f) :
    Cut (a ++ b) (ps ++ qs) f := by
  intro rs hf
  rw [List.append_assoc, List.append_assoc]
  exact ha (hb hf)

theorem Cut.cuts {a : List Char} {ps : List Piece} (h : Cut a ps []) : Cuts a ps := by
  simpa using h Cuts.nil

/-- A token other than an integer is a piece. -/
theorem Cuts.of_scan {c : Char} {cs rest l : List Char} {k : TokenKind} {ps : List Piece} (h : Cuts (c :: cs) ps)
    (hs : scanToken c cs = ⟨k, l, rest⟩) (hk : k ≠ .intLiteral) : ∃ qs, ps = ⟨k, l⟩ :: qs ∧ Cuts rest qs := by
  have hdots : dotsAfter? (scanToken c cs) = none := by
    rw [hs, dotsAfter?, if_neg fun h => hk h.1]
  generalize hcs : c :: cs = text at h
  cases h with
  | nil => cases hcs
  | token _ h =>
    cases hcs
    rw [hs] at h ⊢
    exact ⟨_, rfl, h⟩
  | dotted hd _ =>
    cases hcs
    rw [hdots] at hd
    cases hd

/-- The dots behind an integer are the next token, unless there are three of them. -/
theorem scan_of_dotsAfterInteger? {cs rest : List Char} {dots : Piece} (h : dotsAfterInteger? cs = some (dots, rest))
    (hthree : ¬['.', '.', '.'] <+: cs) :
    ∃ ds, cs = '.' :: ds ∧ scanToken '.' ds = ⟨dots.kind, dots.lexeme, rest⟩ ∧ dots.kind ≠ .intLiteral := by
  unfold dotsAfterInteger? at h
  split at h
  · next g => exact absurd ⟨g, rfl⟩ hthree
  · cases h
    exact ⟨_, rfl, rfl, by decide⟩
  · next _ htwo =>
    cases h
    refine ⟨_, rfl, ?_, by decide⟩
    rw [scanToken_point]
    cases rest with
    | nil => rfl
    | cons d ds =>
      have hd : d ≠ '.' := by
        rintro rfl
        exact htwo ds rfl
      have hnone : symbolOfTwo? '.' d = none := by
        unfold symbolOfTwo?
        split <;> simp_all
      simp only [scanSymbol, hnone]
      rfl
  · cases h

theorem Cuts.cons {k : TokenKind} {l f : List Char} {ps : List Piece} (h : Scanned k l f)
    (hthree : k = .intLiteral → ¬['.', '.', '.'] <+: f) (hf : Cuts f ps) : Cuts (l ++ f) (⟨k, l⟩ :: ps) := by
  obtain ⟨c, cs, rfl, hs⟩ := h
  cases hd : dotsAfter? (scanToken c (cs ++ f)) with
  | none =>
    have hcuts := Cuts.token hd (by rw [hs]; exact hf)
    rwa [hs] at hcuts
  | some found =>
    obtain ⟨dots, rest⟩ := found
    have hd' := hd
    rw [hs, dotsAfter?] at hd'
    split at hd'
    · next hint =>
      obtain ⟨ds, rfl, hscan, hk⟩ := scan_of_dotsAfterInteger? hd' (hthree hint.1)
      obtain ⟨qs, rfl, hqs⟩ := hf.of_scan hscan hk
      have hcuts := Cuts.dotted hd hqs
      rwa [hs] at hcuts
    · cases hd'

theorem Scanned.cut {k : TokenKind} {l f : List Char} (h : Scanned k l f)
    (hthree : k = .intLiteral → ¬['.', '.', '.'] <+: f) : Cut l [⟨k, l⟩] f :=
  fun _ hf => Cuts.cons h hthree hf

/-- A token in front of what is cut. -/
theorem Cut.cons {k : TokenKind} {l b f : List Char} {ps : List Piece} (h : Scanned k l (b ++ f))
    (hthree : k = .intLiteral → ¬['.', '.', '.'] <+: b ++ f) (hb : Cut b ps f) : Cut (l ++ b) (⟨k, l⟩ :: ps) f :=
  (h.cut hthree).append hb

end StructuredText
