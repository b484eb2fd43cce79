import StructuredText.Token.Lexer

/-!
# The pieces of a text

A scan takes the character it begins with (`exists_scanToken_lexeme`), and the dots cut off behind an integer are the
next characters of the text (`dotsAfter?_append`). So the bound on the number of pieces cuts nothing off, and the pieces
are the only ones that cut the text up (`cuts_iff`). None is empty, and one behind the other they are the text
(`flatMap_pieces`).
-/

namespace StructuredText

/-! ## One token takes a character -/

theorem scanAfterWord_ne_nil {word : List Char} (h : word ≠ []) (cs : List Char) :
    (scanAfterWord word cs).lexeme ≠ [] := by
  unfold scanAfterWord
  split
  · exact h
  · split
    · simp [Scan.after]
    · exact h

theorem scanWord_ne_nil {c : Char} (h : isWordStart c = true) (cs : List Char) : (scanWord (c :: cs)).lexeme ≠ [] := by
  have hpart : isWordPart c = true := by
    simp only [isWordStart, isWordPart, Char.isAlphanum, Bool.or_eq_true] at h ⊢
    exact h.imp_left .inl
  apply scanAfterWord_ne_nil
  simp [hpart]

theorem scanAfterWhole_ne_nil {whole : List Char} (h : whole ≠ []) (cs : List Char) :
    (scanAfterWhole whole cs).lexeme ≠ [] := by
  unfold scanAfterWhole
  split
  · exact h
  · split
    · split <;> simp
    · split
      · simp
      · exact h
    · exact h

theorem scanNumber_ne_nil {c : Char} (h : c.isDigit = true) (cs : List Char) : (scanNumber (c :: cs)).lexeme ≠ [] := by
  apply scanAfterWhole_ne_nil
  show (digitGroups Char.isDigit (c :: cs)).1 ≠ []
  unfold digitGroups
  rw [if_pos (by simp [h])]
  exact List.cons_ne_nil _ _

theorem scanBlockComment?_ne_nil {c : Char} {cs : List Char} {s : Scan} (h : scanBlockComment? c cs = some s) :
    s.lexeme ≠ [] := by
  unfold scanBlockComment? at h
  split at h
  · split at h
    · cases h; simp [Scan.after]
    · split at h
      · cases h; simp [Scan.after]
      · cases h
  · cases h

theorem scanSymbol_ne_nil (c : Char) (cs : List Char) : (scanSymbol c cs).lexeme ≠ [] := by
  unfold scanSymbol
  split
  · exact List.cons_ne_nil _ _
  · split <;> exact List.cons_ne_nil _ _

theorem scanToken_ne_nil (c : Char) (cs : List Char) : (scanToken c cs).lexeme ≠ [] := by
  unfold scanToken
  split
  · exact List.cons_ne_nil _ _
  · split
    · next h => exact scanWord_ne_nil h cs
    · split
      · next h => exact scanNumber_ne_nil h cs
      · split
        · simp [Scan.cons]
        · split
          · simp [Scan.cons]
          · split
            · simp [Scan.cons]
            · split
              · simp [Scan.cons]
              · cases h : scanBlockComment? c cs with
                | none => exact scanSymbol_ne_nil c cs
                | some s => exact scanBlockComment?_ne_nil h

/-- The token that begins with `c` takes `c`. -/
theorem exists_scanToken_lexeme (c : Char) (cs : List Char) :
    ∃ taken, (scanToken c cs).lexeme = c :: taken ∧ taken ++ (scanToken c cs).rest = cs := by
  have hof := scanToken_of c cs
  rw [Scan.Of] at hof
  cases h : (scanToken c cs).lexeme with
  | nil => exact absurd h (scanToken_ne_nil c cs)
  | cons d taken =>
    rw [h, List.cons_append] at hof
    obtain ⟨rfl, hcs⟩ := List.cons.inj hof
    exact ⟨taken, rfl, hcs⟩

/-! ## Dots behind an integer -/

theorem dotsAfterInteger?_append {cs rest : List Char} {dots : Piece} (h : dotsAfterInteger? cs = some (dots, rest)) :
    dots.lexeme ≠ [] ∧ dots.lexeme ++ rest = cs := by
  unfold dotsAfterInteger? at h
  split at h <;> cases h <;> exact ⟨List.cons_ne_nil _ _, rfl⟩

theorem dotsAfter?_append {s : Scan} {rest : List Char} {dots : Piece} (h : dotsAfter? s = some (dots, rest)) :
    dots.lexeme ≠ [] ∧ dots.lexeme ++ rest = s.rest := by
  unfold dotsAfter? at h
  split at h
  · exact dotsAfterInteger?_append h
  · cases h

/-! ## All pieces -/

/-- The pieces cut the text up, token by token, with the dots behind an integer cut off on their own. -/
inductive Cuts : List Char → List Piece → Prop
  | nil : Cuts [] []
  | token {c : Char} {cs : List Char} {ps : List Piece} :
      dotsAfter? (scanToken c cs) = none → Cuts (scanToken c cs).rest ps →
        Cuts (c :: cs) (⟨(scanToken c cs).kind, (scanToken c cs).lexeme⟩ :: ps)
  | dotted {c : Char} {cs rest : List Char} {dots : Piece} {ps : List Piece} :
      dotsAfter? (scanToken c cs) = some (dots, rest) → Cuts rest ps →
        Cuts (c :: cs) (⟨(scanToken c cs).kind, (scanToken c cs).lexeme⟩ :: dots :: ps)

/-- A token that is known is the first piece, if no dots are cut off behind it. -/
theorem Cuts.of_token {c : Char} {cs : List Char} {scan : Scan} {ps : List Piece} (h : scanToken c cs = scan)
    (hdots : dotsAfter? scan = none) (hps : Cuts scan.rest ps) : Cuts (c :: cs) (⟨scan.kind, scan.lexeme⟩ :: ps) := by
  subst h
  exact .token hdots hps

/-- A bound that the text does not exceed cuts nothing off. -/
theorem piecesWithin_cuts (fuel : Nat) (cs : List Char) (h : cs.length ≤ fuel) : Cuts cs (piecesWithin fuel cs) := by
  induction fuel generalizing cs with
  | zero =>
    rw [List.eq_nil_of_length_eq_zero (Nat.le_zero.1 h)]
    exact .nil
  | succ fuel ih =>
    cases cs with
    | nil => exact .nil
    | cons c cs =>
      obtain ⟨taken, -, hcs⟩ := exists_scanToken_lexeme c cs
      have hle : (scanToken c cs).rest.length ≤ fuel := by
        have := congrArg List.length hcs
        simp only [List.length_append, List.length_cons] at this h
        omega
      unfold piecesWithin
      cases hdots : dotsAfter? (scanToken c cs) with
      | none =>
        simp only [hdots]
        exact .token hdots (ih _ hle)
      | some found =>
        obtain ⟨dots, rest⟩ := found
        have := congrArg List.length (dotsAfter?_append hdots).2
        simp only [List.length_append] at this
        simp only [hdots]
        exact .dotted hdots (ih rest (by omega))

theorem cuts_pieces (cs : List Char) : Cuts cs (pieces cs) := piecesWithin_cuts _ cs (Nat.le_refl _)

/-- No text is cut up in two ways. -/
theorem Cuts.unique {cs : List Char} {ps qs : List Piece} (h : Cuts cs ps) (h' : Cuts cs qs) : qs = ps := by
  induction h generalizing qs with
  | nil => cases h'; rfl
  | token hdots _ ih =>
    cases h' with
    | token _ h' => rw [ih h']
    | dotted hdots' _ => rw [hdots] at hdots'; cases hdots'
  | dotted hdots _ ih =>
    cases h' with
    | token hdots' _ => rw [hdots] at hdots'; cases hdots'
    | dotted hdots' h' =>
      rw [hdots] at hdots'
      cases hdots'
      rw [ih h']

theorem cuts_iff {cs : List Char} {ps : List Piece} : Cuts cs ps ↔ pieces cs = ps :=
  ⟨fun h => h.unique (cuts_pieces cs), fun h => h ▸ cuts_pieces cs⟩

/-- The pieces one behind the other are the text. -/
theorem Cuts.flatMap_lexeme {cs : List Char} {ps : List Piece} (h : Cuts cs ps) : ps.flatMap Piece.lexeme = cs := by
  induction h with
  | nil => rfl
  | token _ _ ih => rw [List.flatMap_cons, ih, scanToken_of]
  | dotted hdots _ ih =>
    rw [List.flatMap_cons, List.flatMap_cons, ih, (dotsAfter?_append hdots).2, scanToken_of]

theorem Cuts.lexeme_ne_nil {cs : List Char} {ps : List Piece} (h : Cuts cs ps) : ∀ p ∈ ps, p.lexeme ≠ [] := by
  induction h with
  | nil => simp
  | token _ _ ih => exact List.forall_mem_cons.2 ⟨scanToken_ne_nil _ _, ih⟩
  | dotted hdots _ ih =>
    exact List.forall_mem_cons.2
      ⟨scanToken_ne_nil _ _, List.forall_mem_cons.2 ⟨(dotsAfter?_append hdots).1, ih⟩⟩

theorem flatMap_pieces (cs : List Char) : (pieces cs).flatMap Piece.lexeme = cs := (cuts_pieces cs).flatMap_lexeme

end StructuredText
