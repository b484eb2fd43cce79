import StructuredText.Proofs.Lexing.Endings

/-!
# Words

A token that begins with a word is the word (`Scanned.of_word`), or the word with a `#` and what its type lets follow
(`Scanned.of_typed`), and there is no other token of such a kind (`Scanned.word_cases`).
-/

namespace StructuredText

/-- A character that begins another text does not go on with a token that ends in front of it. -/
theorem takeWhile_append_of_not {p : Char → Bool} {w f : List Char} (hw : ∀ c ∈ w, p c = true)
    (hf : startsWith p f = false) : (w ++ f).takeWhile p = w ∧ (w ++ f).dropWhile p = f := by
  rw [List.takeWhile_append_of_pos hw, List.dropWhile_append_of_pos hw]
  cases f with
  | nil => simp
  | cons c cs =>
    have hc : p c = false := hf
    simp [hc]

/-! ## Words -/

/-- A letter or `_`, and letters, digits and `_`. -/
structure IsWord (w : List Char) : Prop where
  start : startsWith isWordStart w = true
  part : ∀ c ∈ w, isWordPart c = true

theorem isWordPart_of_start {c : Char} (h : isWordStart c = true) : isWordPart c = true := by
  simp only [isWordStart, isWordPart, Char.isAlphanum, Bool.or_eq_true] at h ⊢
  exact h.imp_left .inl

theorem isBlank_of_isWordStart {c : Char} (h : isWordStart c = true) : isBlank c = false := by
  rw [Bool.eq_false_iff]
  intro hc
  simp only [isBlank, Bool.or_eq_true, beq_iff_eq] at hc
  rcases hc with ((rfl | rfl) | rfl) | rfl <;> exact absurd h (by decide)

theorem scanToken_of_isWordStart {c : Char} (h : isWordStart c = true) (cs : List Char) :
    scanToken c cs = scanWord (c :: cs) := by
  simp [scanToken, isBlank_of_isWordStart h, h]

theorem scanWord_append {w f : List Char} (hw : ∀ c ∈ w, isWordPart c = true) (hf : startsWith isWordPart f = false) :
    scanWord (w ++ f) = scanAfterWord w f := by
  obtain ⟨htake, hdrop⟩ := takeWhile_append_of_not hw hf
  rw [scanWord, htake, hdrop]

theorem IsWord.scanToken {w f : List Char} (hw : IsWord w) (hf : startsWith isWordPart f = false) :
    ∃ c cs, w = c :: cs ∧ scanToken c (cs ++ f) = scanAfterWord w f := by
  cases w with
  | nil => cases hw.start
  | cons c cs =>
    refine ⟨c, cs, rfl, ?_⟩
    rw [scanToken_of_isWordStart hw.start, ← List.cons_append, scanWord_append hw.part hf]

theorem Scanned.of_word {w f : List Char} (hw : IsWord w) (hf : Delimits f) : Scanned (wordKind w) w f := by
  obtain ⟨c, cs, hcs, hs⟩ := hw.scanToken (hf.startsWith (by decide))
  refine ⟨c, cs, hcs, ?_⟩
  rw [hs]
  cases f with
  | nil => rfl
  | cons d ds =>
    have hd : (d == '#') = false := hf.startsWith (p := (· == '#')) (by decide)
    simp [scanAfterWord, hd]

theorem Scanned.of_typed {w v f : List Char} {k : TokenKind} (hw : IsWord w) (h : scanTyped w (v ++ f) = ⟨k, v, f⟩) :
    Scanned k (w ++ '#' :: v) f := by
  obtain ⟨c, cs, hcs, hs⟩ := hw.scanToken (f := '#' :: (v ++ f)) rfl
  refine ⟨c, cs ++ '#' :: v, by rw [hcs]; rfl, ?_⟩
  rw [List.append_assoc, List.cons_append, hs]
  simp [scanAfterWord, h, Scan.after]

/-! ## The tokens that begin with a word -/

/-- The kinds of the tokens that begin with a word. -/
def TokenKind.isWordy : TokenKind → Bool
  | ident | typedLiteralPrefix | timeLiteral | dateLiteral | timeOfDayLiteral | dateAndTimeLiteral
  | kwTrue | kwFalse | kwThis | kwSuper => true
  | _ => false

theorem isWordStart_of_isWordy {c : Char} {cs : List Char} (h : (scanToken c cs).kind.isWordy = true) :
    isWordStart c = true := by
  have hsymbol (k : TokenKind) (hk : k.isSymbol = true) : k.isWordy = false := by
    cases k <;> first | rfl | cases hk
  have htrivia (k : TokenKind) (hk : k.isTriviaOrError = true) : k.isWordy = false := by
    cases k <;> first | rfl | cases hk
  have hquote (q : Quote) : q.kind.isWordy = false := by cases q <;> rfl
  rcases scanToken_kinds hsymbol htrivia hquote c cs with ⟨hc, -⟩ | ⟨-, hs⟩ | hs
  · exact hc
  · have hnumber := isNumber_scanNumber (c :: cs)
    rw [← hs] at hnumber
    revert h hnumber
    cases (scanToken c cs).kind <;> exact nofun
  · rw [h] at hs
    cases hs

/-- A word is a reserved word, an elementary type or a name, and so of no kind that none of these has. -/
theorem wordKind_not {p : TokenKind → Bool} (hwords : ∀ k ∈ TokenKind.words, p k = false)
    (htypes : ∀ t, p (.type t) = false) (hident : p .ident = false) (w : List Char) : p (wordKind w) = false := by
  unfold wordKind TokenKind.ofWord?
  cases hfind : TokenKind.words.find? (·.spelling == String.ofList (Text.upper w)) with
  | some k => exact hwords k (List.mem_of_find?_eq_some hfind)
  | none =>
    cases ElementaryType.ofSpelling? (String.ofList (Text.upper w)) with
    | some t => exact htypes t
    | none => exact hident

/-- The kinds of what is read of a word with a `#` behind it. -/
def TokenKind.isTyped : TokenKind → Bool
  | typedLiteralPrefix | timeLiteral | dateLiteral | timeOfDayLiteral | dateAndTimeLiteral | ident | error => true
  | _ => false

theorem isTyped_scanDurationFrom (state : DurationState) (cs : List Char) :
    (scanDurationFrom state cs).kind.isTyped = true := by
  fun_induction scanDurationFrom state cs with
  | case1 | case2 | case8 => rfl
  | case5 => split <;> rfl
  | case3 | case4 | case6 | case7 | case9 => assumption

theorem Stamp.isTyped_scan (stamp : Stamp) (cs : List Char) : (stamp.scan cs).kind.isTyped = true := by
  have hkind : stamp.kind.isTyped = true := by cases stamp <;> rfl
  have hseconds (cs : List Char) : (scanSeconds stamp.kind cs).kind.isTyped = true := by
    unfold scanSeconds
    split
    · exact hkind
    · split
      · split
        · exact hkind
        · rfl
      · exact hkind
  unfold scan
  split
  · rfl
  · split
    · rfl
    · split
      · exact hseconds _
      · exact hkind

theorem isTyped_scanTyped (w cs : List Char) : (scanTyped w cs).kind.isTyped = true := by
  unfold scanTyped
  split
  · unfold scanDuration
    split
    · rfl
    · split
      · split
        · exact isTyped_scanDurationFrom _ _
        · rfl
      · split
        · exact isTyped_scanDurationFrom _ _
        · rfl
  · exact Stamp.isTyped_scan _ _
  · exact Stamp.isTyped_scan _ _
  · exact Stamp.isTyped_scan _ _
  · rfl

/-- A token that begins with a word is of no kind that neither words nor typed values have. -/
theorem scanWord_not {p : TokenKind → Bool} (hwords : ∀ k ∈ TokenKind.words, p k = false)
    (htypes : ∀ t, p (.type t) = false) (htyped : ∀ k, k.isTyped = true → p k = false) (cs : List Char) :
    p (scanWord cs).kind = false := by
  have hword := wordKind_not hwords htypes (htyped .ident rfl)
  unfold scanWord scanAfterWord
  split
  · exact hword _
  · split
    · dsimp only [Scan.after]
      exact htyped _ (isTyped_scanTyped _ _)
    · exact hword _

/-- A token of a wordy kind is a word, or begins with one and a `#`. -/
theorem Scanned.word_cases {k : TokenKind} {l f : List Char} (h : Scanned k l f) (hk : k.isWordy = true) :
    (IsWord l ∧ wordKind l = k) ∨
      ∃ w v, l = w ++ '#' :: v ∧ IsWord w ∧ scanTyped w (v ++ f) = ⟨k, v, f⟩ := by
  obtain ⟨c, cs, rfl, hs⟩ := h
  have hc : isWordStart c = true := isWordStart_of_isWordy (by rw [hs]; exact hk)
  rw [scanToken_of_isWordStart hc, scanWord] at hs
  have htext := List.takeWhile_append_dropWhile (p := isWordPart) (l := c :: (cs ++ f))
  have hpart : ∀ d ∈ (c :: (cs ++ f)).takeWhile isWordPart, isWordPart d = true :=
    List.all_eq_true.1 List.all_takeWhile
  have hstart : startsWith isWordStart ((c :: (cs ++ f)).takeWhile isWordPart) = true := by
    rw [List.takeWhile_cons_of_pos (isWordPart_of_start hc)]
    exact hc
  revert hs htext hpart hstart
  generalize (c :: (cs ++ f)).takeWhile isWordPart = w
  generalize (c :: (cs ++ f)).dropWhile isWordPart = r
  intro hs htext hpart hstart
  have hw : IsWord w := ⟨hstart, hpart⟩
  unfold scanAfterWord at hs
  split at hs
  · cases hs
    exact .inl ⟨hw, rfl⟩
  · next d ds =>
    split at hs
    · next hd =>
      rw [eq_of_beq hd] at *
      have hof := scanTyped_of w ds
      have hscan := congrArg Scan.kind hs
      have hlexeme := congrArg Scan.lexeme hs
      have hrest := congrArg Scan.rest hs
      simp only [Scan.after] at hscan hlexeme hrest
      refine .inr ⟨w, (scanTyped w ds).lexeme, by rw [← hlexeme]; simp, hw, ?_⟩
      have hds : (scanTyped w ds).lexeme ++ f = ds := by rw [← hrest]; exact hof
      rw [hds, ← hscan, ← hrest]
    · cases hs
      exact .inl ⟨hw, rfl⟩

end StructuredText
