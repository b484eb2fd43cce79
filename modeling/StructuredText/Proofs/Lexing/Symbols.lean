import StructuredText.Proofs.Lexing.Words

/-!
# Symbols, blanks and reserved words in source form

A symbol of two characters is a token whatever stands behind it (`Scanned.two`); one of a single character is a token
in front of a character that it makes no longer symbol and no comment with (`Scanned.one`, `Scanned.alone`).
-/

namespace StructuredText

variable {c d : Char} {k : TokenKind} {f : List Char}

/-- The characters that a longer symbol begins with. -/
def longSymbolStarts : List Char := [':', '.', '=', '<', '>', '*', '%']

theorem symbolOfTwo?_eq_none (hc : c ∉ longSymbolStarts) (d : Char) : symbolOfTwo? c d = none := by
  unfold symbolOfTwo?
  split <;> first | rfl | exact absurd (by decide) hc

theorem symbolOfTwo?_point (d : Char) : symbolOfTwo? '.' d = if d = '.' then some .dotDot else none := by
  by_cases hd : d = '.'
  · rw [hd]
    rfl
  · rw [if_neg hd]
    unfold symbolOfTwo?
    split <;> simp_all

theorem Scanned.one (hk : symbolOfOne? c = some k) (hc : isSymbolStart c = true)
    (hslash : c = '/' → startsWith (fun d => d == '/' || d == '*') f = false)
    (hparen : c = '(' → startsWith (· == '*') f = false) (htwo : ∀ d ∈ f.head?, symbolOfTwo? c d = none) :
    Scanned k [c] f := by
  refine ⟨c, [], rfl, ?_⟩
  rw [List.nil_append, scanToken_of_symbol hc hslash hparen]
  cases f with
  | nil => simp [scanSymbol, hk]
  | cons d ds => simp [scanSymbol, htwo d rfl, hk]

/-- A character that begins no longer symbol and no comment. -/
theorem Scanned.alone (hk : symbolOfOne? c = some k) (hc : isSymbolStart c = true)
    (hlong : c ∉ '/' :: '(' :: longSymbolStarts) : Scanned k [c] f := by
  simp only [List.mem_cons, not_or] at hlong
  exact .one hk hc (fun h => absurd h hlong.1) (fun h => absurd h hlong.2.1)
    fun d _ => symbolOfTwo?_eq_none (by simpa [longSymbolStarts] using hlong.2.2) d

/-- The kind of the token that a symbol begins. -/
theorem Scanned.kind_eq {cs : List Char} (h : Scanned k [c] f) (hcs : cs = f) : (scanToken c cs).kind = k := by
  obtain ⟨d, ds, hl, hs⟩ := h
  cases hl
  rw [hcs, ← List.nil_append f, hs]

theorem Scanned.two (hk : symbolOfTwo? c d = some k) (hc : isSymbolStart c = true)
    (hlong : c ∈ longSymbolStarts) : Scanned k [c, d] f := by
  refine ⟨c, [d], rfl, ?_⟩
  have hne : c ≠ '/' ∧ c ≠ '(' := by
    constructor <;> rintro rfl <;> exact absurd hlong (by decide)
  rw [List.singleton_append, scanToken_of_symbol hc (fun h => absurd h hne.1) (fun h => absurd h hne.2)]
  simp [scanSymbol, hk]

/-- A symbol is its spelling, but for the letter of an access width. -/
theorem Scanned.eq_spelling {l : List Char} (h : Scanned k l f) (hk : k.isSymbol = true) (herror : k ≠ .error)
    (haccess : ∀ w, k ≠ .access w) : l = k.spelling.toList := by
  have hone {c : Char} (h : (symbolOfOne? c).getD .error = k) : [c] = k.spelling.toList := by
    unfold symbolOfOne? at h
    split at h <;> subst h <;> first | rfl | exact absurd rfl herror
  obtain ⟨c, cs, rfl, hs⟩ := h
  rcases scanToken_cases c (cs ++ f) with ⟨-, hw⟩ | ⟨-, hn⟩ | ⟨q, -, hq⟩ | ⟨-, ht⟩ | hsymbol
  · have htyped (k : TokenKind) (hk : k.isTyped = true) : (k.isSymbol && k != .error) = false := by
      cases k <;> first | rfl | cases hk
    have hnot := scanWord_not (p := fun k => k.isSymbol && k != .error) (by decide) (fun _ => rfl) htyped
      (c :: (cs ++ f))
    rw [← hw, hs] at hnot
    simp [hk, herror] at hnot
  · have hnumber := isNumber_scanNumber (c :: (cs ++ f))
    rw [← hn, hs] at hnumber
    revert hk hnumber
    cases k <;> exact nofun
  · have hkind := q.scan_kind (cs ++ f)
    have hscan : (q.scan (cs ++ f)).kind = k := by
      rw [hq] at hs
      exact congrArg Scan.kind hs
    rw [hscan] at hkind
    rcases hkind with rfl | rfl
    · cases q <;> cases hk
    · exact absurd rfl herror
  · rw [hs] at ht
    revert hk herror ht
    cases k <;> exact nofun
  · rw [hsymbol] at hs
    unfold scanSymbol at hs
    split at hs
    · cases hs
      exact hone rfl
    · split at hs
      · next htwo =>
        cases hs
        unfold symbolOfTwo? at htwo
        split at htwo
        iterate 8 cases htwo; rfl
        · obtain ⟨w, -, rfl⟩ := Option.map_eq_some_iff.1 htwo
          exact absurd rfl (haccess w)
        · cases htwo
      · cases hs
        exact hone rfl

/-- An opening parenthesis, unless it opens a comment. -/
theorem Scanned.lParen (hf : startsWith (· == '*') f = false) : Scanned .lParen ['('] f :=
  .one rfl rfl nofun (fun _ => hf) fun _ _ => symbolOfTwo?_eq_none (by decide) _

/-- A point, unless it is the first one of two. -/
theorem Scanned.dot (hf : startsWith (· == '.') f = false) : Scanned .dot ['.'] f := by
  refine .one rfl rfl nofun nofun fun d hd => ?_
  cases f with
  | nil => cases hd
  | cons e es =>
    cases hd
    rw [symbolOfTwo?_point, if_neg (beq_eq_false_iff_ne.1 hf)]

/-- A colon in front of a digit. -/
theorem Scanned.colon (hf : startsWith Char.isDigit f = true) : Scanned .colon [':'] f := by
  refine .one rfl rfl nofun nofun fun d hd => ?_
  cases f with
  | nil => cases hd
  | cons e es =>
    cases hd
    have he : d.isDigit = true := hf
    have hcolon : d ≠ ':' := by
      rintro rfl
      cases he
    have heq : d ≠ '=' := by
      rintro rfl
      cases he
    unfold symbolOfTwo?
    split <;> simp_all

/-- A blank in front of a text that begins with none. -/
theorem Scanned.blank (hf : startsWith isBlank f = false) : Scanned .whitespace [' '] f := by
  refine ⟨' ', [], rfl, ?_⟩
  obtain ⟨htake, hdrop⟩ := takeWhile_append_of_not (p := isBlank) (w := []) nofun hf
  rw [List.nil_append] at htake hdrop ⊢
  simp [scanToken, isBlank, htake, hdrop]

/-- A reserved word in front of a delimiter. -/
theorem Scanned.reserved (hk : k ∈ TokenKind.words) (hf : Delimits f) : Scanned k k.spelling.toList f := by
  have hwords : ∀ k ∈ TokenKind.words, startsWith isWordStart k.spelling.toList = true ∧
      k.spelling.toList.all isWordPart = true ∧ String.ofList (Text.upper k.spelling.toList) = k.spelling := by decide
  obtain ⟨hstart, hpart, hupper⟩ := hwords k hk
  have hkind : wordKind k.spelling.toList = k := by
    rw [wordKind, hupper, TokenKind.ofWord?_spelling k hk]
    rfl
  have h := Scanned.of_word ⟨hstart, List.all_eq_true.1 hpart⟩ hf
  rwa [hkind] at h

end StructuredText
