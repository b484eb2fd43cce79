import StructuredText.Proofs.Grammar.Expr
import StructuredText.Proofs.Lexing.Lexed
import StructuredText.Proofs.Lexing.Quoted
import StructuredText.Proofs.Printing.Apart
import StructuredText.Proofs.Printing.Plain

/-!
# Literals and names in source form

The value of a literal that is one token is written as one token of the same kind (`TokenPrinted`), with its separators
removed, its escapes written anew and its letters in upper case as need be.
-/

namespace StructuredText

/-! ## First characters -/

/-- The characters that an expression begins with. -/
def isExprStart (c : Char) : Bool :=
  isWordStart c || c.isDigit || c == Quote.single.mark || c == Quote.double.mark || c == '(' || c == '+' || c == '-'

theorem isExprStart_of_isWordStart {c : Char} (h : isWordStart c = true) : isExprStart c = true := by
  simp [isExprStart, h]

section

variable {p q : Char → Bool} {l : List Char}

theorem startsWith_append (h : startsWith p l = true) (f : List Char) : startsWith p (l ++ f) = true := by
  cases l with
  | nil => cases h
  | cons c cs => exact h

theorem startsWith_mono (h : startsWith p l = true) (hpq : ∀ c, p c = true → q c = true) : startsWith q l = true := by
  cases l with
  | nil => cases h
  | cons c cs => exact hpq c h

theorem startsWith_beq {c : Char} (h : startsWith p l = true) (hc : p c = false) : startsWith (· == c) l = false := by
  refine startsWith_of_disjoint h fun d hd => beq_eq_false_iff_ne.2 ?_
  rintro rfl
  rw [hc] at hd
  cases hd

theorem startsWith_isBlank (h : startsWith isExprStart l = true) : startsWith isBlank l = false := by
  refine startsWith_of_disjoint h fun c hc => Bool.eq_false_iff.2 fun hb => ?_
  simp only [isBlank, Bool.or_eq_true, beq_iff_eq] at hb
  rcases hb with ((rfl | rfl) | rfl) | rfl <;> cases hc

theorem startsWith_isDigit (h : startsWith isWordStart l = true) : startsWith Char.isDigit l = false := by
  refine startsWith_of_disjoint h fun c hc => Bool.eq_false_iff.2 fun hd => ?_
  rw [isWordStart_of_isDigit hd] at hc
  cases hc

end

/-! ## Literals of one token -/

/-- The token of a literal and its source form are read alike. -/
structure TokenPrinted (kind : LiteralKind) (t : Lexeme) : Prop where
  starts : startsWith isExprStart (Literal.ofToken kind t.name).render.toList = true
  scanned : ∀ {f}, Delimits f → (Literal.ofToken kind t.name).ending.allows (behind f) = true →
    Scanned t.kind (Literal.ofToken kind t.name).render.toList f
  again : ∀ s, (Literal.ofToken kind ⟨(Literal.ofToken kind t.name).render, s⟩).plain =
    (Literal.ofToken kind t.name).plain

/-- An elementary type or a name. -/
def TokenKind.isUnreserved : TokenKind → Bool
  | type _ | ident => true
  | _ => false

/-- A reserved word is read from its spelling only. -/
theorem upper_of_wordKind {w : List Char} {k : TokenKind} (hk : wordKind w = k) (hword : k ∈ TokenKind.words) :
    String.ofList (Text.upper w) = k.spelling := by
  have hreserved : ∀ k ∈ TokenKind.words, k.isUnreserved = false := by decide
  unfold wordKind TokenKind.ofWord? at hk
  cases hfind : TokenKind.words.find? (·.spelling == String.ofList (Text.upper w)) with
  | some k' =>
    have hspelling : (k'.spelling == String.ofList (Text.upper w)) = true :=
      List.find?_some (p := fun k : TokenKind => k.spelling == String.ofList (Text.upper w)) hfind
    rw [hfind] at hk
    cases hk
    exact (eq_of_beq hspelling).symm
  | none =>
    rw [hfind] at hk
    cases htype : ElementaryType.ofSpelling? (String.ofList (Text.upper w)) <;> rw [htype] at hk <;> cases hk <;>
      cases hreserved _ hword

theorem tokenPrinted_bool {t : Lexeme} {f : List Char} (hk : t.kind = .kwTrue ∨ t.kind = .kwFalse)
    (h : Scanned t.kind t.text.toList f) : TokenPrinted .bool t := by
  have hword : t.kind ∈ TokenKind.words := by rcases hk with hk | hk <;> rw [hk] <;> decide
  have hrender : (Literal.ofToken .bool t.name).render = t.kind.spelling := by
    rcases h.word_cases (by rcases hk with hk | hk <;> rw [hk] <;> rfl) with ⟨-, hkind⟩ | ⟨w, v, -, -, hs⟩
    · exact upper_of_wordKind hkind hword
    · have htyped := isTyped_scanTyped w (v ++ f)
      rw [hs] at htyped
      rcases hk with hk | hk <;> rw [hk] at htyped <;> cases htyped
  refine ⟨?_, fun hf _ => ?_, fun s => ?_⟩
  · rw [hrender]
    rcases hk with hk | hk <;> rw [hk] <;> rfl
  · rw [hrender]
    exact .reserved hword hf
  · have hvalue : Text.upperString t.text = t.kind.spelling := hrender
    have hupper : Text.upperString t.kind.spelling = t.kind.spelling := by
      rcases hk with hk | hk <;> rw [hk] <;> decide
    rw [hrender]
    simp [Literal.ofToken, Literal.plain, Lexeme.name, hvalue, hupper]

theorem withoutSeparators_withoutSeparators (text : String) :
    withoutSeparators (withoutSeparators text) = withoutSeparators text := by
  simp [withoutSeparators]

theorem tokenPrinted_number {kind : LiteralKind} {t : Lexeme} {f : List Char} (hk : t.kind.isNumber = true)
    (hkind : LiteralKind.ofToken? t.kind = some kind) (h : Scanned t.kind t.text.toList f) : TokenPrinted kind t := by
  have hkeep : ∀ c : Char, c ≠ '_' → (c != '_') = true := fun c hc => bne_iff_ne.2 hc
  have hcases : kind = .integer ∧ t.kind = .intLiteral ∨ kind = .nonDecimal ∧ t.kind ≠ .intLiteral ∨
      kind = .real ∧ t.kind ≠ .intLiteral := by
    revert hk hkind
    cases t.kind <;> simp +contextual [TokenKind.isNumber, LiteralKind.ofToken?, eq_comm]
  have hliteral (n : Name) : Literal.ofToken kind n = ⟨kind, none, withoutSeparators n.text, n.span⟩ := by
    rcases hcases with ⟨rfl, -⟩ | ⟨rfl, -⟩ | ⟨rfl, -⟩ <;> rfl
  have hrender (n : Name) : (Literal.ofToken kind n).render = withoutSeparators n.text := by
    rw [hliteral]
    rcases hcases with ⟨rfl, -⟩ | ⟨rfl, -⟩ | ⟨rfl, -⟩ <;> rfl
  refine ⟨?_, fun hf hend => ?_, fun s => ?_⟩
  · have hdigit := startsWith_filter hkeep (f := []) rfl (h.startsWith_isDigit hk)
    rw [List.append_nil] at hdigit
    rw [hrender, withoutSeparators, String.toList_ofList]
    exact startsWith_mono hdigit fun c hc => by simp [isExprStart, hc]
  · rw [hrender, withoutSeparators, String.toList_ofList]
    refine h.number hk hkeep hf fun hint hlast => ?_
    rcases hcases with ⟨rfl, -⟩ | ⟨-, hne⟩ | ⟨-, hne⟩
    · have hending : (Literal.ofToken .integer t.name).ending = .number := by
        rw [Literal.ofToken, Literal.ending, withoutSeparators]
        simp only [String.toList_ofList, numberEnding]
        exact if_neg hlast
      rw [hending] at hend
      simpa [Ending.allows] using hend
    · exact absurd hint hne
    · exact absurd hint hne
  · rw [hrender, hliteral, hliteral]
    simp [Literal.plain, withoutSeparators_withoutSeparators]

theorem tokenPrinted_string {kind : LiteralKind} {t : Lexeme} (q : Quote) (hk : t.kind = q.kind)
    (hkind : LiteralKind.ofToken? t.kind = some kind) : TokenPrinted kind t := by
  have hliteral (n : Name) : Literal.ofToken kind n = ⟨kind, none, String.ofList (q.read n.text.toList), n.span⟩ := by
    rw [hk] at hkind
    cases q <;> cases hkind <;> rfl
  have hrender (l : Literal) (hl : l.kind = kind) (hn : l.typeName = none) :
      l.render = String.ofList (q.write l.value.toList) := by
    rw [hk] at hkind
    obtain ⟨kind', typeName, value, span⟩ := l
    cases hl
    cases hn
    cases q <;> cases hkind <;> rfl
  have hwrite : (Literal.ofToken kind t.name).render = String.ofList (q.write (q.read t.text.toList)) := by
    rw [hliteral, hrender _ rfl rfl, String.toList_ofList]
    rfl
  refine ⟨?_, fun _ _ => ?_, fun s => ?_⟩
  · rw [hwrite, String.toList_ofList]
    cases q <;> rfl
  · rw [hwrite, hk, String.toList_ofList]
    exact .quoted q _ _
  · rw [hwrite, hliteral, hliteral]
    simp [Literal.plain, Quote.read_write, Lexeme.name]

/-- The value behind a type name is taken apart from it. -/
theorem splitAtHash_append (kind : LiteralKind) {w v : List Char} (hw : '#' ∉ w) (s : Span) :
    Literal.splitAtHash kind ⟨String.ofList (w ++ '#' :: v), s⟩ =
      ⟨kind, some ⟨String.ofList w, ⟨s.start, s.start + Text.byteLength w⟩⟩, String.ofList v, s⟩ := by
  have hne : ∀ c ∈ w, (c != '#') = true := fun c hc => bne_iff_ne.2 (ne_of_mem_of_not_mem hc hw)
  simp only [Literal.splitAtHash, String.toList_ofList]
  rw [List.dropWhile_append_of_pos hne, List.takeWhile_append_of_pos hne]
  simp

theorem tokenPrinted_temporal {kind : LiteralKind} {t : Lexeme} {f : List Char} (hk : t.kind.isTemporal = true)
    (hkind : LiteralKind.ofToken? t.kind = some kind) (h : Scanned t.kind t.text.toList f) : TokenPrinted kind t := by
  obtain ⟨w, v, htext, hw, hagain⟩ := h.temporal hk
  have hhash : '#' ∉ w := fun hc => by cases hw.part _ hc
  have htext' : t.text = String.ofList (w ++ '#' :: v) := by rw [← htext, String.ofList_toList]
  have hcases : t.kind = .timeLiteral ∧ kind = .duration ∨ t.kind = .dateLiteral ∧ kind = .date ∨
      t.kind = .timeOfDayLiteral ∧ kind = .timeOfDay ∨ t.kind = .dateAndTimeLiteral ∧ kind = .dateAndTime := by
    revert hk hkind
    cases t.kind <;> simp +contextual [TokenKind.isTemporal, LiteralKind.ofToken?, eq_comm]
  have hliteral (s : Span) : Literal.ofToken kind ⟨t.text, s⟩ =
      ⟨kind, some ⟨String.ofList w, ⟨s.start, s.start + Text.byteLength w⟩⟩, String.ofList v, s⟩ := by
    have hsplit : Literal.ofToken kind ⟨t.text, s⟩ = Literal.splitAtHash kind ⟨t.text, s⟩ := by
      rcases hcases with ⟨-, rfl⟩ | ⟨-, rfl⟩ | ⟨-, rfl⟩ | ⟨-, rfl⟩ <;> rfl
    rw [hsplit, htext', splitAtHash_append kind hhash]
  have hrender : (Literal.ofToken kind t.name).render = t.text := by
    have hvalue : (Literal.ofToken kind t.name).render = String.ofList w ++ "#" ++ String.ofList v := by
      rw [Lexeme.name, hliteral]
      rcases hcases with ⟨-, rfl⟩ | ⟨-, rfl⟩ | ⟨-, rfl⟩ | ⟨-, rfl⟩ <;> rfl
    rw [hvalue, htext', ← String.toList_inj]
    simp
  refine ⟨?_, fun hf hend => ?_, fun s => ?_⟩
  · rw [hrender, htext]
    have hstart := hw.start
    cases w with
    | nil => cases hstart
    | cons c w =>
      have hc : isWordStart c = true := hstart
      simp [startsWith, isExprStart, hc]
  · rw [hrender]
    refine hagain hf ?_
    rw [Lexeme.name, hliteral] at hend
    rcases hcases with ⟨hkt, rfl⟩ | ⟨hkt, rfl⟩ | ⟨hkt, rfl⟩ | ⟨hkt, rfl⟩ <;> rw [hkt] <;>
      simpa [Literal.ending, temporalEnding] using hend
  · rw [hrender, Lexeme.name, hliteral, hliteral]
    rfl

/-- A literal of one token is a truth value, a number, a string or a time or a date. -/
theorem ofToken?_cases {kind : LiteralKind} {k : TokenKind} (h : LiteralKind.ofToken? k = some kind) :
    (kind = .bool ∧ (k = .kwTrue ∨ k = .kwFalse)) ∨ k.isNumber = true ∨ (∃ q : Quote, k = q.kind) ∨
      k.isTemporal = true := by
  cases k <;> cases h
  case kwTrue => exact .inl ⟨rfl, .inl rfl⟩
  case kwFalse => exact .inl ⟨rfl, .inr rfl⟩
  case stringLiteral => exact .inr (.inr (.inl ⟨.single, rfl⟩))
  case wideStringLiteral => exact .inr (.inr (.inl ⟨.double, rfl⟩))
  case intLiteral | nonDecimalLiteral | realLiteral => exact .inr (.inl rfl)
  all_goals exact .inr (.inr (.inr rfl))

/-- The value of a literal of one token is written as one token of the same kind. -/
theorem tokenPrinted {kind : LiteralKind} {t : Lexeme} {f : List Char} (hkind : LiteralKind.ofToken? t.kind = some kind)
    (h : Scanned t.kind t.text.toList f) : TokenPrinted kind t := by
  rcases ofToken?_cases hkind with ⟨rfl, hk⟩ | hk | ⟨q, hk⟩ | hk
  · exact tokenPrinted_bool hk h
  · exact tokenPrinted_number hk hkind h
  · exact tokenPrinted_string q hk hkind
  · exact tokenPrinted_temporal hk hkind h

end StructuredText
