import StructuredText.Parser.Unit

/-!
# Running a rule

A rule is run on a state; here is what the small rules do to it. `ok_bind_iff` opens a run of two rules one after the
other.
-/

namespace StructuredText

namespace ParserState

variable {s : ParserState}

@[simp] theorem advance_source (s : ParserState) : s.advance.source = s.source := by
  unfold advance; split <;> rfl

@[simp] theorem advance_stop (s : ParserState) : s.advance.stop = s.stop := by
  unfold advance; split <;> rfl

@[simp] theorem advance_reports (s : ParserState) : s.advance.reports = s.reports := by
  unfold advance; split <;> rfl

@[simp] theorem advance_rest (s : ParserState) : s.advance.rest = s.rest.tail := by
  unfold advance; split <;> simp [*]

theorem advance_of_nil (h : s.rest = []) : s.advance = s := by
  unfold advance; simp [h]

@[simp] theorem report_rest (problem : Problem) (span : Span) : (s.report problem span).rest = s.rest := rfl

@[simp] theorem report_reports (problem : Problem) (span : Span) :
    (s.report problem span).reports = ⟨problem, span⟩ :: s.reports := rfl

theorem kind_of_nil (h : s.rest = []) : s.kind = .eof := by simp [kind, h]

theorem kind_of_cons {t : Lexeme} {ts : List Lexeme} (h : s.rest = t :: ts) : s.kind = t.kind := by simp [kind, h]

theorem span_of_cons {t : Lexeme} {ts : List Lexeme} (h : s.rest = t :: ts) : s.span = t.span := by simp [span, h]

theorem text_of_cons {t : Lexeme} {ts : List Lexeme} (h : s.rest = t :: ts) : s.text = t.text := by simp [text, h]

@[simp] theorem kindAt_one (s : ParserState) : s.kindAt 1 = s.advance.kind := by
  rcases h : s.rest with _ | ⟨t, _ | ⟨u, ts⟩⟩ <;> simp [kindAt, kind, h]

@[simp] theorem kindAt_two (s : ParserState) : s.kindAt 2 = s.advance.advance.kind := by
  rcases h : s.rest with _ | ⟨t, _ | ⟨u, _ | ⟨v, ts⟩⟩⟩ <;> simp [kindAt, kind, h]

end ParserState

theorem Literal.ofToken_span (kind : LiteralKind) (token : Name) : (Literal.ofToken kind token).span = token.span := by
  cases kind <;> simp only [ofToken, splitAtHash] <;> split <;> rfl

namespace Parser

variable {s s' : ParserState}

theorem bind_apply (p : Parser α) (q : α → Parser β) (s : ParserState) :
    (p >>= q) s = match p s with
      | .ok a s' => q a s'
      | .error e s' => .error e s' := by
  show EStateM.bind p q s = _
  unfold EStateM.bind
  cases p s <;> rfl

theorem bind_of_ok {p : Parser α} {q : α → Parser β} {a : α} (h : p s = .ok a s') : (p >>= q) s = q a s' := by
  rw [bind_apply, h]

theorem ok_bind_iff {p : Parser α} {q : α → Parser β} {b : β} :
    (p >>= q) s = .ok b s' ↔ ∃ a s₁, p s = .ok a s₁ ∧ q a s₁ = .ok b s' := by
  rw [bind_apply]
  cases p s with
  | ok a s₁ => exact ⟨fun h => ⟨a, s₁, rfl, h⟩, by rintro ⟨a, s₁, h, hq⟩; cases h; exact hq⟩
  | error e s₁ => simp

@[simp] theorem pure_apply (a : α) (s : ParserState) : (pure a : Parser α) s = .ok a s := rfl

@[simp] theorem get_apply (s : ParserState) : (get : Parser ParserState) s = .ok s s := rfl

@[simp] theorem kind_apply (s : ParserState) : kind s = .ok s.kind s := rfl

@[simp] theorem sees_apply (k : TokenKind) (s : ParserState) : sees k s = .ok (s.kind == k) s := rfl

@[simp] theorem atEnd_apply (s : ParserState) : atEnd s = .ok s.rest.isEmpty s := rfl

@[simp] theorem offset_apply (s : ParserState) : offset s = .ok s.span.start s := rfl

@[simp] theorem spanFrom_apply (start : Nat) (s : ParserState) : spanFrom start s = .ok (s.spanFrom start) s := rfl

@[simp] theorem skip_apply (s : ParserState) : skip s = .ok ⟨⟩ s.advance := rfl

@[simp] theorem take_apply (s : ParserState) : take s = .ok ⟨s.text, s.span⟩ s.advance := rfl

@[simp] theorem report_apply (problem : Problem) (s : ParserState) :
    report problem s = .ok ⟨⟩ (s.report problem s.span) := rfl

@[simp] theorem reportAt_apply (span : Span) (problem : Problem) (s : ParserState) :
    reportAt span problem s = .ok ⟨⟩ (s.report problem span) := rfl

theorem eat_apply (k : TokenKind) (s : ParserState) :
    eat k s = if s.kind = k then .ok true s.advance else .ok false s := by
  simp only [eat, bind_apply, sees_apply, beq_iff_eq]
  split <;> rfl

theorem fail_of_nil (h : s.rest = []) (what : String) :
    (fail what : Parser α) s = .error .endOfStream (s.report (.ended what) s.span) := by
  simp only [fail, bind_apply, get_apply, h, report_apply]
  rfl

theorem fail_of_cons {t : Lexeme} {ts : List Lexeme} (h : s.rest = t :: ts) (what : String) :
    (fail what : Parser α) s = .error .syntaxError (s.report (.unexpected what s.text) s.span) := by
  simp only [fail, bind_apply, get_apply, h, report_apply]
  rfl

theorem expect_apply (k : TokenKind) (s : ParserState) :
    expect k s = if s.kind = k then .ok ⟨⟩ s.advance else (fail k.spelling : Parser PUnit) s := by
  simp only [expect, bind_apply, sees_apply, beq_iff_eq]
  split <;> rfl

theorem expectEnd_apply (k : TokenKind) (s : ParserState) :
    expectEnd k s = if s.kind = k then .ok ⟨⟩ s.advance
      else if s.rest.isEmpty then (fail k.spelling : Parser PUnit) s
      else .ok ⟨⟩ (s.report (.missing k.spelling) s.span) := by
  simp only [expectEnd, bind_apply, sees_apply, beq_iff_eq]
  split
  · rfl
  · simp only [bind_apply, atEnd_apply]
    split <;> rfl

theorem sign_apply (s : ParserState) :
    Parser.sign s = if s.kind = .minus ∨ s.kind = .plus then .ok (some s.text) s.advance else .ok none s := by
  simp only [Parser.sign, bind_apply, kind_apply]
  generalize s.kind = k
  cases k <;> simp [bind_apply]

theorem tokenLiteral_apply (kind : LiteralKind) (s : ParserState) :
    tokenLiteral kind s = .ok (.ofToken kind ⟨s.text, s.span⟩) s.advance := rfl

theorem orRecover_apply (rule recover : Parser α) (s : ParserState) :
    orRecover rule recover s = match rule s with
      | .error .syntaxError s' => recover s'
      | result => result := rfl

end Parser

end StructuredText
