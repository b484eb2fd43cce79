import StructuredText.Proofs.Complete.Expr
import StructuredText.Proofs.Lexing.TypedPatterns
import StructuredText.Proofs.Order
import StructuredText.Proofs.Printing.Printed

/-!
# Literals behind a type name

A type name with its `#`, a sign if there is one, and one token that is a literal are always read as one literal, which
keeps the name, the form of the token and the signed value. Where the type accepts such a value, nothing is reported,
and else one problem with the whole is (`parseExpression_typedLiteral`).

What a type accepts is written out by the names of the types (`LiteralKind.AcceptedBy`). The one combination that is
read besides is a truth value with a sign.
-/

namespace StructuredText

/-! ## What the types accept -/

namespace LiteralKind

/-- The names of the types of whole numbers and bit strings. -/
def integerNames : List String :=
  ["SINT", "INT", "DINT", "LINT", "USINT", "UINT", "UDINT", "ULINT", "BYTE", "WORD", "DWORD", "LWORD"]

/-- The names of the real types. -/
def realNames : List String := ["REAL", "LREAL"]

/-- The names of the types that accept numbers. -/
def numericNames : List String := "BOOL" :: integerNames ++ realNames

/-- A value of the form, with or without a sign, is accepted by the type with this name in capitals. -/
def AcceptedBy (typeName : String) (signed : Bool) : LiteralKind → Prop
  | integer => typeName ∈ numericNames
  | nonDecimal => typeName ∈ numericNames ∧ signed = false
  | real => typeName ∈ realNames
  | bool => typeName = "BOOL" ∧ signed = false
  | string => typeName ∈ ["STRING", "CHAR"] ∧ signed = false
  | wideString => typeName ∈ ["WSTRING", "WCHAR"] ∧ signed = false
  | duration | date | timeOfDay | dateAndTime => False

instance decidableAcceptedBy (typeName : String) (signed : Bool) :
    (kind : LiteralKind) → Decidable (kind.AcceptedBy typeName signed)
  | integer => inferInstanceAs (Decidable (_ ∈ numericNames))
  | nonDecimal => inferInstanceAs (Decidable (_ ∈ numericNames ∧ signed = false))
  | real => inferInstanceAs (Decidable (_ ∈ realNames))
  | bool => inferInstanceAs (Decidable (_ = "BOOL" ∧ signed = false))
  | string => inferInstanceAs (Decidable (_ ∈ ["STRING", "CHAR"] ∧ signed = false))
  | wideString => inferInstanceAs (Decidable (_ ∈ ["WSTRING", "WCHAR"] ∧ signed = false))
  | duration | date | timeOfDay | dateAndTime => inferInstanceAs (Decidable False)

/-- A truth value with a sign, which the Boolean type lets pass. -/
def SignedBool (typeName : String) (signed : Bool) (kind : LiteralKind) : Prop :=
  kind = bool ∧ typeName = "BOOL" ∧ signed = true

instance decidableSignedBool (typeName : String) (signed : Bool) (kind : LiteralKind) :
    Decidable (kind.SignedBool typeName signed) := inferInstanceAs (Decidable (_ ∧ _ ∧ _))

end LiteralKind

namespace LiteralType

/-- Each form goes by its names. -/
theorem faultIn?_eq_none_iff (type : LiteralType) (kind : LiteralKind) (signed : Bool) :
    ∀ name ∈ type.names, type.faultIn? kind signed = none ↔
      kind.AcceptedBy name signed ∨ kind.SignedBool name signed := by
  cases type <;> cases kind <;> cases signed <;> decide

/-- A type that accepts anything is known by its name. -/
theorem ofName?_ne_none {typeName : String} {kind : LiteralKind} {signed : Bool}
    (h : kind.AcceptedBy (Text.upperString typeName) signed ∨ kind.SignedBool (Text.upperString typeName) signed) :
    ofName? typeName ≠ none := by
  have hknown : ∀ name ∈ LiteralKind.numericNames ++ ["STRING", "CHAR", "WSTRING", "WCHAR"],
      ((ElementaryType.ofSpelling? name).map ofType).or (shortNames.lookup name) ≠ none := by decide
  refine hknown _ (List.mem_append.2 ?_)
  rcases h with h | ⟨-, h, -⟩
  · cases kind with
    | integer => exact .inl h
    | nonDecimal => exact .inl h.1
    | real => exact .inl (List.mem_append_right _ h)
    | bool => exact .inl (List.mem_cons.2 (.inl h.1))
    | string => exact .inr (List.mem_append_left ["WSTRING", "WCHAR"] h.1)
    | wideString => exact .inr (List.mem_append_right ["STRING", "CHAR"] h.1)
    | duration | date | timeOfDay | dateAndTime => cases h
  · exact .inl (List.mem_cons.2 (.inl h))

end LiteralType

/-- What is let pass behind a type name is what the type accepts, and truth values with a sign. -/
theorem LiteralFault.of?_eq_none_iff {typeName : String} {kind : LiteralKind} {signed : Bool} :
    of? typeName kind signed = none ↔
      kind.AcceptedBy (Text.upperString typeName) signed ∨ kind.SignedBool (Text.upperString typeName) signed := by
  unfold of?
  cases htype : LiteralType.ofName? typeName with
  | some type => exact type.faultIn?_eq_none_iff kind signed _ (LiteralType.mem_names htype)
  | none => exact iff_of_false nofun fun h => LiteralType.ofName?_ne_none h htype

/-! ## What the values are -/

/-- The value that the text of a token of this form stands for. -/
def LiteralKind.valueOf (text : String) : LiteralKind → String
  | bool => Text.upperString text
  | integer | nonDecimal | real => withoutSeparators text
  | string => String.ofList (Quote.single.read text.toList)
  | wideString => String.ofList (Quote.double.read text.toList)
  | duration | date | timeOfDay | dateAndTime => text

/-- A text that is split at its first `#` is put together again. -/
theorem Literal.signedValue_splitAtHash (sign : String) (kind : LiteralKind) (token : Name) :
    (splitAtHash kind token).signedValue sign = sign ++ token.text := by
  have hsplit : token.text.toList.takeWhile (· != '#') ++ token.text.toList.dropWhile (· != '#') = token.text.toList :=
    List.takeWhile_append_dropWhile
  unfold splitAtHash
  cases hbehind : token.text.toList.dropWhile (· != '#') with
  | nil => rfl
  | cons c value =>
    have hc : c = '#' := by
      have hnot := List.head_dropWhile_not (· != '#') (by rw [hbehind]; exact List.cons_ne_nil c value)
      simpa [hbehind] using hnot
    rw [hbehind, hc] at hsplit
    refine String.toList_inj.1 ?_
    simp only [signedValue, String.toList_append, String.toList_ofList, List.append_assoc]
    exact congrArg (sign.toList ++ ·) hsplit

/-- The value of a literal behind a type name is the sign and the value of its token. -/
theorem Literal.signedValue_ofToken (sign : String) (kind : LiteralKind) (token : Name) :
    (ofToken kind token).signedValue sign = sign ++ kind.valueOf token.text := by
  cases kind with
  | duration | date | timeOfDay | dateAndTime => exact signedValue_splitAtHash sign _ token
  | _ => rfl

/-! ## Reading to the end -/

namespace Parser

variable {s : ParserState} {rs : List Report}

/-- The rule reads all tokens to come as `a`, and then the reports are `rs`. -/
def ReadsAll (p : Parser α) (s : ParserState) (a : α) (rs : List Report) : Prop :=
  ∃ s', p s = .ok a s' ∧ s'.rest = [] ∧ s'.reports = rs

/-- Nothing is left for the second rule. -/
theorem ReadsAll.bind {p : Parser α} {q : α → Parser β} {a : α} {b : β} (h : ReadsAll p s a rs)
    (h' : Gives (q a) [] b []) : ReadsAll (p >>= q) s b rs := by
  obtain ⟨s₁, h₁, hrest, hrs⟩ := h
  obtain ⟨s', h₂, hrest'⟩ := h' s₁ hrest
  exact ⟨s', by rw [bind_of_ok h₁, h₂.1], hrest', h₂.2.trans hrs⟩

theorem ReadsAll.tiersFrom {unary : Parser Expr} [Lawful unary] {e : Expr} (level : Nat)
    (h : ReadsAll unary s e rs) : ReadsAll (tiersFrom level unary) s e rs := by
  -- From the outermost tier inwards: at each of them, no operator comes behind the operand.
  by_cases hlevel : level < 9
  · obtain ⟨tier, rfl⟩ := exists_tier hlevel
    rw [tiersFrom_level]
    exact (tiersFrom (tier.level + 1) h).bind (.fold_none stepwise_tierTurn (tierTurn_none rfl))
  · rwa [tiersFrom_of_le (by omega)]
termination_by 9 - level

/-- A primary with nothing behind it is an expression. -/
theorem ReadsAll.expr {levels : Nat} {e : Expr} (h : ReadsAll (primary (deeperUnary levels)) s e rs)
    (hk : UnaryOp.ofToken? s.kind = none) : ReadsAll (expr levels) s e rs := by
  have haccess : ReadsAll (accessOf (deeperUnary levels)) s e rs :=
    h.bind (.fold_none (stepwise_suffix? _) (GivesFrom.gives (suffix?_none rfl)))
  have hunary : ReadsAll (unary levels) s e rs := by
    obtain ⟨s', hs', hrest⟩ := haccess
    refine ⟨s', ?_, hrest⟩
    rw [unary_eq, unaryOf, bind_of_ok (kind_apply s), hk]
    exact hs'
  exact hunary.tiersFrom 0

/-- An expression with nothing behind it is the whole stream. -/
theorem ReadsAll.run_expressionRoot {levels : Nat} {stream : Stream} {e : Expr}
    (h : ReadsAll (Parser.expr levels) (.start stream) e rs) :
    (expressionRoot levels).run stream = ⟨some e, rs.reverse⟩ := by
  obtain ⟨s₁, h₁, hrest, rfl⟩ := h
  obtain ⟨s', hend, hreports⟩ := (exists_reads_end_iff (s := s₁) (a := e)).2 ⟨.inl hrest, rfl⟩
  have hroot : expressionRoot levels (.start stream) = .ok e s' := by
    rw [expressionRoot, bind_of_ok h₁, hend]
  rw [run_of_ok hroot, hreports]

/-! ## Literals behind a type name -/

/-- What is reported about a value behind a type name. -/
def typedReports (source : List Char) (p : Lexeme) (signed : Bool) (kind : LiteralKind) (v : Lexeme) : List Report :=
  let span := p.span.cover v.span
  ((LiteralFault.of? (withoutHash p.text) kind signed).map fun fault =>
    ⟨.malformedLiteral (span.textIn source) fault, span⟩).toList

variable {kind : LiteralKind} {p v : Lexeme} {sign : Option Lexeme}

theorem sign?_complete {x : List Lexeme} (hsign : ∀ t ∈ sign, t.kind = .plus ∨ t.kind = .minus)
    (hv : LiteralKind.ofToken? v.kind = some kind) :
    Gives Parser.sign (sign.toList ++ v :: x) (sign.map Lexeme.text) (v :: x) := by
  cases sign with
  | none => exact sign_complete_none hv
  | some t => exact sign_complete (hsign t rfl).symm

/-- A value that the type does not accept is kept and reported. -/
theorem typedLiteral_readsAll (hs : s.rest = p :: (sign.toList ++ [v]))
    (hsign : ∀ t ∈ sign, t.kind = .plus ∨ t.kind = .minus) (hv : LiteralKind.ofToken? v.kind = some kind) :
    ReadsAll typedLiteral s (.typed kind p ((sign.map Lexeme.text).getD "") v)
      (typedReports s.source p sign.isSome kind v ++ s.reports) := by
  obtain ⟨s₁, h₁, hrest⟩ := sign?_complete hsign hv s.advance (ParserState.advance_rest_of_cons hs)
  have hkind : LiteralKind.ofToken? s₁.kind = some kind := by rwa [ParserState.kind_of_cons hrest]
  have hsource : s₁.source = s.source := by rw [h₁.passed.source, ParserState.advance_source]
  have hreports : s₁.reports = s.reports := by rw [h₁.2, ParserState.advance_reports]
  rw [typedLiteral]
  unfold ReadsAll
  rw [bind_of_ok (take_apply s), bind_of_ok h₁.1, bind_of_ok (kind_apply s₁), hkind]
  dsimp only
  rw [bind_of_ok (tokenLiteral_apply kind s₁), ParserState.text_of_cons hs, ParserState.name_of_cons hrest]
  simp only [Literal.ofToken_span, ParserState.span_of_cons hs]
  rw [Option.isSome_map, typedReports]
  cases LiteralFault.of? (withoutHash p.text) kind sign.isSome with
  | none =>
    refine ⟨s₁.advance, rfl, ParserState.advance_rest_of_cons hrest, ?_⟩
    rw [ParserState.advance_reports, hreports]
    rfl
  | some fault =>
    refine ⟨s₁.advance.report _ _, rfl, ParserState.advance_rest_of_cons hrest, ?_⟩
    rw [ParserState.report_reports, ParserState.advance_reports, ParserState.advance_source, hsource, hreports]
    rfl

theorem literal_apply_of_kind (hk : s.kind = .typedLiteralPrefix) : literal s = typedLiteral s := by
  rw [literal, bind_of_ok (get_apply s)]
  simp only [hk]

theorem primary_readsAll {deeper : Option (Parser Expr)} (hs : s.rest = p :: (sign.toList ++ [v]))
    (hp : p.kind = .typedLiteralPrefix) (hsign : ∀ t ∈ sign, t.kind = .plus ∨ t.kind = .minus)
    (hv : LiteralKind.ofToken? v.kind = some kind) :
    ReadsAll (primary deeper) s (.literal (.typed kind p ((sign.map Lexeme.text).getD "") v))
      (typedReports s.source p sign.isSome kind v ++ s.reports) := by
  have hk : s.kind = .typedLiteralPrefix := (ParserState.kind_of_cons hs).trans hp
  -- With a name behind it, the type name would begin an enumerated value.
  have hnext : s.kindAt 1 ≠ .ident := by
    rw [ParserState.kindAt_one, ParserState.kind_eq_headKind, ParserState.advance_rest_of_cons hs]
    cases sign with
    | none =>
      rintro (h : v.kind = .ident)
      rw [h] at hv
      cases hv
    | some t =>
      rintro (h : t.kind = .ident)
      rcases hsign t rfl with ht | ht <;> rw [ht] at h <;> cases h
  obtain ⟨s', h, hs'⟩ := typedLiteral_readsAll hs hsign hv
  refine ⟨s', ?_, hs'⟩
  rw [primary, bind_of_ok (get_apply s)]
  simp only [hk, hnext, false_and, if_false]
  rw [bind_of_ok ((literal_apply_of_kind hk).trans h)]
  rfl

end Parser

/-! ## The whole text -/

section

variable {text : String} {kind : LiteralKind} {p v : Lexeme} {sign : Option Lexeme}

/-- A type name, a sign if there is one, and a token that is a literal are read as one literal. It has the name without
its `#`, the form of the token, the sign and the value of the token, and the span of the whole. Nothing is reported
where the type accepts the value, or lets a truth value with a sign pass, and else one problem with the whole is. -/
theorem parseExpression_typedLiteral (h : (Stream.ofText text).significant = p :: (sign.toList ++ [v]))
    (hp : p.kind = .typedLiteralPrefix) (hsign : ∀ t ∈ sign, t.kind = .plus ∨ t.kind = .minus)
    (hv : LiteralKind.ofToken? v.kind = some kind) :
    ∃ name, p.text = name ++ "#" ∧
      let parse := parseExpression (Stream.ofText text)
      let span : Span := ⟨p.span.start, v.span.stop⟩
      let passes := kind.AcceptedBy (Text.upperString name) sign.isSome ∨
        kind.SignedBool (Text.upperString name) sign.isSome
      parse.tree = some (.literal ⟨kind, some ⟨name, ⟨p.span.start, p.span.start + name.utf8ByteSize⟩⟩,
        (sign.map Lexeme.text).getD "" ++ kind.valueOf v.text, span⟩) ∧
      (passes → parse.diagnostics = []) ∧
      (¬passes → ∃ fault, LiteralFault.of? name kind sign.isSome = some fault ∧
        parse.diagnostics = [⟨.malformedLiteral, .error, span,
          "malformed literal " ++ span.textIn text.toList ++ ": " ++ fault.message, none⟩]) := by
  have hlexed := lexed_significant text
  have hstand : StandFrom 0 (Stream.ofText text).significant := (Stream.inOrder_ofText text).rest
  rw [h] at hlexed hstand
  obtain ⟨f, hscanned⟩ := hlexed.scanned_of_eq hp nofun nofun
  obtain ⟨w, -, hw, hname⟩ := hscanned.withoutHash
  have hcover : p.span.cover v.span = ⟨p.span.start, v.span.stop⟩ := by
    rw [hstand.cover_eq, hstand.spanOf_eq (List.cons_ne_nil _ _)]
    simp
  have hparse : parseExpression (Stream.ofText text) =
      ⟨some (.literal (.typed kind p ((sign.map Lexeme.text).getD "") v)),
        (Parser.typedReports text.toList p sign.isSome kind v).reverse⟩ := by
    have hall : Parser.ReadsAll (Parser.primary (Parser.deeperUnary maxNesting)) (.start (Stream.ofText text))
        (.literal (.typed kind p ((sign.map Lexeme.text).getD "") v))
        (Parser.typedReports text.toList p sign.isSome kind v ++ []) := Parser.primary_readsAll h hp hsign hv
    rw [List.append_nil] at hall
    refine (hall.expr ?_).run_expressionRoot
    rw [ParserState.kind_of_cons h, hp]
    rfl
  refine ⟨withoutHash p.text, ?_, ?_, fun hpasses => ?_, fun hpasses => ?_⟩
  · rw [hname]
    exact String.toList_inj.1 (by rw [hw, String.toList_append, String.toList_ofList]; rfl)
  · rw [hparse, Literal.typed, hcover, Literal.signedValue_ofToken, Text.byteLength_toList]
    rfl
  · rw [hparse, Parser.typedReports, LiteralFault.of?_eq_none_iff.2 hpasses]
    rfl
  · obtain ⟨fault, hfault⟩ := Option.ne_none_iff_exists'.1 (mt LiteralFault.of?_eq_none_iff.1 hpasses)
    refine ⟨fault, hfault, ?_⟩
    rw [hparse, Parser.typedReports, hfault, hcover]
    rfl

theorem parseExpression_typedLiteral_date :
    (Stream.ofText "string# -D#2024-01-15").significant =
      [⟨.typedLiteralPrefix, ⟨0, 7⟩, "string#"⟩, ⟨.minus, ⟨8, 9⟩, "-"⟩, ⟨.dateLiteral, ⟨9, 21⟩, "D#2024-01-15"⟩] ∧
    (parseExpression (Stream.ofText "string# -D#2024-01-15")).tree =
      some (.literal ⟨.date, some ⟨"string", ⟨0, 6⟩⟩, "-D#2024-01-15", ⟨0, 21⟩⟩) ∧
    (parseExpression (Stream.ofText "string# -D#2024-01-15")).diagnostics = [⟨.malformedLiteral, .error, ⟨0, 21⟩,
      "malformed literal string# -D#2024-01-15: expected a single-quoted string", none⟩] := by
  have hread : (Stream.ofText "string# -D#2024-01-15").significant = ⟨.typedLiteralPrefix, ⟨0, 7⟩, "string#"⟩ ::
      ((some ⟨.minus, ⟨8, 9⟩, "-"⟩ : Option Lexeme).toList ++ [⟨.dateLiteral, ⟨9, 21⟩, "D#2024-01-15"⟩]) := rfl
  have hdate : LiteralKind.ofToken? .dateLiteral = some .date := rfl
  obtain ⟨name, hname, htree, -, hfaults⟩ := parseExpression_typedLiteral hread rfl (by simp) hdate
  obtain rfl : "string" = name := String.append_left_inj "#" |>.1 hname
  obtain ⟨fault, hfault, hreport⟩ := hfaults (by decide)
  obtain rfl : LiteralFault.notString = fault := Option.some.inj hfault
  exact ⟨hread, htree, hreport⟩

/-- A truth value with a sign is no value that the Boolean type accepts, but nothing is reported. -/
theorem parseExpression_signedBool :
    (Stream.ofText "BOOL#-TRUE").significant =
      [⟨.typedLiteralPrefix, ⟨0, 5⟩, "BOOL#"⟩, ⟨.minus, ⟨5, 6⟩, "-"⟩, ⟨.kwTrue, ⟨6, 10⟩, "TRUE"⟩] ∧
    LiteralKind.ofToken? .kwTrue = some .bool ∧ ¬LiteralKind.bool.AcceptedBy "BOOL" true ∧
    (parseExpression (Stream.ofText "BOOL#-TRUE")).diagnostics = [] :=
  ⟨rfl, rfl, by decide, rfl⟩

end

end StructuredText
