import StructuredText.Proofs.Contained
import StructuredText.Proofs.ParseStatements

/-!
# Broken statements

Tokens in front of a `;` that neither end nor begin a statement are broken statements (`ParserState.Broken`). A
statement is read there in the same way whatever stands behind the `;`, and it leaves broken statements or no token at
all (`Parser.Ends`, `Parser.ends_statement`).

Two rules look further ahead than a `;`. The search for a colon may run past it in an open bracket, but finds nothing
where statements are spelled (`Surroundings.Closed`); and the rest of a statement is skipped up to the `;`
(`Parser.skipStatement_apply`).
-/

namespace StructuredText

/-! ## The search for a colon -/

/-- Inside of brackets, there is no colon behind. -/
def Surroundings.Closed (e : Surroundings) : Prop :=
  ∀ {parens brackets : Nat}, parens ≠ 0 ∨ brackets ≠ 0 → ParserState.colonAhead parens brackets e.behind = false

theorem Surroundings.closed_of_spells {e : Surroundings} {sts : List Stmt} (h : SpellsStatements e.behind sts) :
    e.Closed := by
  intro parens brackets hd
  rw [StmtPhrase.Spelled.colonAhead_inside h hd]
  rfl

namespace ParserState

variable {s s' : ParserState} {e : Surroundings}

/-- Behind a `;`, a colon may be looked for in open brackets only. -/
theorem colonAhead_append {t : Lexeme} {y : List Lexeme} (ht : t.kind = .semicolon)
    (hy : ∀ {parens brackets : Nat}, parens ≠ 0 ∨ brackets ≠ 0 → colonAhead parens brackets y = false)
    (x : List Lexeme) (parens brackets : Nat) :
    colonAhead parens brackets (x ++ t :: y) = colonAhead parens brackets (x ++ [t]) := by
  induction x generalizing parens brackets with
  | nil =>
    by_cases hd : parens = 0 ∧ brackets = 0
    · obtain ⟨rfl, rfl⟩ := hd
      rw [List.nil_append, List.nil_append, colonAhead_end (by rw [ht]; rfl), colonAhead_end (by rw [ht]; rfl)]
    · have hd : parens ≠ 0 ∨ brackets ≠ 0 := by omega
      rw [List.nil_append, List.nil_append, colonAhead_flat hd (by rw [ht]; rfl), colonAhead_flat hd (by rw [ht]; rfl),
        hy hd]
      rfl
  | cons u x ih => simp only [List.cons_append, colonAhead, ih]

theorem within_atCaseLabel (hs : s.Fenced) (he : e.Closed) : (s.within e).atCaseLabel = s.atCaseLabel := by
  rw [atCaseLabel, atCaseLabel, within_kind hs.ne_nil]
  obtain ⟨x, t, hr, ht⟩ := hs
  rw [within_rest, hr, List.append_assoc, List.singleton_append, colonAhead_append ht he]

theorem within_atStatementStart (hs : s.Fenced) : (s.within e).atStatementStart = s.atStatementStart := by
  rw [atStatementStart, atStatementStart, within_kind hs.ne_nil, kindAt_one, kindAt_one]
  by_cases hk : s.kind = .semicolon
  · simp [hk]
  · rw [Parser.within_kind_advance hs hk]

theorem within_atSemicolonInsertion (hs : s.Fenced) (he : e.Closed) :
    (s.within e).atSemicolonInsertion = s.atSemicolonInsertion := by
  have hempty : (s.within e).rest.isEmpty = s.rest.isEmpty := by
    obtain ⟨t, ts, hr⟩ := List.exists_cons_of_ne_nil hs.ne_nil
    rw [within_rest, hr]
    rfl
  rw [atSemicolonInsertion, atSemicolonInsertion, within_atStatementStart hs, within_atCaseLabel hs he,
    within_kind hs.ne_nil, hempty]

/-! ## Broken statements -/

/-- The state, had the last token ended elsewhere. -/
def since (s : ParserState) (last : Nat) : ParserState := { s with lastStop := last }

section

variable {last : Nat}

@[simp] theorem since_rest : (s.since last).rest = s.rest := rfl

@[simp] theorem since_kind : (s.since last).kind = s.kind := rfl

@[simp] theorem since_text : (s.since last).text = s.text := rfl

theorem since_span (hs : s.rest ≠ []) : (s.since last).span = s.span := by
  obtain ⟨t, ts, hr⟩ := List.exists_cons_of_ne_nil hs
  rw [span_of_cons hr, span_of_cons (s := s.since last) hr]

theorem since_advance (hs : s.rest ≠ []) : (s.since last).advance = s.advance := by
  obtain ⟨t, ts, hr⟩ := List.exists_cons_of_ne_nil hs
  simp only [advance, since_rest, hr]
  rfl

end

/-- Quiet tokens, which neither end nor begin a statement, are ahead, and a `;` behind them. -/
structure Broken (s : ParserState) (x : List Lexeme) (t : Lexeme) : Prop where
  rest : s.rest = x ++ [t]
  semicolon : t.kind = .semicolon
  quiet : ∀ u ∈ x, u.kind.isSyncPoint = false ∧ u.kind.isStatementKeyword = false

/-- The state behind the last token. -/
def behind (s : ParserState) (t : Lexeme) : ParserState := { s with rest := [], lastStop := t.span.stop }

namespace Broken

variable {x : List Lexeme} {t : Lexeme}

theorem report (h : s.Broken x t) (problem : Problem) (span : Span) : (s.report problem span).Broken x t :=
  ⟨h.rest, h.semicolon, h.quiet⟩

/-- Quiet tokens are no `;`. -/
theorem eq_nil (h : s.Broken x t) (hk : s.kind = .semicolon) : x = [] := by
  cases x with
  | nil => rfl
  | cons u x =>
    have hu := (h.quiet u List.mem_cons_self).1
    rw [← kind_of_cons h.rest, hk] at hu
    cases hu

theorem fenced (h : s.Broken x t) : s.Fenced := ⟨x, t, h.rest, h.semicolon⟩

theorem since (h : s.Broken x t) (last : Nat) : (s.since last).Broken x t := ⟨h.rest, h.semicolon, h.quiet⟩

theorem kind_quiet (h : s.Broken x t) (hx : x ≠ []) :
    s.kind.isSyncPoint = false ∧ s.kind.isStatementKeyword = false := by
  obtain ⟨u, y, rfl⟩ := List.exists_cons_of_ne_nil hx
  rw [kind_of_cons h.rest]
  exact h.quiet u List.mem_cons_self

theorem endsStatements (h : s.Broken x t) : s.kind.endsStatements = false := by
  by_cases hx : x = []
  · rw [kind_of_cons (by rw [h.rest, hx]; rfl), h.semicolon]
    rfl
  · have hsync := (h.kind_quiet hx).1
    rw [TokenKind.isSyncPoint, Bool.or_eq_false_iff] at hsync
    exact hsync.2

/-- What is left of broken statements in front of the `;` is broken. -/
theorem of_suffix (h : s.Broken x t) (hsuffix : s'.rest <:+ s.rest) (hs : s'.Fenced) : ∃ y, s'.Broken y t := by
  obtain ⟨w, hw⟩ := hsuffix
  obtain ⟨y, u, hr, -⟩ := hs
  rw [h.rest, hr, ← List.append_assoc] at hw
  obtain ⟨hx, ht⟩ := List.append_inj' hw rfl
  cases ht
  exact ⟨y, hr, h.semicolon, fun v hv => h.quiet v (hx ▸ List.mem_append_right w hv)⟩

end Broken

end ParserState

namespace Parser

variable {s s' : ParserState} {e : Surroundings} {x y : List Lexeme} {t : Lexeme}

/-! ## Skipping -/

/-- Tokens of some kinds are skipped up to the first one of another kind. -/
theorem skipWhile_go_kind {q : TokenKind → Bool} (hr : s.rest = x ++ t :: y) (hx : ∀ u ∈ x, q u.kind = true)
    (ht : q t.kind = false) : skipWhile.go (fun s => q s.kind) (x ++ t :: y) s =
      { s with rest := t :: y, lastStop := stopAfter s.lastStop x } := by
  induction x generalizing s with
  | nil =>
    rw [List.nil_append] at hr
    rw [List.nil_append, skipWhile.go, ParserState.kind_of_cons hr, ht, ← hr]
    rfl
  | cons u x ih =>
    have hadvance : s.advance = { s with rest := x ++ t :: y, lastStop := u.span.stop } := by
      simp [ParserState.advance, hr]
    rw [List.cons_append, skipWhile.go, ParserState.kind_of_cons hr, if_pos (hx u List.mem_cons_self),
      ih (by rw [hadvance]) fun v hv => hx v (List.mem_cons_of_mem u hv), hadvance]
    rfl

/-- Tokens at which skipping does not stop are skipped with the `;` behind them. -/
theorem skipTo_apply {stops : TokenKind → Bool} (hr : s.rest = x ++ t :: y) (ht : t.kind = .semicolon)
    (hx : ∀ u ∈ x, u.kind ≠ .semicolon ∧ stops u.kind = false) :
    skipTo stops s = .ok ⟨⟩ { s with rest := y, lastStop := t.span.stop } := by
  have hgo := skipWhile_go_kind (q := fun k => k != .semicolon && !stops k) hr
    (fun u hu => by
      obtain ⟨hne, hstops⟩ := hx u hu
      simp [hne, hstops])
    (by rw [ht]; rfl)
  have hskip : (skipWhile fun s => s.kind != .semicolon && !stops s.kind) s =
      .ok ⟨⟩ { s with rest := t :: y, lastStop := stopAfter s.lastStop x } := by
    show EStateM.Result.ok _ (skipWhile.go _ s.rest s) = _
    rw [hr, hgo]
  rw [skipTo, bind_of_ok hskip, bind_of_ok (sees_apply _ _), ParserState.kind_of_cons rfl, ht]
  rfl

/-- The rest of a statement is skipped with the `;`. -/
theorem skipStatement_apply (hr : s.rest = x ++ t :: y) (ht : t.kind = .semicolon)
    (hx : ∀ u ∈ x, u.kind.isSyncPoint = false ∧ u.kind.isStatementKeyword = false) :
    skipStatement s = .ok ⟨⟩ { s with rest := y, lastStop := t.span.stop } := by
  refine skipTo_apply hr ht fun u hu => ?_
  obtain ⟨hsync, hword⟩ := hx u hu
  have hne : u.kind ≠ .semicolon := by
    intro hk
    rw [hk] at hsync
    cases hsync
  exact ⟨hne, by simp [hsync, hword]⟩

theorem skipStatement_of_broken (hs : s.Broken x t) : skipStatement s = .ok ⟨⟩ (s.behind t) :=
  skipStatement_apply hs.rest hs.semicolon hs.quiet

theorem skipStatement_within (hs : s.Broken x t) : skipStatement (s.within e) = .ok ⟨⟩ ((s.behind t).within e) := by
  have hr : (s.within e).rest = x ++ t :: e.behind := by simp [hs.rest]
  rw [skipStatement_apply hr hs.semicolon hs.quiet]
  rfl

/-! ## Rules at a broken statement -/

/-- At broken statements, the rule does the same within closed surroundings. If it gives something, no token or broken
statements are left, and if it gives up, broken statements are left. -/
structure Ends (p : Parser α) (s : ParserState) : Prop where
  unmoved : ∀ e : Surroundings, e.Closed → Unmoved e p s
  ok : ∀ {a s'}, p s = .ok a s' → s'.rest = [] ∨ ∃ x t, s'.Broken x t
  error : ∀ {a s'}, p s = .error a s' → ∃ x t, s'.Broken x t

namespace Ends

theorem of_eq {p q : Parser α} (h : Ends q s) (hp : p s = q s) (he : ∀ e, p (s.within e) = q (s.within e)) :
    Ends p s where
  unmoved e hclosed := by rw [Unmoved, he, hp]; exact h.unmoved e hclosed
  ok hok := h.ok (hp.symm.trans hok)
  error herror := h.error (hp.symm.trans herror)

theorem of_ok {p : Parser α} {a : α} (hp : p s = .ok a s') (hs : s'.rest = [] ∨ ∃ x t, s'.Broken x t)
    (he : ∀ e : Surroundings, e.Closed → p (s.within e) = .ok a (s'.within e)) : Ends p s where
  unmoved e hclosed := by rw [Unmoved, he e hclosed, hp]; rfl
  ok hok := by cases hp.symm.trans hok; exact hs
  error herror := by cases hp.symm.trans herror

/-- A rule in front of one that leaves no token or broken statements. -/
theorem bind {p : Parser α} {q : α → Parser β} [Lawful p] (hs : s.Broken x t) (hp : Contained p s)
    (hq : ∀ a s₁ y, s₁.Broken y t → Ends (q a) s₁) : Ends (p >>= q) s := by
  have hbind := bind_apply p q s
  cases hps : p s with
  | ok a s₁ =>
    rw [hps] at hbind
    obtain ⟨y, hs₁⟩ := hs.of_suffix (Lawful.rest_suffix_of_ok hps) (hp.ok hps)
    have hends := hq a s₁ y hs₁
    refine ⟨fun e he => (hp.unmoved e).bind fun a' s' h => ?_, fun h => hends.ok (hbind.symm.trans h),
      fun h => hends.error (hbind.symm.trans h)⟩
    cases hps.symm.trans h
    exact hends.unmoved e he
  | error a s₁ =>
    rw [hps] at hbind
    refine ⟨fun e _ => (hp.unmoved e).bind fun a' s' h => ?_, fun h => ?_, fun h => ?_⟩
    · cases hps.symm.trans h
    · cases hbind.symm.trans h
    · cases hbind.symm.trans h
      obtain ⟨y, hs₁⟩ := hs.of_suffix (Lawful.rest_suffix_of_error hps) (hp.error hps)
      exact ⟨y, t, hs₁⟩

theorem of_contained {p : Parser α} [Lawful p] (hs : s.Broken x t) (hp : Contained p s) : Ends p s where
  unmoved e _ := hp.unmoved e
  ok hok := by
    obtain ⟨y, hs'⟩ := hs.of_suffix (Lawful.rest_suffix_of_ok hok) (hp.ok hok)
    exact .inr ⟨y, t, hs'⟩
  error herror := by
    obtain ⟨y, hs'⟩ := hs.of_suffix (Lawful.rest_suffix_of_error herror) (hp.error herror)
    exact ⟨y, t, hs'⟩

/-- The span may be noted behind the rule. -/
theorem spanned {p : Parser α} (h : Ends p s) (start : Nat) (f : α → Span → β) :
    Ends (do let a ← p; return f a (← spanFrom start)) s where
  unmoved e he := (h.unmoved e he).bind fun a s₁ _ => rfl
  ok hok := by
    obtain ⟨a, s₁, h₁, h₂⟩ := ok_bind_iff.1 hok
    cases h₂
    exact h.ok h₁
  error herror := by
    rw [bind_apply] at herror
    cases hp : p s with
    | ok a s₁ => rw [hp] at herror; cases herror
    | error a s₁ => rw [hp] at herror; cases herror; exact h.error hp

end Ends

theorem expectSemicolon_apply (s : ParserState) : expectSemicolon s =
    if s.kind = .semicolon then .ok ⟨⟩ s.advance
    else if s.atSemicolonInsertion then .ok ⟨⟩ (s.report (.missing TokenKind.semicolon.spelling) s.span)
    else skipStatement (s.report (.missing TokenKind.semicolon.spelling) s.span) := by
  simp only [expectSemicolon, bind_apply, sees_apply, beq_iff_eq]
  split
  · rfl
  · rw [missing, bind_of_ok (report_apply _ s), bind_of_ok (get_apply _)]
    show (if s.atSemicolonInsertion = true then _ else _ : Parser PUnit) _ = _
    split <;> rfl

/-- A `;` ends broken statements, or is missing among them; then the next statement begins where it is missing, or the
broken ones are skipped. -/
theorem ends_expectSemicolon (hs : s.Broken x t) : Ends expectSemicolon s := by
  have hne := hs.fenced.ne_nil
  by_cases hk : s.kind = .semicolon
  · have hsemicolon : expectSemicolon s = .ok ⟨⟩ s.advance := by rw [expectSemicolon_apply, if_pos hk]
    refine .of_ok hsemicolon (.inl ?_) fun e _ => ?_
    · rw [ParserState.advance_rest, hs.rest, hs.eq_nil hk]
      rfl
    · rw [expectSemicolon_apply, ParserState.within_kind hne, if_pos hk, ParserState.within_advance hne]
  · have hwithin {e : Surroundings} (he : e.Closed) : expectSemicolon (s.within e) =
        if s.atSemicolonInsertion then
          .ok ⟨⟩ ((s.report (.missing TokenKind.semicolon.spelling) s.span).within e)
        else skipStatement ((s.report (.missing TokenKind.semicolon.spelling) s.span).within e) := by
      rw [expectSemicolon_apply, ParserState.within_kind hne, if_neg hk,
        ParserState.within_atSemicolonInsertion hs.fenced he, ParserState.within_span hne, ParserState.within_report]
    by_cases hi : s.atSemicolonInsertion = true
    · refine .of_ok (by rw [expectSemicolon_apply, if_neg hk, if_pos hi]) (.inr ⟨x, t, hs.report _ _⟩) fun e he => ?_
      rw [hwithin he, if_pos hi]
    · have hskip : expectSemicolon s =
          .ok ⟨⟩ ((s.report (.missing TokenKind.semicolon.spelling) s.span).behind t) := by
        rw [expectSemicolon_apply, if_neg hk, if_neg hi, skipStatement_of_broken (hs.report _ _)]
      exact .of_ok hskip (.inl rfl) fun e he => by rw [hwithin he, if_neg hi, skipStatement_within (hs.report _ _)]

/-! ## Rules that take a token first -/

/-- The rule takes the next token first, and where the token before ended does not matter. -/
def TakesFirst (p : Parser α) (s : ParserState) : Prop :=
  ∃ q : Name → Parser α, (∀ name, Lawful (q name)) ∧ ∀ last, p (s.since last) = (take >>= q) (s.since last)

namespace TakesFirst

theorem bind {p : Parser α} {q : α → Parser β} [∀ a, Lawful (q a)] (h : TakesFirst p s) : TakesFirst (p >>= q) s := by
  obtain ⟨r, hr, hp⟩ := h
  refine ⟨fun name => r name >>= q, fun name => ?_, fun last => ?_⟩
  · have := hr name
    infer_instance
  · rw [bind_apply, hp last, bind_of_ok (take_apply _), bind_of_ok (take_apply _), bind_apply]

theorem offset {q : Nat → Parser β} (hs : s.rest ≠ []) (h : TakesFirst (q s.span.start) s) :
    TakesFirst (Parser.offset >>= q) s := by
  obtain ⟨r, hr, hp⟩ := h
  refine ⟨r, hr, fun last => ?_⟩
  rw [bind_of_ok (offset_apply _), ParserState.since_span hs, hp last]

variable {p : Parser α}

theorem since (h : TakesFirst p s) (hs : s.rest ≠ []) (last : Nat) : p (s.since last) = p s := by
  obtain ⟨q, -, hp⟩ := h
  have hs₀ : p s = (take >>= q) s := hp s.lastStop
  rw [hp last, hs₀, bind_of_ok (take_apply _), bind_of_ok (take_apply _), ParserState.since_advance hs,
    ParserState.since_span hs]
  rfl

theorem length_lt (h : TakesFirst p s) (hs : s.rest ≠ []) {a : α} (hok : p s = .ok a s') :
    s'.rest.length < s.rest.length := by
  obtain ⟨q, hq, hp⟩ := h
  have hs₀ : p s = (take >>= q) s := hp s.lastStop
  rw [hs₀, bind_of_ok (take_apply s)] at hok
  have := (Lawful.rest_suffix_of_ok hok).length_le
  rw [ParserState.advance_rest, List.length_tail] at this
  have := List.length_pos_iff.2 hs
  omega

end TakesFirst

theorem takesFirst_primary {deeper : Option (Parser Expr)} (hk : s.kind.startsTarget = true) :
    TakesFirst (primary deeper) s := by
  have hprimary (last : Nat) : primary deeper (s.since last) = _ := bind_of_ok (get_apply (s.since last))
  rcases TokenKind.startsTarget_iff.1 hk with hk | hk | hk
  · refine ⟨fun name => do return .name (← fold nameTurn name), fun _ => inferInstance, fun last => ?_⟩
    simp only [hprimary, ParserState.since_kind, hk, qualifiedName_eq, ident, bind_assoc]
    rw [bind_of_ok (sees_apply _ _), ParserState.since_kind, hk]
    rfl
  · refine ⟨fun name => pure (.this name.span), fun _ => inferInstance, fun last => ?_⟩
    simp only [hprimary, ParserState.since_kind, hk]
  · refine ⟨fun name => pure (.super name.span), fun _ => inferInstance, fun last => ?_⟩
    simp only [hprimary, ParserState.since_kind, hk]

/-! ## Statements -/

section

variable {deeper : Option Level} [LawfulLevel deeper]

theorem takesFirst_assignmentOrCall (hs : s.rest ≠ []) (hk : s.kind.startsTarget = true) :
    TakesFirst (assignmentOrCall deeper) s := by
  have haccess : TakesFirst (accessOf (deeper.map Level.unary)) s := .offset hs (takesFirst_primary hk).bind
  exact .offset hs haccess.bind

theorem ends_assignmentOrCall [ContainingDeeper (deeper.map Level.unary)] (hs : s.Broken x t) :
    Ends (assignmentOrCall deeper) s := by
  refine .bind hs (Containing.contained s hs.fenced) fun start s₁ _ hs₁ => ?_
  refine .bind hs₁ (Containing.contained s₁ hs₁.fenced) fun target s₂ _ hs₂ => ?_
  refine .bind hs₂ (Containing.contained s₂ hs₂.fenced) fun assigns s₃ _ hs₃ => ?_
  cases assigns with
  | false => exact (ends_expectSemicolon hs₃).spanned start fun _ => Stmt.call target
  | true =>
    refine .bind hs₃ (Containing.contained s₃ hs₃.fenced) fun value s₄ _ hs₄ => ?_
    exact (ends_expectSemicolon hs₄).spanned start fun _ => Stmt.assign target value

omit [LawfulLevel deeper] in
theorem statementOf_of_target (hk : s.kind.startsTarget = true) : statementOf deeper s = assignmentOrCall deeper s := by
  rw [statementOf, bind_of_ok (kind_apply s)]
  rcases TokenKind.startsTarget_iff.1 hk with hk | hk | hk <;> rw [hk]

omit [LawfulLevel deeper] in
/-- No statement begins with a quiet token that begins no target. -/
theorem statementOf_of_quiet (hsync : s.kind.isSyncPoint = false) (hw : s.kind.isStatementKeyword = false)
    (hk : s.kind.startsTarget = false) : statementOf deeper s = (fail "statement" : Parser Stmt) s := by
  rw [statementOf, bind_of_ok (kind_apply s)]
  revert hsync hw hk
  generalize s.kind = k
  cases k <;> simp [TokenKind.isSyncPoint, TokenKind.isStatementKeyword, TokenKind.startsTarget]

end

instance containingDeeper_map_unary (levels : Nat) : ContainingDeeper ((deeperLevel levels).map Level.unary) := by
  rw [map_unary_deeperLevel]
  infer_instance

section

variable (levels : Nat)

theorem statement_of_target (hk : s.kind.startsTarget = true) :
    statement levels s = assignmentOrCall (deeperLevel levels) s := by
  rw [statement_eq, statementOf_of_target hk]

theorem statement_of_quiet (hs : s.Broken x t) (hx : x ≠ []) (hk : s.kind.startsTarget = false) :
    statement levels s = .error .syntaxError (s.report (.unexpected "statement" s.text) s.span) := by
  obtain ⟨hsync, hw⟩ := hs.kind_quiet hx
  obtain ⟨u, ts, hr⟩ := List.exists_cons_of_ne_nil hs.fenced.ne_nil
  rw [statement_eq, statementOf_of_quiet hsync hw hk, fail_of_cons hr]

theorem statement_of_semicolon (hk : s.kind = .semicolon) : statement levels s = .ok (.nop s.span) s.advance := by
  rw [statement_eq, statementOf, bind_of_ok (kind_apply s), hk]
  rfl

/-- A broken statement takes a token, if it is one at all. -/
theorem length_lt_of_statement (hs : s.Broken x t) {st : Stmt} (hok : statement levels s = .ok st s') :
    s'.rest.length < s.rest.length := by
  have hne := hs.fenced.ne_nil
  by_cases hx : x = []
  · have hk : s.kind = .semicolon := by rw [ParserState.kind_of_cons (by rw [hs.rest, hx]; rfl), hs.semicolon]
    have := ParserState.length_advance hk (by decide)
    cases (statement_of_semicolon levels hk).symm.trans hok
    omega
  · cases hk : s.kind.startsTarget with
    | true => exact (takesFirst_assignmentOrCall hne hk).length_lt hne ((statement_of_target levels hk).symm.trans hok)
    | false => cases (statement_of_quiet levels hs hx hk).symm.trans hok

theorem ends_statement (hs : s.Broken x t) : Ends (statement levels) s := by
  have hne := hs.fenced.ne_nil
  by_cases hx : x = []
  · have hk : s.kind = .semicolon := by rw [ParserState.kind_of_cons (by rw [hs.rest, hx]; rfl), hs.semicolon]
    refine .of_ok (statement_of_semicolon levels hk) (.inl (by rw [ParserState.advance_rest, hs.rest, hx]; rfl))
      fun e _ => ?_
    rw [statement_of_semicolon levels (by rw [ParserState.within_kind hne, hk]), ParserState.within_span hne,
      ParserState.within_advance hne]
  · cases hk : s.kind.startsTarget with
    | true =>
      refine (ends_assignmentOrCall hs).of_eq (statement_of_target levels hk) fun e => statement_of_target levels ?_
      rw [ParserState.within_kind hne, hk]
    | false =>
      obtain ⟨hsync, hw⟩ := hs.kind_quiet hx
      have hfail : Ends (fail "statement" : Parser Stmt) s := .of_contained hs (Containing.contained s hs.fenced)
      refine hfail.of_eq ?_ fun e => ?_
      · rw [statement_eq, statementOf_of_quiet hsync hw hk]
      · rw [← ParserState.within_kind (e := e) hne] at hsync hw hk
        rw [statement_eq, statementOf_of_quiet hsync hw hk]

end

end Parser

end StructuredText
