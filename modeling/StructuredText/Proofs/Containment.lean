import StructuredText.Proofs.Broken

/-!
# Errors between statements

A `;` contains an error. Turn by turn, broken statements are read in the same way whatever stands behind their `;`, and
the loop goes on right behind it (`Parser.turns_of_broken`). So broken text between statements is read as if it stood
alone, and the statements around it as if it were not there (`parseStatements_contains_errors`).
-/

namespace StructuredText

namespace Parser

variable {s s' : ParserState} {x y : List Lexeme} {t : Lexeme}

/-! ## Lists of statements -/

section

variable {part : Parser α} {skipRest : Parser PUnit}

theorem recovering_of_ok {a : α} (h : part s = .ok a s') : recovering part skipRest s = .ok (.more [a]) s' := by
  rw [recovering, bind_of_ok (get_apply s), orRecover_apply, bind_of_ok h]
  rfl

theorem recovering_of_syntaxError {s₁ : ParserState} (h : part s = .error .syntaxError s₁)
    (hskip : skipRest s₁ = .ok ⟨⟩ s') (hlt : s'.rest.length ≠ s.rest.length) :
    recovering part skipRest s = .ok (.more []) s' := by
  rw [recovering, bind_of_ok (get_apply s), orRecover_apply, bind_apply part, h]
  show (skipRest >>= _) s₁ = _
  rw [bind_of_ok hskip, bind_of_ok (get_apply s'), if_neg hlt]
  rfl

theorem recovering_of_error {a : Abort} (h : part s = .error a s') (ha : a ≠ .syntaxError) :
    recovering part skipRest s = .error a s' := by
  rw [recovering, bind_of_ok (get_apply s), orRecover_apply, bind_apply part, h]
  cases a with
  | syntaxError => exact absurd rfl ha
  | endOfStream | tooDeep => rfl

theorem recovering_congr {s₁ : ParserState} (h : part s = part s₁) (hr : s.rest = s₁.rest) :
    recovering part skipRest s = recovering part skipRest s₁ := by
  rw [recovering, bind_of_ok (get_apply s), bind_of_ok (get_apply s₁), orRecover_apply, orRecover_apply,
    bind_apply part, bind_apply part, h, hr]

end

section

variable (levels : Nat)

/-- One more statement of a list, unless the list is over. -/
def listTurn : Parser (Turn Stmt) := statementTurn (statement levels) fun _ => false

variable {levels}

theorem listTurn_of_nil (hs : s.rest = []) : listTurn levels s = .ok (.last []) s := by
  rw [listTurn, statementTurn, bind_of_ok (get_apply s), hs]
  rfl

theorem listTurn_of_ne_nil (hs : s.rest ≠ []) (hk : s.kind.endsStatements = false) :
    listTurn levels s = recovering (statement levels) skipStatement s := by
  rw [listTurn, statementTurn, bind_of_ok (get_apply s), List.isEmpty_eq_false_iff.2 hs, hk]
  rfl

/-- One turn at broken statements leaves no token or broken statements, and does the same within closed surroundings;
or the statements are nested too deep. -/
theorem listTurn_of_broken (levels : Nat) (hs : s.Broken x t) :
    (∃ items s', listTurn levels s = .ok (.more items) s' ∧ s'.rest.length < s.rest.length ∧
      (s'.rest = [] ∨ ∃ y u, s'.Broken y u) ∧
      ∀ e : Surroundings, e.Closed → listTurn levels (s.within e) = .ok (.more items) (s'.within e)) ∨
    ∃ a s', listTurn levels s = .error a s' := by
  have hne := hs.fenced.ne_nil
  have hpos : 0 < s.rest.length := List.length_pos_iff.2 hne
  have hends := ends_statement levels hs
  have hwithin (e : Surroundings) : listTurn levels (s.within e) =
      recovering (statement levels) skipStatement (s.within e) :=
    listTurn_of_ne_nil (by simp [hne]) (by rw [ParserState.within_kind hne, hs.endsStatements])
  rw [listTurn_of_ne_nil hne hs.endsStatements]
  cases hst : statement levels s with
  | ok st s₁ =>
    refine .inl ⟨[st], s₁, recovering_of_ok hst, length_lt_of_statement levels hs hst, hends.ok hst, fun e he => ?_⟩
    have hsame := hends.unmoved e he
    rw [Unmoved, hst] at hsame
    rw [hwithin, recovering_of_ok hsame]
  | error a s₁ =>
    by_cases ha : a = .syntaxError
    · subst ha
      obtain ⟨y, u, hs₁⟩ := hends.error hst
      refine .inl ⟨[], s₁.behind u, recovering_of_syntaxError hst (skipStatement_of_broken hs₁) (Nat.ne_of_lt hpos),
        hpos, .inl rfl, fun e he => ?_⟩
      have hsame := hends.unmoved e he
      rw [Unmoved, hst] at hsame
      rw [hwithin]
      refine recovering_of_syntaxError hsame (skipStatement_within hs₁) ?_
      simp only [ParserState.within_rest, ParserState.behind, List.length_append, List.length_nil]
      omega
    · exact .inr ⟨a, s₁, recovering_of_error hst ha⟩

/-- The loop at broken statements ends right behind the `;`, and does the same within closed surroundings; or the
statements are nested too deep. -/
theorem turns_of_broken (levels : Nat) (hs : s.rest = [] ∨ ∃ x t, s.Broken x t) :
    (∃ items s', s'.rest = [] ∧ Turns (listTurn levels) s items s' ∧
      ∀ e : Surroundings, e.Closed → Turns (listTurn levels) (s.within e) items (s'.within e)) ∨
    ∀ left : List Lexeme, s.rest.length ≤ left.length →
      ∃ a s', collectWithin (listTurn levels) left s = .error a s' := by
  induction hn : s.rest.length using Nat.strongRecOn generalizing s with
  | ind n ih =>
    rcases hs with hs | ⟨x, t, hs⟩
    · exact .inl ⟨[], s, hs, .done, fun _ _ => .done⟩
    · rcases listTurn_of_broken levels hs with ⟨items, s₁, hturn, hlt, hs₁, hwithin⟩ | ⟨a, s₁, hturn⟩
      · rcases ih _ (hn ▸ hlt) hs₁ rfl with ⟨more, s', hs', hmore, hwithin'⟩ | herror
        · refine .inl ⟨items ++ more, s', hs', .more hturn hlt hmore, fun e he => ?_⟩
          refine .more (hwithin e he) ?_ (hwithin' e he)
          simp only [ParserState.within_rest, List.length_append]
          omega
        · refine .inr fun left hle => ?_
          cases left with
          | nil => rw [List.length_nil] at hle; omega
          | cons l left =>
            rw [List.length_cons] at hle
            obtain ⟨a, s', h⟩ := herror left (by omega)
            exact ⟨a, s', by rw [collectWithin_cons, bind_of_ok hturn, collectAfter, bind_apply, h]⟩
      · refine .inr fun left hle => ?_
        cases left with
        | nil => exact ⟨a, s₁, by rw [collectWithin_nil, bind_apply, hturn]⟩
        | cons l left => exact ⟨a, s₁, by rw [collectWithin_cons, bind_apply, hturn]⟩

/-- Where no statement begins, the first turn reports one problem and leaves no token. -/
theorem listTurn_of_quiet (hs : s.Broken x t) (hx : x ≠ []) (hk : s.kind.startsTarget = false) :
    listTurn levels s = .ok (.more []) ((s.report (.unexpected "statement" s.text) s.span).behind t) := by
  have hne := hs.fenced.ne_nil
  rw [listTurn_of_ne_nil hne hs.endsStatements]
  exact recovering_of_syntaxError (statement_of_quiet levels hs hx hk) (skipStatement_of_broken (hs.report _ _))
    (Nat.ne_of_lt (List.length_pos_iff.2 hne))

/-- In front of broken statements, it does not matter where the last token ended. -/
theorem listTurn_since (levels : Nat) (hs : s.Broken x t) (hx : x ≠ []) (last : Nat) :
    listTurn levels (s.since last) = listTurn levels s := by
  have hne := hs.fenced.ne_nil
  cases hk : s.kind.startsTarget with
  | true =>
    rw [listTurn_of_ne_nil hne hs.endsStatements, listTurn_of_ne_nil (s := s.since last) hne hs.endsStatements]
    refine recovering_congr ?_ rfl
    rw [statement_of_target levels hk, statement_of_target (s := s.since last) levels hk]
    exact (takesFirst_assignmentOrCall hne hk).since hne last
  | false =>
    rw [listTurn_of_quiet hs hx hk, listTurn_of_quiet (hs.since last) hx hk, ParserState.since_span hne]
    rfl

theorem statements_since (levels : Nat) (hs : s.Broken x t) (hx : x ≠ []) (last : Nat) :
    statements levels (s.since last) = statements levels s := by
  obtain ⟨u, ts, hr⟩ := List.exists_cons_of_ne_nil hs.fenced.ne_nil
  show collectWithin (listTurn levels) s.rest (s.since last) = collectWithin (listTurn levels) s.rest s
  rw [hr, collectWithin_cons, bind_apply, bind_apply, listTurn_since levels hs hx]

/-- Statements are read turn by turn where they are spelled. -/
theorem turns_of_spelled {sts : List Stmt} (h : (StmtPhrase.stmts sts).Spelled x y) (hn : Stmt.nestingAll sts ≤ levels)
    (hs : s.rest = x) : ∃ s', Turns (listTurn levels) s sts s' ∧ Passed s s' ∧ s'.rest = y := by
  induction sts generalizing x s with
  | nil =>
    cases h
    exact ⟨s, .done, .refl s, hs⟩
  | cons st sts ih =>
    rw [Stmt.nestingAll] at hn
    obtain ⟨hn₁, hn₂⟩ := Nat.max_le.1 hn
    cases h with
    | moreStmts hst hsts =>
      obtain ⟨s₁, hturn, hs₁⟩ := statementTurn_more passesStatements_false hst (statement_complete hst hn₁) s hs
      obtain ⟨s', hturns, hpassed, hs'⟩ := ih hsts hn₂ hs₁
      refine ⟨s', .more hturn.1 ?_ hturns, hturn.passed.trans hpassed, hs'⟩
      rw [hs₁, hs]
      exact hst.length_lt rfl

end

/-! ## Whole streams -/

section

variable {levels : Nat}

theorem collect_statementsTurn_of_ok {sts : List Stmt} (h : statements levels s = .ok sts s') (hs' : s'.rest = []) :
    collect (statementsTurn levels) s = .ok sts s' := by
  have hturn : statementsTurn levels s = .ok (.last sts) s' := by
    rw [statementsTurn_eq, bind_of_ok h, strayTurn, bind_of_ok (get_apply s'), hs']
    rfl
  show collectWithin (statementsTurn levels) s.rest s = _
  cases s.rest with
  | nil => rw [collectWithin_nil, bind_of_ok hturn]; rfl
  | cons t ts => rw [collectWithin_cons, bind_of_ok hturn]; rfl

theorem collect_statementsTurn_of_error {a : Abort} (h : statements levels s = .error a s') :
    collect (statementsTurn levels) s = .error a s' := by
  have hturn : statementsTurn levels s = .error a s' := by rw [statementsTurn_eq, bind_apply, h]
  show collectWithin (statementsTurn levels) s.rest s = _
  cases s.rest with
  | nil => rw [collectWithin_nil, bind_apply, hturn]
  | cons t ts => rw [collectWithin_cons, bind_apply, hturn]

end

end Parser

variable {stream : Stream}

/-- Statements up to the end of the stream are all there is. -/
theorem parseStatements_of_ok {sts : List Stmt} {s : ParserState}
    (h : Parser.statements maxNesting (.start stream) = .ok sts s) (hs : s.rest = []) :
    ∃ span, parseStatements stream = ⟨some ⟨sts, span⟩, s.reports.reverse⟩ := by
  refine ⟨s.spanFrom (ParserState.start stream).span.start, Parser.run_of_ok ?_⟩
  rw [Parser.statementRoot, Parser.bind_of_ok (Parser.offset_apply _),
    Parser.bind_of_ok (Parser.collect_statementsTurn_of_ok h hs)]
  rfl

theorem parseStatements_of_error {a : Abort} {s : ParserState}
    (h : Parser.statements maxNesting (.start stream) = .error a s) : (parseStatements stream).tree = none := by
  have hroot : Parser.statementRoot maxNesting (.start stream) = .error a s := by
    rw [Parser.statementRoot, Parser.bind_of_ok (Parser.offset_apply _), Parser.bind_apply,
      Parser.collect_statementsTurn_of_error h]
  rw [parseStatements, Parser.run_of_error hroot]

/-- Broken statements alone: they are nested too deep, or they are read up to the `;`, wherever the token before ended,
and within closed surroundings in the same way. -/
theorem parseStatements_of_broken {x : List Lexeme} {t : Lexeme} (hs : (ParserState.start stream).Broken x t)
    (hx : x ≠ []) (last : Nat) : (parseStatements stream).tree = none ∨
      ∃ (sts : List Stmt) (span : Span) (s : ParserState), s.rest = [] ∧
        parseStatements stream = ⟨some ⟨sts, span⟩, s.reports.reverse⟩ ∧
        ((ParserState.start stream).kind.startsTarget = false → sts = [] ∧ s.reports.length = 1) ∧
        ∀ e : Surroundings, e.Closed →
          Parser.Turns (Parser.listTurn maxNesting) (((ParserState.start stream).since last).within e) sts
            (s.within e) := by
  have hsince := Parser.statements_since maxNesting hs hx last
  rcases Parser.turns_of_broken maxNesting (.inr ⟨x, t, hs.since last⟩) with ⟨sts, s, hr, hturns, h⟩ | herror
  · have hsts : Parser.statements maxNesting (.start stream) = .ok (sts ++ []) s := by
      rw [← hsince]
      exact hturns.collect (Parser.listTurn_of_nil hr)
    rw [List.append_nil] at hsts
    obtain ⟨span, hparse⟩ := parseStatements_of_ok hsts hr
    refine .inr ⟨sts, span, s, hr, hparse, fun hk => ?_, h⟩
    have hquiet : Parser.statements maxNesting (.start stream) = .ok ([] ++ [] ++ []) _ :=
      (Parser.Turns.more (Parser.listTurn_of_quiet hs hx hk) (List.length_pos_iff.2 hs.fenced.ne_nil) .done).collect
        (Parser.listTurn_of_nil rfl)
    cases hquiet.symm.trans hsts
    exact ⟨rfl, rfl⟩
  · obtain ⟨a, s, h⟩ := herror _ (Nat.le_refl _)
    have hsts : Parser.statements maxNesting (.start stream) = .error a s := by
      rw [← hsince]
      exact h
    exact .inl (parseStatements_of_error hsts)

/-- Statements, broken ones up to a `;`, and statements again: the broken ones are read as if they stood alone, and the
others as if the broken ones were not there. -/
theorem parseStatements_around {part whole : Stream} {x y z : List Lexeme} {t : Lexeme} {as cs : List Stmt}
    {b : StatementList} (has : SpellsStatements x as) (hna : Stmt.nestingAll as ≤ maxNesting)
    (hcs : SpellsStatements z cs) (hnc : Stmt.nestingAll cs ≤ maxNesting)
    (hpart : (ParserState.start part).Broken y t) (hy : y ≠ []) (hwhole : whole.significant = x ++ (y ++ t :: z))
    (hsource : whole.source = part.source) (hb : (parseStatements part).tree = some b) :
    ∃ span, parseStatements whole = ⟨some ⟨as ++ b.statements ++ cs, span⟩, (parseStatements part).reports⟩ ∧
      ((ParserState.start part).kind.startsTarget = false →
        b.statements = [] ∧ (parseStatements part).reports.length = 1) := by
  -- The first statements are read in front of the broken ones.
  have hmore : headKind (y ++ t :: z) ≠ .semicolon := by
    obtain ⟨u, ts, rfl⟩ := List.exists_cons_of_ne_nil hy
    intro hk
    have hu := (hpart.quiet u List.mem_cons_self).1
    rw [show u.kind = .semicolon from hk] at hu
    cases hu
  have hspelled : (StmtPhrase.stmts as).Spelled (x ++ (y ++ t :: z)) (y ++ t :: z) := has.append (absurd · hmore)
  obtain ⟨p, hturns, ⟨ts, hp⟩, hrest⟩ := Parser.turns_of_spelled (s := .start whole) hspelled hna hwhole
  -- The broken ones are read as if they stood alone.
  let e : Surroundings := ⟨whole.stop, z, []⟩
  have he : e.Closed := Surroundings.closed_of_spells (e := e) hcs
  have hwithin : p = ((ParserState.start part).since p.lastStop).within e := by
    have hsig : part.significant = y ++ [t] := hpart.rest
    calc p = ⟨whole.source, whole.stop, p.rest, p.lastStop, []⟩ := by rw [hp.eq]; rfl
      _ = _ := by
        rw [hrest]
        simp [ParserState.within, ParserState.since, ParserState.start, e, hsource, hsig]
  obtain hnone | ⟨sts, span, s, hs, hparse, hquiet, hturns'⟩ := parseStatements_of_broken hpart hy p.lastStop
  · cases hnone.symm.trans hb
  rw [hparse] at hb
  cases hb
  -- The last statements are read up to the end.
  obtain ⟨q, hturnsC, ⟨us, hq⟩, hqrest⟩ := Parser.turns_of_spelled (s := s.within e) hcs hnc (by simp [hs, e])
  have hall : Parser.statements maxNesting (.start whole) = .ok (as ++ (sts ++ cs) ++ []) q := by
    refine Parser.Turns.collect (hturns.trans ?_) (Parser.listTurn_of_nil hqrest)
    rw [hwithin]
    exact (hturns' e he).trans hturnsC
  obtain ⟨span', hwholeParse⟩ := parseStatements_of_ok hall hqrest
  refine ⟨span', ?_, fun hk => ?_⟩
  · have hreports : q.reports = s.reports := by
      rw [hq.eq]
      exact List.append_nil s.reports
    rw [hwholeParse, hparse, hreports, List.append_nil, List.append_assoc]
  · obtain ⟨hsts, hlen⟩ := hquiet hk
    rw [hparse]
    exact ⟨hsts, by rw [List.length_reverse, hlen]⟩

/-- Errors between statements are contained. Let `as` and `cs` be read as statements without a diagnostic, and let `bs`
be tokens of any kind that neither end nor begin a statement, not all of them trivia. Where `bs` and a `;` alone have a
tree, all of them together have one: its statements are those of the three parts in this order, and its diagnostics are
those of the broken part. If that part begins with no name, `THIS` or `SUPER`, it adds no statement and one
diagnostic. -/
theorem parseStatements_contains_errors {source : List Char} {as bs cs : List Token} {semicolon : Token}
    {a b c : StatementList} (has : ∀ t ∈ as, t.kind ≠ .eof)
    (ha : (parseStatements ⟨as, source⟩).tree = some a ∧ (parseStatements ⟨as, source⟩).diagnostics = [])
    (hc : (parseStatements ⟨cs, source⟩).tree = some c ∧ (parseStatements ⟨cs, source⟩).diagnostics = [])
    (hbs : ∀ t ∈ bs, t.kind ≠ .eof ∧ t.kind.isSyncPoint = false ∧ t.kind.isStatementKeyword = false)
    (hne : ∃ t ∈ bs, t.kind.isTrivia = false) (hsemicolon : semicolon.kind = .semicolon)
    (hb : (parseStatements ⟨bs ++ [semicolon], source⟩).tree = some b) :
    (∃ all, (parseStatements ⟨as ++ bs ++ [semicolon] ++ cs, source⟩).tree = some all ∧
      all.statements = a.statements ++ b.statements ++ c.statements) ∧
    (parseStatements ⟨as ++ bs ++ [semicolon] ++ cs, source⟩).diagnostics =
      (parseStatements ⟨bs ++ [semicolon], source⟩).diagnostics ∧
    ∀ t, bs.find? (fun t => !t.kind.isTrivia) = some t → t.kind.startsTarget = false →
      b.statements = [] ∧ (parseStatements ⟨bs ++ [semicolon], source⟩).diagnostics.length = 1 := by
  obtain ⟨hspellsA, hnA, -⟩ := Parser.exists_reads_statementRoot_iff.1 (Parser.run_clean_iff.1 ha)
  obtain ⟨hspellsC, hnC, -⟩ := Parser.exists_reads_statementRoot_iff.1 (Parser.run_clean_iff.1 hc)
  -- What is looked at of the broken part.
  have hsigB : (Stream.mk bs source).significant = (bs.filter fun t => !t.kind.isTrivia).map (Token.lexeme source) :=
    Stream.significant_of_no_eof fun t ht => (hbs t ht).1
  have hsigSemicolon : (Stream.mk [semicolon] source).significant = [semicolon.lexeme source] := by
    rw [Stream.significant_of_no_eof (by simp [hsemicolon])]
    simp [hsemicolon, TokenKind.isTrivia]
  have hrest : (ParserState.start ⟨bs ++ [semicolon], source⟩).rest =
      (Stream.mk bs source).significant ++ [semicolon.lexeme source] := by
    show Stream.significant _ = _
    rw [Stream.significant_append fun t ht => (hbs t ht).1, hsigSemicolon]
  have hbroken : (ParserState.start ⟨bs ++ [semicolon], source⟩).Broken (Stream.mk bs source).significant
      (semicolon.lexeme source) := by
    refine ⟨hrest, hsemicolon, fun u hu => ?_⟩
    obtain ⟨p, hp, rfl⟩ := Stream.exists_of_mem_significant hu
    exact (hbs p hp).2
  have hx : (Stream.mk bs source).significant ≠ [] := by
    obtain ⟨t, ht, hk⟩ := hne
    rw [hsigB]
    exact List.ne_nil_of_mem (List.mem_map_of_mem (List.mem_filter.2 ⟨ht, by simp [hk]⟩))
  have hwhole : (Stream.mk (as ++ bs ++ [semicolon] ++ cs) source).significant = (Stream.mk as source).significant ++
      ((Stream.mk bs source).significant ++ semicolon.lexeme source :: (Stream.mk cs source).significant) := by
    rw [List.append_assoc, List.append_assoc, Stream.significant_append has,
      Stream.significant_append fun t ht => (hbs t ht).1, Stream.significant_append (by simp [hsemicolon]),
      hsigSemicolon]
    rfl
  obtain ⟨span, hparse, hquiet⟩ := parseStatements_around hspellsA hnA hspellsC hnC hbroken hx hwhole rfl hb
  refine ⟨⟨_, by rw [hparse], rfl⟩, by rw [Parse.diagnostics, hparse]; rfl, fun t ht hk => ?_⟩
  rw [Parse.length_diagnostics]
  refine hquiet ?_
  obtain ⟨ts, hts⟩ : ∃ ts, bs.filter (fun t => !t.kind.isTrivia) = t :: ts := by
    rw [← List.head?_filter] at ht
    exact List.head?_eq_some_iff.1 ht
  rw [ParserState.kind_eq_headKind, hrest, hsigB, hts]
  exact hk

/-- A call, a stray operator with an open bracket behind it, and a call. -/
def brokenText : List Char := "a; + ( x; b;".toList

/-- The tokens of the first call. -/
def firstTokens : List Token := [⟨.ident, ⟨0, 1⟩⟩, ⟨.semicolon, ⟨1, 2⟩⟩]

/-- The tokens of the broken part. -/
def brokenTokens : List Token := [⟨.plus, ⟨3, 4⟩⟩, ⟨.lParen, ⟨5, 6⟩⟩, ⟨.ident, ⟨7, 8⟩⟩]

/-- The tokens of the last call. -/
def lastTokens : List Token := [⟨.ident, ⟨10, 11⟩⟩, ⟨.semicolon, ⟨11, 12⟩⟩]

/-- The first call. -/
def firstCall : StatementList := ⟨[.call (.name ⟨"a", ⟨0, 1⟩⟩) ⟨0, 2⟩], ⟨0, 2⟩⟩

/-- The last call. -/
def lastCall : StatementList := ⟨[.call (.name ⟨"b", ⟨10, 11⟩⟩) ⟨10, 12⟩], ⟨10, 12⟩⟩

theorem parseStatements_contains_open_bracket :
    (∀ t ∈ firstTokens, t.kind ≠ .eof) ∧
    ((parseStatements ⟨firstTokens, brokenText⟩).tree = some firstCall ∧
      (parseStatements ⟨firstTokens, brokenText⟩).diagnostics = []) ∧
    ((parseStatements ⟨lastTokens, brokenText⟩).tree = some lastCall ∧
      (parseStatements ⟨lastTokens, brokenText⟩).diagnostics = []) ∧
    (∀ t ∈ brokenTokens, t.kind ≠ .eof ∧ t.kind.isSyncPoint = false ∧ t.kind.isStatementKeyword = false) ∧
    (∃ t ∈ brokenTokens, t.kind.isTrivia = false) ∧
    (parseStatements ⟨brokenTokens ++ [⟨.semicolon, ⟨8, 9⟩⟩], brokenText⟩).tree = some ⟨[], ⟨3, 9⟩⟩ ∧
    ∃ all, (parseStatements ⟨firstTokens ++ brokenTokens ++ [⟨.semicolon, ⟨8, 9⟩⟩] ++ lastTokens, brokenText⟩).tree =
      some all ∧ all.statements = firstCall.statements ++ [] ++ lastCall.statements := by
  have has : ∀ t ∈ firstTokens, t.kind ≠ .eof := by decide
  have hfirst : (parseStatements ⟨firstTokens, brokenText⟩).tree = some firstCall ∧
      (parseStatements ⟨firstTokens, brokenText⟩).diagnostics = [] := ⟨rfl, rfl⟩
  have hlast : (parseStatements ⟨lastTokens, brokenText⟩).tree = some lastCall ∧
      (parseStatements ⟨lastTokens, brokenText⟩).diagnostics = [] := ⟨rfl, rfl⟩
  have hbs : ∀ t ∈ brokenTokens, t.kind ≠ .eof ∧ t.kind.isSyncPoint = false ∧ t.kind.isStatementKeyword = false := by
    decide
  have hne : ∃ t ∈ brokenTokens, t.kind.isTrivia = false := by decide
  have hb : (parseStatements ⟨brokenTokens ++ [⟨.semicolon, ⟨8, 9⟩⟩], brokenText⟩).tree = some ⟨[], ⟨3, 9⟩⟩ := rfl
  exact ⟨has, hfirst, hlast, hbs, hne, hb, (parseStatements_contains_errors has hfirst hlast hbs hne rfl hb).1⟩

/-- An `eof` token ends the stream wherever it stands: neither broken text nor statements behind one are looked at. -/
theorem parseStatements_ends_at_eof :
    ((parseStatements ⟨[⟨.eof, ⟨0, 0⟩⟩], brokenText⟩).tree = some ⟨[], ⟨12, 12⟩⟩ ∧
      (parseStatements ⟨[⟨.eof, ⟨0, 0⟩⟩], brokenText⟩).diagnostics = []) ∧
    ((parseStatements ⟨lastTokens, brokenText⟩).tree = some lastCall ∧
      (parseStatements ⟨lastTokens, brokenText⟩).diagnostics = []) ∧
    (∀ t ∈ brokenTokens, t.kind ≠ .eof ∧ t.kind.isSyncPoint = false ∧ t.kind.isStatementKeyword = false) ∧
    ((parseStatements ⟨brokenTokens ++ [⟨.semicolon, ⟨8, 9⟩⟩], brokenText⟩).tree = some ⟨[], ⟨3, 9⟩⟩ ∧
      (parseStatements ⟨brokenTokens ++ [⟨.semicolon, ⟨8, 9⟩⟩], brokenText⟩).diagnostics.length = 1) ∧
    (parseStatements ⟨[⟨.eof, ⟨0, 0⟩⟩] ++ brokenTokens ++ [⟨.semicolon, ⟨8, 9⟩⟩] ++ lastTokens, brokenText⟩).tree =
      some ⟨[], ⟨12, 12⟩⟩ ∧
    (parseStatements ⟨[⟨.eof, ⟨0, 0⟩⟩] ++ brokenTokens ++ [⟨.semicolon, ⟨8, 9⟩⟩] ++ lastTokens, brokenText⟩).diagnostics =
      [] := by
  have hbs : ∀ t ∈ brokenTokens, t.kind ≠ .eof ∧ t.kind.isSyncPoint = false ∧ t.kind.isStatementKeyword = false := by
    decide
  exact ⟨⟨rfl, rfl⟩, ⟨rfl, rfl⟩, hbs, ⟨rfl, rfl⟩, rfl, rfl⟩

end StructuredText
