import StructuredText.Proofs.Lacking.Unit
import StructuredText.Proofs.Order
import StructuredText.Proofs.ParseStatements
import StructuredText.Proofs.ParseUnits

/-!
# Streams that lack one `;`

A source without a diagnostic loses the `;` token of a statement or of a declaration. Where what follows cannot be
taken for a part of it, the parse reports the missing `;` and gives the same tree up to spans
(`parseSource_missing_semicolon`). The same holds of the last statement in the arm of a `CASE` in front of the labels of
the next arm, unless it is a call (`parseStatements_missing_semicolon`): the search for a colon passes over a call, and
so it is taken for a label itself (`StmtHeadSpelled.atCaseLabel_of_call`).
-/

namespace StructuredText

open StructuredText.Parser

/-- The parse gives a tree of which `P` holds, and reports a `;` that is missing at this span, and nothing else. -/
def Parse.MissesSemicolon (p : Parse α) (P : α → Prop) (span : Span) : Prop :=
  (∃ a, p.tree = some a ∧ P a) ∧ p.diagnostics = [⟨.syntaxError, .error, span, "expected ';'", some ";"⟩]

/-- The tokens that a parse of a text looks at from here on. -/
def significantIn (text : String) (ts : List Token) : List Lexeme := (⟨ts, text.toList⟩ : Stream).significant

/-! ## The `;` of a part -/

section

variable {text : String} {ts us : List Token} {t : Token} {x x' y z : List Lexeme} {span : Span}

/-- A `;` that ends where a part does is the `;` of the part. -/
theorem Removed.eq_of_standFrom {n : Nat} {u : Lexeme} {xs ys : List Lexeme} (h : Removed span z x x')
    (hx : StandFrom n x) (heq : x = xs ++ u :: ys) (hstop : u.span.stop = span.stop) : z = ys ∧ x' = xs ++ ys := by
  obtain ⟨e, p, q, -, hspan, -, rfl, rfl⟩ := h
  have hpart : StandFrom (stopAfter n p) (q ++ [e]) := by
    have hq := (StandFrom.append_iff.1 hx).2
    rw [← List.singleton_append, ← List.append_assoc] at hq
    exact (StandFrom.append_iff.1 hq).1
  have hstop' : e.span.stop = u.span.stop := by
    rw [hstop, hspan, hpart.spanOf_eq (by simp), List.getLast_concat]
  rw [← List.append_assoc] at hx heq
  obtain ⟨hxs, rfl⟩ := hx.append_cons_inj heq hstop'
  exact ⟨rfl, by rw [← hxs, List.append_assoc]⟩

/-- What a parse looks at in the tokens of a text around a `;`, with it and without it. -/
theorem significant_around (htokens : lex text = ts ++ t :: us) (ht : t.kind = .semicolon) :
    (Stream.ofText text).significant =
      significantIn text ts ++ t.lexeme text.toList :: significantIn text us ∧
    significantIn text (ts ++ us) = significantIn text ts ++ significantIn text us := by
  have hlex : ∀ u ∈ lex text, u.kind ≠ .eof := fun u hu => Stream.kind_ne_eof_ofText u hu
  have hts : ∀ u ∈ ts, u.kind ≠ .eof := by
    intro u hu
    exact hlex u (by rw [htokens]; exact List.mem_append_left _ hu)
  refine ⟨?_, Stream.significant_append hts⟩
  show significantIn text (lex text) = _
  rw [htokens]
  exact Stream.significant_append_cons hts (by simp [ht, TokenKind.isTrivia])

/-- Without its `;`, a part that lacks it is read. -/
theorem Lacks.of_tokens {ready : List Lexeme → Prop} {read : Report → List Lexeme → Prop} {b : Lexeme}
    (h : Lacks span ready read (Stream.ofText text).significant y) (htokens : lex text = ts ++ t :: us)
    (ht : t.kind = .semicolon) (hstop : t.span.stop = span.stop) (hnext : significantIn text us = b :: z)
    (hready : ready (b :: z)) : read (missingSemicolon b) (significantIn text (ts ++ us)) := by
  obtain ⟨z', x', hx, -, hread⟩ := h
  obtain ⟨hwith, hwithout⟩ := significant_around htokens ht
  have hstand : StandFrom 0 (Stream.ofText text).significant := (Stream.inOrder_ofText text).rest
  obtain ⟨rfl, rfl⟩ := hx.eq_of_standFrom hstand hwith hstop
  rw [hwithout]
  exact hread b z hnext (hnext ▸ hready)

end

/-! ## Roots -/

namespace Parser

variable {levels : Nat} {x y : List Lexeme} {r : Report} {b : Lexeme}

/-- A root that reports what its rule does. -/
theorem Leaves.run {rule : Parser α} {stream : Stream} {P : α → Prop} {rs : List Report}
    (h : Leaves rule stream.significant P rs y) :
    (∃ a, (rule.run stream).tree = some a ∧ P a) ∧ (rule.run stream).reports = rs.reverse := by
  obtain ⟨a, s', hrun, ha, -, hr⟩ := h (.start stream) rfl
  have hr : s'.reports = rs := hr.trans (List.append_nil rs)
  rw [run_of_ok hrun, hr]
  exact ⟨⟨a, rfl, ha⟩, rfl⟩

/-- A root that reports a missing `;`. -/
theorem run_missesSemicolon {rule : Parser α} {stream : Stream} {P : α → Prop}
    (h : Leaves rule stream.significant P [missingSemicolon b] y) : (rule.run stream).MissesSemicolon P b.span := by
  obtain ⟨htree, hreports⟩ := h.run
  refine ⟨htree, ?_⟩
  rw [Parse.diagnostics, hreports]
  rfl

theorem sourceFile_leaves {us : List ProgramUnit} {span : Span}
    (h : LoopLeaves (unitTurn levels) x (List.Forall₂ (fun u u' => u'.plain = u.plain) us) [r] []) :
    Leaves (sourceFile levels) x (·.plain = (⟨us, span⟩ : SourceFile).plain) [r] [] := by
  refine .offset fun _ => .before h.collect fun us' hus => .spanFrom fun _ => .pure ?_
  rw [SourceFile.plain, SourceFile.plain, map_eq_of_forall₂ hus]

theorem statementRoot_leaves {sts : List Stmt} {span : Span}
    (h : Leaves (statements levels) x (Stmt.plainAll · = Stmt.plainAll sts) [r] []) :
    Leaves (statementRoot levels) x (·.plain = (⟨sts, span⟩ : StatementList).plain) [r] [] := by
  have hturn : Leaves (statementsTurn levels) x
      (fun t => ∃ sts', t = .last sts' ∧ Stmt.plainAll sts' = Stmt.plainAll sts) [r] [] := by
    rw [statementsTurn_eq]
    refine .before h fun sts' hsts => .get fun s hs => ?_
    rw [hs]
    exact .pure ⟨sts', rfl, hsts⟩
  refine .offset fun _ => .before (LoopLeaves.last hturn).collect fun sts' hsts => .spanFrom fun _ => .pure ?_
  rw [StatementList.plain, StatementList.plain, hsts]

end Parser

/-! ## Sources -/

section

variable {text : String} {ts us : List Token} {t : Token}

theorem ProgramUnit.nesting_body_le (u : ProgramUnit) : u.body.nesting ≤ u.nesting := by
  cases u with
  | algorithm => exact Nat.le_refl _
  | method => exact Nat.le_max_right _ _

/-- A source lacks a `;` that the body of one of its units lacks. -/
theorem parseSource_lacks {file : SourceFile} {u : ProgramUnit} {span : Span} {ready : List Lexeme → Prop} {b : Lexeme}
    {z : List Lexeme} (htokens : lex text = ts ++ t :: us) (htree : (parseSource (.ofText text)).tree = some file)
    (hclean : (parseSource (.ofText text)).diagnostics = []) (ht : t.kind = .semicolon)
    (hstop : t.span.stop = span.stop) (hu : u ∈ file.units)
    (hbody : u.body.nesting ≤ maxNesting → ∀ unit x y, BodySpelled unit u.body x y →
      Lacks span ready (fun r x' => Leaves (body maxNesting unit) x' (·.plain = u.body.plain) [r] y) x y)
    (hnext : significantIn text us = b :: z) (hready : ready (b :: z)) :
    (parseSource ⟨ts ++ us, text.toList⟩).MissesSemicolon (·.plain = file.plain) b.span := by
  obtain ⟨hunits, hn, -⟩ := ((parseSource_parseInitializer_clean_iff _).1 _).1 ⟨htree, hclean⟩
  have hnest := Nat.le_trans u.nesting_body_le (deepest_le_iff.1 hn u hu)
  have hread := (units_lack hunits hn hu (hbody hnest)).of_tokens htokens ht hstop hnext hready
  exact run_missesSemicolon (sourceFile_leaves hread)

/-- A source lacks the `;` of a declaration in front of `END_VAR` or another declaration, or the `;` of an assignment, a
call or a single word in front of what clearly begins or ends statements, unless it stands in the arm of a `CASE`: the
parse reports a `;` that is missing at the next token and nothing else, and the tree is the same up to spans. -/
theorem parseSource_missing_semicolon {file : SourceFile} (htokens : lex text = ts ++ t :: us)
    (htree : (parseSource (.ofText text)).tree = some file) (hclean : (parseSource (.ofText text)).diagnostics = [])
    (ht : t.kind = .semicolon)
    (hpart : (∃ d ∈ file.decls, t.span.stop = d.span.stop ∧ EndsDecl (significantIn text us)) ∨
      ∃ st, (Place.list, st) ∈ file.placed ∧ st.isSimple = true ∧ t.span.stop = st.span.stop ∧
        ClearlyBegins (significantIn text us)) :
    ∃ b z, significantIn text us = b :: z ∧
      (parseSource ⟨ts ++ us, text.toList⟩).MissesSemicolon (·.plain = file.plain) b.span := by
  rcases hpart with ⟨d, hd, hstop, hnext⟩ | ⟨st, hmem, hst, hstop, hnext⟩
  · obtain ⟨u, hu, hd⟩ := List.mem_flatMap.1 hd
    obtain ⟨block, hblock, hd⟩ := List.mem_flatMap.1 hd
    obtain ⟨b, z, heq, -⟩ := exists_of_headKind rfl hnext.ne_eof
    refine ⟨b, z, heq, ?_⟩
    exact parseSource_lacks htokens htree hclean ht hstop hu (fun hn _ _ _ h => body_lacks_decl h hn hblock hd) heq
      trivial
  · obtain ⟨u, hu, hmem⟩ := List.mem_flatMap.1 hmem
    have hends := hnext.marksEnd
    obtain ⟨b, z, heq, -⟩ := exists_of_headKind rfl (TokenKind.startsAfresh_iff.1 hends.startsAfresh).2.2.2.2
    refine ⟨b, z, heq, ?_⟩
    exact parseSource_lacks htokens htree hclean ht hstop hu (fun hn _ _ _ h => body_lacks_stmt h hn hmem hst) heq
      fun _ => ⟨heq ▸ hends, fun h => by cases h⟩

/-- A call in a branch, with an assignment behind it. -/
def branchText : String := "METHOD m IF x THEN f; x := y; END_IF END_METHOD"

/-- The call and its `;`. -/
def branchCall : Stmt := .call (.name ⟨"f", ⟨19, 20⟩⟩) ⟨19, 21⟩

/-- The tree of the method. -/
def branchFile : SourceFile :=
  ⟨[.method ⟨⟨"m", ⟨7, 8⟩⟩, none, ⟨[], [.ifThen (.name ⟨"x", ⟨12, 13⟩⟩)
    [branchCall, .assign (.name ⟨"x", ⟨22, 23⟩⟩) (.name ⟨"y", ⟨27, 28⟩⟩) ⟨22, 29⟩] [] none ⟨9, 36⟩]⟩, ⟨0, 47⟩⟩],
    ⟨0, 47⟩⟩

theorem parseSource_missing_semicolon_call :
    (parseSource (.ofText branchText)).tree = some branchFile ∧ (Place.list, branchCall) ∈ branchFile.placed ∧
    ∃ b z, significantIn branchText ((lex branchText).drop 12) = b :: z ∧
      (parseSource ⟨(lex branchText).take 11 ++ (lex branchText).drop 12, branchText.toList⟩).MissesSemicolon
        (·.plain = branchFile.plain) b.span := by
  have htree : (parseSource (.ofText branchText)).tree = some branchFile := rfl
  have hmem : (Place.list, branchCall) ∈ branchFile.placed := List.mem_cons_of_mem _ List.mem_cons_self
  have hnext : ClearlyBegins (significantIn branchText ((lex branchText).drop 12)) := .inr (.inr ⟨rfl, rfl⟩)
  exact ⟨htree, hmem, parseSource_missing_semicolon (t := ⟨.semicolon, ⟨20, 21⟩⟩) rfl htree rfl rfl
    (.inr ⟨branchCall, hmem, rfl, rfl, hnext⟩)⟩

/-! ## Statements in front of a label -/

/-- A list of statements lacks the `;` of the last statement of an arm, in front of another arm whose first label begins
with a name or a literal. If the statement is no call, the parse reports a `;` that is missing at the label and nothing
else, and the tree is the same up to spans. -/
theorem parseStatements_missing_semicolon {root : StatementList} {st : Stmt} (htokens : lex text = ts ++ t :: us)
    (htree : (parseStatements (.ofText text)).tree = some root)
    (hclean : (parseStatements (.ofText text)).diagnostics = []) (ht : t.kind = .semicolon)
    (hmem : (Place.armEnd, st) ∈ root.placed) (hst : st.isSimple = true) (hcall : st.isCall = false)
    (hstop : t.span.stop = st.span.stop) (hlabel : (headKind (significantIn text us)).isNameOrLiteral = true) :
    ∃ b z, significantIn text us = b :: z ∧
      (parseStatements ⟨ts ++ us, text.toList⟩).MissesSemicolon (·.plain = root.plain) b.span := by
  obtain ⟨sts, span⟩ := root
  obtain ⟨hsts, hn, -⟩ := (parseStatements_clean_iff _ _).1.1 ⟨htree, hclean⟩
  have hne : headKind (significantIn text us) ≠ .eof := by
    rintro hk
    rw [hk] at hlabel
    cases hlabel
  obtain ⟨b, z, heq, -⟩ := exists_of_headKind rfl hne
  refine ⟨b, z, heq, run_missesSemicolon (statementRoot_leaves ?_)⟩
  have hlacking := StmtPhrase.Spelled.lacking hsts .list hmem hst fun h => by cases h
  have hready : StmtPhrase.Ready .armEnd st (b :: z) := by
    intro harm
    obtain ⟨a, u, ha⟩ := harm rfl
    exact ⟨.of_arm ha (heq ▸ hlabel), fun _ => hcall⟩
  exact (hlacking.of_tokens htokens ht hstop heq hready maxNesting hn fun s hs => by rw [hs]; rfl).collect

/-- An assignment in an arm, with another arm behind it. -/
def armText : String := "CASE x OF a: y := z; b: g; END_CASE"

/-- The assignment and its `;`. -/
def armAssign : Stmt := .assign (.name ⟨"y", ⟨13, 14⟩⟩) (.name ⟨"z", ⟨18, 19⟩⟩) ⟨13, 20⟩

/-- The tree of the statement. -/
def armRoot : StatementList :=
  ⟨[.select (.name ⟨"x", ⟨5, 6⟩⟩) [.mk [.name ⟨"a", ⟨10, 11⟩⟩] [armAssign] ⟨10, 20⟩,
    .mk [.name ⟨"b", ⟨21, 22⟩⟩] [.call (.name ⟨"g", ⟨24, 25⟩⟩) ⟨24, 26⟩] ⟨21, 26⟩] none ⟨0, 35⟩], ⟨0, 35⟩⟩

theorem parseStatements_missing_semicolon_assign :
    (parseStatements (.ofText armText)).tree = some armRoot ∧ (Place.armEnd, armAssign) ∈ armRoot.placed ∧
    ∃ b z, significantIn armText ((lex armText).drop 15) = b :: z ∧
      (parseStatements ⟨(lex armText).take 14 ++ (lex armText).drop 15, armText.toList⟩).MissesSemicolon
        (·.plain = armRoot.plain) b.span := by
  have htree : (parseStatements (.ofText armText)).tree = some armRoot := rfl
  have hmem : (Place.armEnd, armAssign) ∈ armRoot.placed := List.mem_cons_of_mem _ List.mem_cons_self
  exact ⟨htree, hmem, parseStatements_missing_semicolon (t := ⟨.semicolon, ⟨19, 20⟩⟩) rfl htree rfl rfl hmem rfl rfl rfl
    rfl⟩

/-- A call in an arm, with another arm behind it. -/
def labelText : String := "CASE x OF 1: f; 2: g; END_CASE"

/-- The call and its `;`. -/
def labelCall : Stmt := .call (.name ⟨"f", ⟨13, 14⟩⟩) ⟨13, 15⟩

/-- The tree of the statement. -/
def labelRoot : StatementList :=
  ⟨[.select (.name ⟨"x", ⟨5, 6⟩⟩) [.mk [.literal ⟨.integer, none, "1", ⟨10, 11⟩⟩] [labelCall] ⟨10, 15⟩,
    .mk [.literal ⟨.integer, none, "2", ⟨16, 17⟩⟩] [.call (.name ⟨"g", ⟨19, 20⟩⟩) ⟨19, 21⟩] ⟨16, 21⟩] none ⟨0, 30⟩],
    ⟨0, 30⟩⟩

/-- The tokens without the `;` of the call. -/
def labelStream : Stream := ⟨(lex labelText).take 10 ++ (lex labelText).drop 11, labelText.toList⟩

/-- What is left of the statement without that `;`. -/
def labelRest : StatementList :=
  ⟨[.select (.name ⟨"x", ⟨5, 6⟩⟩) [.mk [.literal ⟨.integer, none, "1", ⟨10, 11⟩⟩] [] ⟨10, 12⟩] none ⟨0, 30⟩], ⟨0, 30⟩⟩

/-- Without its `;`, the call is taken for the first label of the next arm, and is lost with that arm. -/
theorem parseStatements_call_lost :
    lex labelText = (lex labelText).take 10 ++ ⟨.semicolon, ⟨14, 15⟩⟩ :: (lex labelText).drop 11 ∧
    (parseStatements (.ofText labelText)).tree = some labelRoot ∧
    (parseStatements (.ofText labelText)).diagnostics = [] ∧ (Place.armEnd, labelCall) ∈ labelRoot.placed ∧
    (parseStatements labelStream).tree = some labelRest ∧
    (parseStatements labelStream).diagnostics =
      [⟨.syntaxError, .error, ⟨16, 17⟩, "expected ':', found '2'", some ":"⟩] ∧
    ∀ span, ¬(parseStatements labelStream).MissesSemicolon (·.plain = labelRoot.plain) span := by
  have hmem : (Place.armEnd, labelCall) ∈ labelRoot.placed := List.mem_cons_of_mem _ List.mem_cons_self
  refine ⟨rfl, rfl, rfl, hmem, rfl, rfl, ?_⟩
  rintro span ⟨-, h⟩
  have hmessage : ["expected ':', found '2'"] = ["expected ';'"] := congrArg (List.map Diagnostic.message) h
  exact absurd hmessage (by decide)

end

end StructuredText
