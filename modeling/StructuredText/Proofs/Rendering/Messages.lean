import StructuredText.Proofs.ParseReports

/-!
# What messages quote

Every problem of a parse is one with the next token, or with tokens that have just been taken (`parse_arises`). So a
message quotes nothing of the text but the token it begins at, or a literal together with its type name, and all the
other words of a message stand on one line: a message breaks over lines only if a text that is no token does, or the
text between a type name and its literal (`Diagnostic.lineBreak_mem_message`).
-/

namespace StructuredText

/-! ## How reports arise -/

/-- A report is about the next token or the end of the stream, or about tokens that have been taken. -/
inductive Report.Arises (source : List Char) (tokens : List Lexeme) : Report → Prop
  | here {s : ParserState} {problem : Problem} :
      s.rest <:+ tokens → problem.Here s → Arises source tokens ⟨problem, s.span⟩
  | about {ts : List Lexeme} {span : Span} {problem : Problem} :
      ts <:+: tokens → problem.About source ts span → Arises source tokens ⟨problem, span⟩

theorem Report.Arises.mono {source : List Char} {tokens tokens' : List Lexeme} {r : Report}
    (h : r.Arises source tokens) (hsuffix : tokens <:+ tokens') : r.Arises source tokens' := by
  cases h with
  | here hrest h => exact .here (hrest.trans hsuffix) h
  | about hts h => exact .about (hts.trans hsuffix.isInfix) h

/-- Between the two states, every report arises from the tokens that the first one has left. -/
structure ParserState.Arising (s s' : ParserState) : Prop where
  rest : s'.rest <:+ s.rest
  source : s'.source = s.source
  reports : ∀ r ∈ s'.reports, r ∈ s.reports ∨ r.Arises s.source s.rest

instance along_arising : Parser.Along ParserState.Arising where
  refl s := ⟨List.suffix_rfl, rfl, fun _ => .inl⟩
  trans h h' := by
    refine ⟨h'.rest.trans h.rest, h'.source.trans h.source, fun r hr => ?_⟩
    rcases h'.reports r hr with hr | hr
    · exact h.reports r hr
    · exact .inr (h.source ▸ hr.mono h.rest)
  advance s := by
    refine ⟨(Run.advance s).rest_suffix, ParserState.advance_source s, fun r hr => .inl ?_⟩
    rwa [ParserState.advance_reports] at hr
  here {s _} h := by
    refine ⟨List.suffix_rfl, rfl, fun r hr => ?_⟩
    rcases List.mem_cons.1 hr with rfl | hr
    · exact .inr (.here List.suffix_rfl h)
    · exact .inl hr
  about {s s' ts _ _} hrun hreports h := by
    refine ⟨hrun.rest_suffix, hrun.source_eq, fun r hr => ?_⟩
    rcases List.mem_cons.1 hr with rfl | hr
    · exact .inr (.about ⟨[], s'.rest, hrun.rest_eq.symm⟩ h)
    · exact .inl (hreports ▸ hr)

theorem Parser.run_arises (rule : Parser α) [hsteady : Steady ParserState.Arising rule] (stream : Stream) :
    ∀ r ∈ (rule.run stream).reports, r.Arises stream.source stream.significant := by
  intro r hr
  rw [run_reports, List.mem_reverse] at hr
  exact ((hsteady.steps (.start stream)).reports r hr).resolve_left List.not_mem_nil

/-- Whatever tokens are read as, every report arises from them. -/
theorem parse_arises (entry : Entry) (stream : Stream) :
    ∀ r ∈ (parse entry stream).reports, r.Arises stream.source stream.significant := by
  cases entry with
  | source => exact Parser.run_arises (Parser.sourceFile maxNesting) stream
  | algorithm => exact Parser.run_arises (Parser.algorithmRoot maxNesting) stream
  | method => exact Parser.run_arises (Parser.methodRoot maxNesting) stream
  | statements => exact Parser.run_arises (Parser.statementRoot maxNesting) stream
  | expression => exact Parser.run_arises (Parser.expressionRoot maxNesting) stream
  | initializer => exact Parser.run_arises (Parser.initializerRoot maxNesting) stream

/-! ## Words and quotations -/

/-- What the message quotes of the text. -/
def Problem.quoted? : Problem → Option String
  | unexpected _ found | stray found | strayOutside found => some found
  | malformedLiteral text _ => some text
  | _ => none

theorem infix_append_left (a b : String) : a.toList <:+: (a ++ b).toList := by
  rw [String.toList_append]
  exact (List.prefix_append _ _).isInfix

theorem infix_append_right (a b : String) : b.toList <:+: (a ++ b).toList := by
  rw [String.toList_append]
  exact (List.suffix_append _ _).isInfix

theorem Problem.quoted_infix {problem : Problem} {quoted : String} (h : quoted ∈ problem.quoted?) :
    quoted.toList <:+: problem.message.toList := by
  cases problem with
  | unexpected | stray | strayOutside =>
    cases h
    exact (infix_append_right _ quoted).trans (infix_append_left _ _)
  | malformedLiteral text fault =>
    cases h
    exact ((infix_append_right _ quoted).trans (infix_append_left _ ": ")).trans (infix_append_left _ fault.message)
  | _ => cases h

instance oneLine_append {a b : String} [ha : OneLine a] [hb : OneLine b] : OneLine (a ++ b) := by
  constructor
  rw [String.toList_append]
  exact fun h => (List.mem_append.1 h).elim ha.notMem hb.notMem

instance : OneLine "'" := ⟨by decide⟩
instance : OneLine ": " := ⟨by decide⟩
instance : OneLine "expected " := ⟨by decide⟩
instance : OneLine ", found '" := ⟨by decide⟩
instance : OneLine ", found end of input" := ⟨by decide⟩
instance : OneLine " nested too deeply" := ⟨by decide⟩
instance : OneLine "malformed literal " := ⟨by decide⟩
instance : OneLine "VAR blocks are not allowed here, use VAR_TEMP" := ⟨by decide⟩
instance : OneLine " blocks are not allowed in an ALGORITHM" := ⟨by decide⟩
instance : OneLine "declaration blocks must come before the first statement" := ⟨by decide⟩
instance : OneLine "unexpected '" := ⟨by decide⟩
instance : OneLine "' outside of a block" := ⟨by decide⟩
instance : OneLine "end of input" := ⟨by decide⟩

instance oneLine_fault (fault : LiteralFault) : OneLine fault.message := ⟨by cases fault <;> decide⟩

instance oneLine_block (kind : BlockKind) : OneLine kind.spelling := ⟨by cases kind <;> decide⟩

instance oneLine_quote {what : String} [OneLine what] : OneLine (Problem.quote what) := by
  unfold Problem.quote
  split <;> infer_instance

theorem Problem.quoted?_of_opening {problem : Problem} (h : problem.OfBlock) : problem.quoted? = none := by
  cases problem with
  | plainBlock | blockInAlgorithm => rfl
  | _ => cases h

theorem Problem.oneLine_of_opening {problem : Problem} (h : problem.OfBlock) : OneLine problem.message := by
  cases problem with
  | plainBlock => exact inferInstanceAs (OneLine "VAR blocks are not allowed here, use VAR_TEMP")
  | blockInAlgorithm kind =>
    exact inferInstanceAs (OneLine (kind.spelling ++ " blocks are not allowed in an ALGORITHM"))
  | _ => cases h

section

variable {source : List Char} {tokens : List Lexeme} {r : Report}

/-- Apart from what it quotes, a message stands on one line. -/
theorem Report.Arises.oneLine (h : r.Arises source tokens) (hquoted : ∀ quoted ∈ r.problem.quoted?, OneLine quoted) :
    OneLine r.problem.message := by
  cases h with
  | here _ h =>
    cases h with
    | opening h => exact Problem.oneLine_of_opening h
    | unexpected what _ | stray _ | strayOutside _ =>
      have := hquoted _ rfl
      unfold Problem.message
      infer_instance
    | _ =>
      unfold Problem.message
      infer_instance
  | about _ h =>
    cases h with
    | opening _ h => exact Problem.oneLine_of_opening h
    | malformedLiteral | trailing =>
      have := hquoted _ rfl
      unfold Problem.message
      infer_instance

/-- A message quotes the token that it begins at, or the text of a literal and its type name. -/
theorem Report.Arises.quoted (h : r.Arises source tokens) {quoted : String} (hquoted : quoted ∈ r.problem.quoted?) :
    (∃ t ∈ tokens, t.span.start = r.span.start ∧ quoted = t.text) ∨
      (r.problem.code = .malformedLiteral ∧ quoted = r.span.textIn source) := by
  cases h with
  | @here s _ hrest h =>
    have hhead {t : Lexeme} {ts : List Lexeme} (hr : s.rest = t :: ts) :
        ∃ u ∈ tokens, u.span.start = s.span.start ∧ t.text = u.text :=
      ⟨t, hrest.subset (by simp [hr]), by rw [ParserState.span_of_cons hr], rfl⟩
    cases h with
    | unexpected _ hr | stray hr | strayOutside hr =>
      cases hquoted
      exact .inl (hhead hr)
    | opening h =>
      rw [Problem.quoted?_of_opening h] at hquoted
      cases hquoted
    | _ => cases hquoted
  | about hts h =>
    cases h with
    | opening _ h =>
      rw [Problem.quoted?_of_opening h] at hquoted
      cases hquoted
    | malformedLiteral =>
      cases hquoted
      exact .inr ⟨rfl, rfl⟩
    | trailing t ts =>
      cases hquoted
      exact .inl ⟨t, hts.subset List.mem_cons_self, rfl, rfl⟩

end

/-! ## Line breaks -/

/-- The message quotes a line break: of a text that is no token, which begins where the diagnostic does, or of the
malformed literal that the diagnostic covers. -/
def Diagnostic.QuotesLineBreak (text : String) (d : Diagnostic) : Prop :=
  ∃ quoted : String, '\n' ∈ quoted.toList ∧ quoted.toList <:+: d.message.toList ∧
    ((∃ t ∈ lex text, t.kind = .error ∧ t.span.start = d.span.start ∧ quoted = t.text text.toList) ∨
      (d.code = .malformedLiteral ∧ quoted = d.span.textIn text.toList))

/-- The messages of a parse break over lines only where they quote a line break. -/
theorem Diagnostic.lineBreak_mem_message (entry : Entry) (text : String) {d : Diagnostic}
    (hd : d ∈ (parse entry (.ofText text)).diagnostics) : '\n' ∈ d.message.toList ↔ d.QuotesLineBreak text := by
  constructor
  · intro hbreak
    obtain ⟨r, hr, rfl⟩ := Parse.mem_diagnostics.1 hd
    have harises := parse_arises entry (.ofText text) r hr
    obtain ⟨quoted, hquoted, hmem⟩ : ∃ quoted ∈ r.problem.quoted?, '\n' ∈ quoted.toList := by
      by_contra hnone
      exact (harises.oneLine fun quoted h => ⟨fun hmem => hnone ⟨quoted, h, hmem⟩⟩).notMem hbreak
    refine ⟨quoted, hmem, Problem.quoted_infix hquoted, ?_⟩
    rcases harises.quoted hquoted with ⟨t, ht, hstart, rfl⟩ | hliteral
    · obtain ⟨u, hu, rfl⟩ := Stream.exists_of_mem_significant ht
      refine .inl ⟨u, hu, ?_, hstart, rfl⟩
      by_contra herror
      exact lex_unbroken text u hu (Stream.isTrivia_of_mem_significant ht) herror hmem
    · exact .inr hliteral
  · rintro ⟨quoted, hmem, hinfix, -⟩
    exact hinfix.subset hmem

end StructuredText
