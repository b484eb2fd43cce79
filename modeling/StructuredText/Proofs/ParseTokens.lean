import StructuredText.Proofs.Roots
import StructuredText.Proofs.StreamEnd.Rules

/-!
# What a parse depends on

A parse depends on its tokens only through the significant ones and through where the stream ends (`parse_congr`), and
the latter is only where it is reported that something is missing at the end (`parse_near`).

Trivia may be left out anywhere but at the end (`parse_triviaDropped`). Tokens behind an `eof` are not read, but they
still say where the stream ends, so that a problem at the end may be reported behind them (`parse_append_eof_ne`). This
is all they do (`parse_append_eof`).
-/

namespace StructuredText

/-- Streams of one text with the same significant tokens and the same end have the same parses. -/
theorem parse_congr {source : List Char} {ts us : List Token}
    (hsignificant : Stream.significant ⟨us, source⟩ = Stream.significant ⟨ts, source⟩)
    (hstop : Stream.stop ⟨us, source⟩ = Stream.stop ⟨ts, source⟩) (entry : Entry) :
    parse entry ⟨us, source⟩ = parse entry ⟨ts, source⟩ := by
  have hstart : ParserState.start ⟨us, source⟩ = ParserState.start ⟨ts, source⟩ := by
    rw [ParserState.start, ParserState.start, hsignificant, hstop]
  have hrun {α : Type} (rule : Parser α) : rule.run ⟨us, source⟩ = rule.run ⟨ts, source⟩ := by
    rw [Parser.run, Parser.run, hstart]
  cases entry <;> exact congrArg (Parse.map _) (hrun _)

/-! ## Where the stream ends -/

/-- The same tree; but where nothing was read, it may stand at `u` for the one and at `u'` for the other. -/
inductive Tree.Near (u u' : Span) : Tree → Tree → Prop
  | same (t : Tree) : Near u u' t t
  | noUnits : Near u u' (.source ⟨[], u⟩) (.source ⟨[], u'⟩)
  | noStatements : Near u u' (.statements ⟨[], u⟩) (.statements ⟨[], u'⟩)

/-- The same tree, and the same problems at the same places, but for those at the end of the stream: at `u` for the one
and at `u'` for the other. -/
structure Parse.Near (u u' : Span) (p p' : Parse Tree) : Prop where
  tree : Option.Rel (Tree.Near u u') p.tree p'.tree
  reports : List.Forall₂ (Report.Near u u') p.reports p'.reports

theorem Parser.near_run {rule : Parser α} {s s' : Stream} {u u' : Span}
    (h : NearOutcome u u' (rule (.start s)) (rule (.start s'))) (f : α → Tree) :
    Parse.Near u u' ((rule.run s).map f) ((rule.run s').map f) := by
  rw [run, run, EStateM.run, EStateM.run]
  revert h
  generalize rule (.start s) = r
  generalize rule (.start s') = r'
  rintro (h | h)
  · exact ⟨.some (.same _), List.forall₂_reverse_iff.2 h.reports⟩
  · exact ⟨.none, List.forall₂_reverse_iff.2 h.reports⟩

/-- Streams of one text with the same significant tokens have the same parses, but for what is reported at the end. -/
theorem parse_near {source : List Char} {ts us : List Token}
    (hsignificant : Stream.significant ⟨us, source⟩ = Stream.significant ⟨ts, source⟩) (entry : Entry) :
    Parse.Near (Stream.endSpan ⟨us, source⟩) (Stream.endSpan ⟨ts, source⟩)
      (parse entry ⟨us, source⟩) (parse entry ⟨ts, source⟩) := by
  have hstart : (ParserState.start ⟨us, source⟩).Near (Stream.endSpan ⟨us, source⟩) (Stream.endSpan ⟨ts, source⟩)
      (.start ⟨ts, source⟩) :=
    ⟨rfl, hsignificant, rfl, rfl, rfl, .nil⟩
  cases entry with
  | algorithm => exact Parser.near_run ((Parser.blind_algorithmRoot maxNesting).outcome hstart) _
  | method => exact Parser.near_run ((Parser.blind_methodRoot maxNesting).outcome hstart) _
  | expression => exact Parser.near_run ((Parser.blind_expressionRoot maxNesting).outcome hstart) _
  | initializer => exact Parser.near_run ((Parser.blind_initializerRoot maxNesting).outcome hstart) _
  | source =>
    by_cases hr : Stream.significant ⟨us, source⟩ = []
    · have hrun := Parser.sourceFile_of_nil maxNesting (s := .start ⟨us, source⟩) hr
      have hrun' := Parser.sourceFile_of_nil maxNesting (s := .start ⟨ts, source⟩) (hsignificant.symm.trans hr)
      rw [parse, parse, parseSource, parseSource, Parser.run_of_ok hrun, Parser.run_of_ok hrun']
      exact ⟨.some .noUnits, .nil⟩
    · exact Parser.near_run ((Parser.blindInside_sourceFile maxNesting).outcome hstart hr) _
  | statements =>
    by_cases hr : Stream.significant ⟨us, source⟩ = []
    · have hrun := Parser.statementRoot_of_nil maxNesting (s := .start ⟨us, source⟩) hr
      have hrun' := Parser.statementRoot_of_nil maxNesting (s := .start ⟨ts, source⟩) (hsignificant.symm.trans hr)
      rw [parse, parse, parseStatements, parseStatements, Parser.run_of_ok hrun, Parser.run_of_ok hrun']
      exact ⟨.some .noStatements, .nil⟩
    · exact Parser.near_run ((Parser.blindInside_statementRoot maxNesting).outcome hstart hr) _

/-! ## Trivia -/

/-- The second list is the first one without some of its trivia. What comes last but for `eof` tokens stays. -/
inductive TriviaDropped : List Token → List Token → Prop
  | nil : TriviaDropped [] []
  | keep (t : Token) {ts us : List Token} : TriviaDropped ts us → TriviaDropped (t :: ts) (t :: us)
  | drop {t : Token} {ts us : List Token} : t.kind.isTrivia → (∃ u ∈ ts, u.kind ≠ .eof) → TriviaDropped ts us →
      TriviaDropped (t :: ts) us

namespace TriviaDropped

variable {ts us : List Token}

/-- Without trivia, the same tokens stand in front of the first `eof`. -/
theorem filter_eq (h : TriviaDropped ts us) :
    (us.takeWhile (·.kind ≠ .eof)).filter (fun t => !t.kind.isTrivia) =
      (ts.takeWhile (·.kind ≠ .eof)).filter fun t => !t.kind.isTrivia := by
  induction h with
  | nil => rfl
  | keep t _ ih =>
    simp only [List.takeWhile_cons]
    split
    · simp only [List.filter_cons, ih]
    · rfl
  | @drop t ts us htrivia _ _ ih =>
    have hne : t.kind ≠ .eof := by
      intro heof
      rw [heof] at htrivia
      cases htrivia
    rw [ih, List.takeWhile_cons_of_pos (by simpa using hne), List.filter_cons_of_neg (by simpa using htrivia)]

/-- The last token but for `eof` tokens is the same. -/
theorem find?_eq (h : TriviaDropped ts us) :
    us.reverse.find? (·.kind ≠ .eof) = ts.reverse.find? (·.kind ≠ .eof) := by
  induction h with
  | nil => rfl
  | keep t _ ih => rw [List.reverse_cons, List.reverse_cons, List.find?_append, List.find?_append, ih]
  | @drop t ts us _ hlast _ ih =>
    rw [ih, List.reverse_cons, List.find?_append]
    obtain ⟨u, hu, hkind⟩ := hlast
    have hsome : (ts.reverse.find? (·.kind ≠ .eof)).isSome := by
      rw [List.find?_isSome]
      exact ⟨u, List.mem_reverse.2 hu, by simpa using hkind⟩
    obtain ⟨v, hv⟩ := Option.isSome_iff_exists.1 hsome
    rw [hv, Option.some_or]

end TriviaDropped

/-- Trivia make no difference. Where whitespace, comments and pragmas are left out of a list of tokens, in whatever way
it came about, every construct is read as before: the tree, its spans and the diagnostics are the same. Only the last
token has to stay, since the stream ends there. -/
theorem parse_triviaDropped {ts us : List Token} (h : TriviaDropped ts us) (source : List Char) (entry : Entry) :
    parse entry ⟨us, source⟩ = parse entry ⟨ts, source⟩ := by
  refine parse_congr ?_ ?_ entry
  · rw [Stream.significant, Stream.significant, h.filter_eq]
  · rw [Stream.stop, Stream.stop, h.find?_eq]

/-- Tokens that overlap, with trivia around an `eof`. -/
def foreignTokens : List Token :=
  [⟨.pragma, ⟨7, 9⟩⟩, ⟨.ident, ⟨0, 1⟩⟩, ⟨.whitespace, ⟨0, 5⟩⟩, ⟨.assign, ⟨2, 4⟩⟩, ⟨.lineComment, ⟨3, 3⟩⟩,
    ⟨.eof, ⟨4, 4⟩⟩, ⟨.blockComment, ⟨0, 2⟩⟩, ⟨.whitespace, ⟨6, 8⟩⟩, ⟨.eof, ⟨8, 8⟩⟩]

/-- The tokens without the trivia that may be left out. -/
def bareTokens : List Token :=
  [⟨.ident, ⟨0, 1⟩⟩, ⟨.assign, ⟨2, 4⟩⟩, ⟨.eof, ⟨4, 4⟩⟩, ⟨.whitespace, ⟨6, 8⟩⟩, ⟨.eof, ⟨8, 8⟩⟩]

theorem parse_triviaDropped_foreign :
    TriviaDropped foreignTokens bareTokens ∧
    parse .statements ⟨bareTokens, "x :=".toList⟩ = parse .statements ⟨foreignTokens, "x :=".toList⟩ := by
  have hdropped : TriviaDropped foreignTokens bareTokens :=
    .drop rfl (by decide) (.keep _ (.drop rfl (by decide) (.keep _ (.drop rfl (by decide) (.keep _
      (.drop rfl (by decide) (.keep _ (.keep _ .nil))))))))
  exact ⟨hdropped, parse_triviaDropped hdropped "x :=".toList .statements⟩

/-! ## Tokens behind an eof -/

section

variable (source : List Char) (pre post : List Token) (span : Span)

/-- Tokens behind an `eof` are not looked at. -/
theorem Stream.significant_append_eof :
    significant ⟨pre ++ ⟨.eof, span⟩ :: post, source⟩ = significant ⟨pre, source⟩ := by
  have htake : (pre ++ (⟨.eof, span⟩ : Token) :: post).takeWhile (·.kind ≠ .eof) = pre.takeWhile (·.kind ≠ .eof) := by
    induction pre with
    | nil => rfl
    | cons t ts ih => rw [List.cons_append, List.takeWhile_cons, List.takeWhile_cons, ih]
  rw [significant, significant, htake]

/-- The tokens in front of an `eof` are read as if nothing came behind it, but that the stream ends elsewhere: the tree
is the same, and so are the problems and their places, but for what is missing at the end. -/
theorem parse_append_eof (entry : Entry) :
    Parse.Near (Stream.endSpan ⟨pre ++ ⟨.eof, span⟩ :: post, source⟩) (Stream.endSpan ⟨pre, source⟩)
      (parse entry ⟨pre ++ ⟨.eof, span⟩ :: post, source⟩) (parse entry ⟨pre, source⟩) :=
  parse_near (Stream.significant_append_eof source pre post span) entry

/-- Tokens behind an `eof` move the place where a missing `;` is reported. -/
theorem parse_append_eof_ne :
    (parse .statements ⟨[⟨.ident, ⟨0, 1⟩⟩] ++ ⟨.eof, ⟨1, 1⟩⟩ :: [⟨.ident, ⟨6, 7⟩⟩], "x     y".toList⟩).reports =
      [⟨.missing ";", ⟨7, 7⟩⟩] ∧
    (parse .statements ⟨[⟨.ident, ⟨0, 1⟩⟩], "x     y".toList⟩).reports = [⟨.missing ";", ⟨1, 1⟩⟩] :=
  ⟨rfl, rfl⟩

end

end StructuredText
