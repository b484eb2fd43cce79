import Mathlib.Data.List.TakeWhile
import StructuredText.Parse
import StructuredText.Proofs.Gives

/-!
# Whole streams

A parse has a tree and no diagnostics just if its rule reads the whole stream without a report (`run_clean_iff`).
-/

namespace StructuredText

theorem Diagnostic.insertInOrder_ne_nil (d : Diagnostic) (ds : List Diagnostic) : d.insertInOrder ds ≠ [] := by
  cases ds with
  | nil => exact List.cons_ne_nil _ _
  | cons e es =>
    unfold insertInOrder
    split <;> exact List.cons_ne_nil _ _

theorem Diagnostic.inSourceOrder_eq_nil_iff {ds : List Diagnostic} : inSourceOrder ds = [] ↔ ds = [] := by
  cases ds with
  | nil => exact Iff.rfl
  | cons d ds => simp [inSourceOrder, insertInOrder_ne_nil]

theorem Diagnostic.mem_insertInOrder {d e : Diagnostic} {ds : List Diagnostic} :
    e ∈ d.insertInOrder ds ↔ e = d ∨ e ∈ ds := by
  induction ds with
  | nil => simp [insertInOrder]
  | cons f fs ih =>
    unfold insertInOrder
    split
    · exact List.mem_cons
    · rw [List.mem_cons, List.mem_cons, ih, or_left_comm]

theorem Diagnostic.mem_inSourceOrder {d : Diagnostic} {ds : List Diagnostic} : d ∈ inSourceOrder ds ↔ d ∈ ds := by
  induction ds with
  | nil => exact Iff.rfl
  | cons e es ih =>
    show d ∈ e.insertInOrder (inSourceOrder es) ↔ _
    rw [mem_insertInOrder, ih, List.mem_cons]

theorem Diagnostic.length_insertInOrder (d : Diagnostic) (ds : List Diagnostic) :
    (d.insertInOrder ds).length = ds.length + 1 := by
  induction ds with
  | nil => rfl
  | cons e es ih =>
    unfold insertInOrder
    split
    · rfl
    · rw [List.length_cons, ih, List.length_cons]

theorem Diagnostic.length_inSourceOrder (ds : List Diagnostic) : (inSourceOrder ds).length = ds.length := by
  induction ds with
  | nil => rfl
  | cons d ds ih =>
    show (d.insertInOrder (inSourceOrder ds)).length = _
    rw [length_insertInOrder, ih, List.length_cons]

theorem Parse.length_diagnostics (p : Parse α) : p.diagnostics.length = p.reports.length := by
  rw [diagnostics, Diagnostic.length_inSourceOrder, List.length_map]

theorem Parse.mem_diagnostics {p : Parse α} {d : Diagnostic} :
    d ∈ p.diagnostics ↔ ∃ r ∈ p.reports, r.diagnostic = d := by
  rw [diagnostics, Diagnostic.mem_inSourceOrder, List.mem_map]

/-- In a stream without an `eof` token, all tokens but trivia are looked at. -/
theorem Stream.significant_of_no_eof {s : Stream} (h : ∀ t ∈ s.tokens, t.kind ≠ .eof) :
    s.significant = (s.tokens.filter fun t => !t.kind.isTrivia).map (Token.lexeme s.source) := by
  rw [significant, lexemes_eq_map, List.takeWhile_eq_self_iff.2]
  simpa using h

/-- Tokens without an `eof` in front of a stream stand in front of what is looked at. -/
theorem Stream.significant_append {source : List Char} {ts us : List Token} (h : ∀ t ∈ ts, t.kind ≠ .eof) :
    significant ⟨ts ++ us, source⟩ = significant ⟨ts, source⟩ ++ significant ⟨us, source⟩ := by
  have hp : ∀ t ∈ ts, decide (t.kind ≠ .eof) = true := by simpa using h
  rw [significant_of_no_eof (s := ⟨ts, source⟩) h]
  simp only [significant, lexemes_eq_map]
  rw [List.takeWhile_append_of_pos hp, List.filter_append, List.map_append]

/-- Trivia are passed over, and an `eof` ends the stream. -/
theorem Stream.significant_cons {source : List Char} {t : Token} {ts : List Token} : significant ⟨t :: ts, source⟩ =
    if t.kind = .eof then [] else if t.kind.isTrivia then significant ⟨ts, source⟩
    else t.lexeme source :: significant ⟨ts, source⟩ := by
  by_cases heof : t.kind = .eof
  · simp [significant, lexemes_eq_map, heof]
  · by_cases htrivia : t.kind.isTrivia = true <;> simp [significant, lexemes_eq_map, heof, htrivia]

/-- A token that is looked at, in front of others. -/
theorem Stream.significant_cons_of {source : List Char} {t : Token} {ts : List Token}
    (h : t.kind ≠ .eof ∧ t.kind.isTrivia = false) :
    significant ⟨t :: ts, source⟩ = t.lexeme source :: significant ⟨ts, source⟩ := by
  rw [significant_cons, if_neg h.1, if_neg (by simp [h.2])]

/-- A token that is looked at, behind others without an `eof`. -/
theorem Stream.significant_append_cons {source : List Char} {ts us : List Token} {t : Token}
    (hts : ∀ u ∈ ts, u.kind ≠ .eof) (ht : t.kind ≠ .eof ∧ t.kind.isTrivia = false) :
    significant ⟨ts ++ t :: us, source⟩ =
      significant ⟨ts, source⟩ ++ t.lexeme source :: significant ⟨us, source⟩ := by
  rw [significant_append hts, significant_cons_of ht]

/-- What is looked at are tokens of the stream. -/
theorem Stream.exists_of_mem_significant {s : Stream} {t : Lexeme} (h : t ∈ s.significant) :
    ∃ p ∈ s.tokens, t = p.lexeme s.source := by
  rw [significant, lexemes_eq_map] at h
  obtain ⟨p, hp, rfl⟩ := List.mem_map.1 h
  exact ⟨p, (List.takeWhile_sublist _).subset (List.mem_filter.1 hp).1, rfl⟩

/-- What is looked at is no trivia. -/
theorem Stream.isTrivia_of_mem_significant {s : Stream} {t : Lexeme} (h : t ∈ s.significant) :
    t.kind.isTrivia = false := by
  rw [significant, lexemes_eq_map] at h
  obtain ⟨p, hp, rfl⟩ := List.mem_map.1 h
  show p.kind.isTrivia = false
  simpa using (List.mem_filter.1 hp).2

/-- The span of all tokens that are looked at, and the empty one at the end of the stream where there is none. -/
def Stream.span (s : Stream) : Span :=
  match s.significant with
  | [] => .empty s.stop
  | ts@(_ :: _) => spanOf ts

/-- At most a `;` is left. -/
def OptionalSemicolon (y : List Lexeme) : Prop := y = [] ∨ ∃ t, y = [t] ∧ t.kind = .semicolon

theorem OptionalSemicolon.headKind_cases {y : List Lexeme} (h : OptionalSemicolon y) :
    headKind y = .eof ∨ headKind y = .semicolon := by
  rcases h with rfl | ⟨t, rfl, ht⟩
  · exact .inl rfl
  · exact .inr ht

namespace Parser

variable {s s' : ParserState}

theorem run_of_ok {rule : Parser α} {stream : Stream} {a : α} (h : rule (.start stream) = .ok a s') :
    rule.run stream = ⟨some a, s'.reports.reverse⟩ := by
  unfold Parser.run EStateM.run
  rw [h]

theorem run_of_error {rule : Parser α} {stream : Stream} {e : Abort} (h : rule (.start stream) = .error e s') :
    rule.run stream = ⟨none, s'.reports.reverse⟩ := by
  unfold Parser.run EStateM.run
  rw [h]

/-- A parse that finds nothing wrong is a run without a report. -/
theorem run_clean_iff {rule : Parser α} {stream : Stream} {a : α} :
    ((rule.run stream).tree = some a ∧ (rule.run stream).diagnostics = []) ↔
      ∃ s', Reads rule (.start stream) a s' := by
  unfold Parser.run EStateM.run Reads
  cases rule (.start stream) with
  | ok a' s₁ =>
    simp only [Parse.diagnostics, Diagnostic.inSourceOrder_eq_nil_iff, List.map_eq_nil_iff, List.reverse_eq_nil_iff]
    constructor
    · rintro ⟨h, hr⟩
      cases h
      exact ⟨s₁, rfl, hr⟩
    · rintro ⟨s', h, hr⟩
      cases h
      exact ⟨rfl, hr⟩
  | error e s₁ =>
    constructor
    · rintro ⟨h, -⟩
      cases h
    · rintro ⟨s', h, -⟩
      cases h

/-- What is read from the beginning of a stream to its end has the span of the stream. -/
theorem spanFrom_of_passed {stream : Stream} (h : Passed (.start stream) s) (hs : s.rest = []) :
    s.spanFrom (ParserState.start stream).span.start = stream.span := by
  cases hr : stream.significant with
  | nil =>
    obtain ⟨ts, h⟩ := h
    have hts : ts = [] := (List.append_eq_nil_iff.1 (h.rest.symm.trans hr)).1
    have hspan : (ParserState.start stream).span = .empty stream.stop := by
      simp [ParserState.span, ParserState.start, hr]
    rw [hspan, ParserState.spanFrom, h.eq, hts, Stream.span, hr]
    simp [stopAfter, ParserState.start, Span.empty]
  | cons t ts =>
    have hstart : (ParserState.start stream).rest = t :: ts := hr
    rw [h.spanFrom (by rw [hs, hstart, List.length_nil, List.length_cons]; omega), hs, hstart, Stream.span, hr]
    simp [spanBetween]

theorem reads_expectEndOfInput {u : PUnit} : Reads expectEndOfInput s u s' ↔ s.rest = [] ∧ s' = s := by
  rw [expectEndOfInput, reads_get_bind]
  split
  · next hr => simp [reads_pure, hr]
  · next t ts hr =>
    constructor
    · rintro ⟨h, hs'⟩
      obtain ⟨_, s₁, h₁, h⟩ := ok_bind_iff.1 h
      have := (Lawful.reports_suffix h₁).length_le
      cases h
      have := congrArg List.length hs'
      simp only [ParserState.report_reports, List.length_cons] at this
      omega
    · rintro ⟨h, -⟩
      rw [hr] at h
      cases h

instance lawful_expectEndOfInput : Lawful expectEndOfInput := by
  constructor
  intro s
  rw [expectEndOfInput, bind_of_ok (get_apply s)]
  cases hr : s.rest with
  | nil => exact ⟨[], .stay⟩
  | cons t ts =>
    obtain ⟨us, hrun⟩ := run_skipWhile (fun _ => true) ts s.advance
    have hskip : skipWhile (fun _ => true) s = .ok ⟨⟩ (skipWhile.go (fun _ => true) ts s.advance) := by
      show EStateM.Result.ok _ (skipWhile.go _ s.rest s) = _
      rw [hr]
      rfl
    dsimp only
    rw [bind_of_ok hskip, bind_of_ok (spanFrom_apply _ _), reportAt_apply, ParserState.span_of_cons hr]
    exact ⟨_, ((Run.stay.take hr).trans hrun).report rfl (.since (by simp))⟩

/-- The end of a stream, behind at most a `;`. -/
theorem exists_reads_end_iff {a b : α} : (∃ s', Reads (do
    let _ ← eat .semicolon
    expectEndOfInput
    return a) s b s') ↔ OptionalSemicolon s.rest ∧ b = a := by
  have hend {s : ParserState} : (∃ s', Reads (do expectEndOfInput; return a) s b s') ↔ s.rest = [] ∧ b = a := by
    simp only [reads_bind_iff, reads_expectEndOfInput, reads_pure]
    constructor
    · rintro ⟨_, _, _, ⟨hr, rfl⟩, rfl, rfl⟩
      exact ⟨hr, rfl⟩
    · rintro ⟨hr, rfl⟩
      exact ⟨_, ⟨⟩, _, ⟨hr, rfl⟩, rfl, rfl⟩
  simp only [reads_eat_bind]
  split
  · next hk =>
    obtain ⟨t, hr, ht⟩ := ParserState.exists_of_kind hk (by decide)
    rw [hend, OptionalSemicolon, hr]
    refine and_congr_left fun _ => ⟨fun hnil => .inr ⟨t, by rw [hnil], ht⟩, ?_⟩
    rintro (h | ⟨u, h, -⟩)
    · cases h
    · exact (List.cons.inj h).2
  · next hk =>
    rw [hend, OptionalSemicolon]
    refine and_congr_left fun _ => ⟨.inl, ?_⟩
    rintro (hr | ⟨t, hr, ht⟩)
    · exact hr
    · exact absurd ((ParserState.kind_of_cons hr).trans ht) hk

end Parser

end StructuredText
