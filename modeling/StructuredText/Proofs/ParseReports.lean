import StructuredText.Proofs.Courses
import StructuredText.Proofs.ParseProgress

/-!
# Diagnostics stand in the text, in order

Whatever a text is read as, its diagnostics lie within the text, begin and end between characters, and are handed out in
the order in which they were reported: no report begins before an earlier one. What is reported where no token is left
stands at the end of the text (`parse_inPlace`).

Where no token was left is told by the parse with a cursor, which keeps what it looked at with each report
(`Machine.raised`). Malformed literals, blocks of the wrong kind and tokens behind a construct are found out when their
tokens have been taken, so that what comes next says nothing about them: their reports are about these tokens, and it
may be that none is left behind them.
-/

namespace StructuredText

/-! ## The order of diagnostics -/

theorem Diagnostic.inSourceOrder_of_pairwise {ds : List Diagnostic}
    (h : ds.Pairwise fun d e => d.span.start ≤ e.span.start) : inSourceOrder ds = ds := by
  induction ds with
  | nil => rfl
  | cons d ds ih =>
    obtain ⟨hd, hds⟩ := List.pairwise_cons.1 h
    show d.insertInOrder (inSourceOrder ds) = d :: ds
    rw [ih hds]
    cases ds with
    | nil => rfl
    | cons e es => rw [insertInOrder, if_pos (hd e List.mem_cons_self)]

/-! ## Spans of texts -/

/-- The span lies within the text, and its ends lie between characters. -/
structure Span.FitsText (text : String) (span : Span) : Prop where
  ordered : span.Ordered
  stop_le : span.stop ≤ text.utf8ByteSize
  start_valid : String.Pos.Raw.IsValid text ⟨span.start⟩
  stop_valid : String.Pos.Raw.IsValid text ⟨span.stop⟩

section

variable {text : String}

theorem Span.fitsText_of_mem {t : Lexeme} (h : t ∈ (Stream.ofText text).significant) : t.span.FitsText text := by
  have horder := Stream.inOrder_ofText text
  obtain ⟨p, hp, rfl⟩ := Stream.exists_of_mem_significant h
  obtain ⟨hstart, hstop⟩ := isValid_of_mem_lex text p hp
  refine ⟨Nat.le_of_lt (horder.covers h).lt, ?_, hstart, hstop⟩
  rw [← Stream.stop_ofText]
  exact Nat.le_trans (horder.rest.stop_le h) horder.stop_le

theorem Span.fitsText_empty (text : String) : (Span.empty text.utf8ByteSize).FitsText text := by
  have hvalid := Text.isValid_of_append (List.append_nil text.toList).symm
  rw [Text.byteLength_toList] at hvalid
  exact ⟨Nat.le_refl _, Nat.le_refl _, hvalid, hvalid⟩

theorem Report.Located.fitsText {r : Report}
    (h : r.Located (Stream.ofText text).significant text.utf8ByteSize) : r.span.FitsText text := by
  rcases h with ⟨ts, hts, hinfix, -, hspan⟩ | hspan
  · obtain ⟨before, after, htokens⟩ := hinfix
    have hstand : StandFrom 0 (before ++ ts ++ after) := htokens ▸ (Stream.inOrder_ofText text).rest
    have hrow := (StandFrom.append_iff.1 (StandFrom.append_iff.1 hstand).1).2.spanOf_eq hts
    have hmem {t : Lexeme} (ht : t ∈ ts) : t.span.FitsText text := by
      refine Span.fitsText_of_mem ?_
      rw [← htokens]
      exact List.mem_append_left _ (List.mem_append_right _ ht)
    have hle := ordered_spanOf ts
    rw [hrow] at hle
    rw [hspan, hrow]
    have hfirst := hmem (List.head_mem hts)
    have hlast := hmem (List.getLast_mem hts)
    exact ⟨hle, hlast.stop_le, hfirst.start_valid, hlast.stop_valid⟩
  · exact hspan ▸ Span.fitsText_empty text

end

/-! ## Parses -/

/-- Where a parse of the text reports problems. They are given as they were raised, the first one in front. -/
structure Parse.InPlace (text : String) (raised : List Raised) (p : Parse α) : Prop where
  reports_eq : p.reports = raised.map Raised.report
  /-- Diagnostics lie within the text and do not cut characters. -/
  fitsText : ∀ d ∈ p.diagnostics, d.span.FitsText text
  /-- No problem is reported before an earlier one. -/
  sorted : p.reports.Pairwise fun r r' => r.span.start ≤ r'.span.start
  /-- Diagnostics are handed out as they were reported. -/
  diagnostics_eq : p.diagnostics = p.reports.map Report.diagnostic
  /-- A report covers tokens in a row, one token if it does not look back, or stands at the end of the text. -/
  located : ∀ r ∈ p.reports, r.Located (Stream.ofText text).significant text.utf8ByteSize
  /-- What is next when a problem is raised are tokens of the text. -/
  onward : ∀ x ∈ raised, x.state.rest <:+ (Stream.ofText text).significant
  /-- A problem that does not look back is raised at the next token. -/
  atNext : ∀ x ∈ raised, ¬x.report.problem.LooksBack → ∀ t ts, x.state.rest = t :: ts → x.report.span = t.span
  /-- Where no token is left, a problem that does not look back is raised at the end of the text. -/
  atEnd : ∀ x ∈ raised, ¬x.report.problem.LooksBack → x.state.rest = [] → x.report.span = .empty text.utf8ByteSize
  /-- That the text ends too early is reported at the end of the text. -/
  ended : ∀ d ∈ p.diagnostics, d.code = .unexpectedEndOfStream → d.span = .empty text.utf8ByteSize

/-- What the course of a parse through the text says of its reports. -/
structure Parse.OnCourse (text : String) (p : Parse α) : Prop where
  sorted : p.reports.Pairwise fun r r' => r.span.start ≤ r'.span.start
  located : ∀ r ∈ p.reports, r.Located (Stream.ofText text).significant text.utf8ByteSize
  ended : ∀ d ∈ p.diagnostics, d.code = .unexpectedEndOfStream → d.span = .empty text.utf8ByteSize

/-- A change of the tree changes nothing of it. -/
theorem Parse.OnCourse.map {text : String} {p : Parse α} (h : p.OnCourse text) (f : α → β) :
    (p.map f).OnCourse text :=
  ⟨h.sorted, h.located, h.ended⟩

theorem Parser.run_onCourse (rule : Parser α) [Lawful rule]
    [hsteady : Steady (fun s s' => s.InOrder → Course s s') rule] (text : String) :
    (rule.run (.ofText text)).OnCourse text := by
  have horder := Stream.inOrder_ofText text
  have hcourse := hsteady.steps (.start (.ofText text)) horder
  have hstart : (ParserState.start (Stream.ofText text)).Sorted := ⟨.nil, fun _ h => nomatch h⟩
  refine ⟨?_, ?_, fun d hd hcode => ?_⟩
  · rw [run_reports, List.pairwise_reverse]
    exact (hcourse.sorted horder hstart).pairwise
  · have := hcourse.located horder (fun _ h => nomatch h)
    rw [run_reports, ← Stream.stop_ofText]
    exact fun r hr => this r (List.mem_reverse.1 hr)
  · have hle : stopAfter 0 (Stream.ofText text).significant ≤ (Stream.ofText text).stop := horder.stop_le
    rw [(run_disciplined rule _).span_eq d hd hcode, Stream.endSpan, Nat.max_eq_left hle, Stream.stop_ofText]

theorem parse_onCourse (entry : Entry) (text : String) : (parse entry (.ofText text)).OnCourse text := by
  cases entry <;> exact (Parser.run_onCourse _ text).map _

namespace Raised.Fine

variable {text : String} {x : Raised}

theorem rest_suffix {s : ParserState} (h : x.Fine s) : x.state.rest <:+ s.rest := by
  obtain ⟨ts, hrest, -⟩ := h.behind.taken
  exact ⟨ts, hrest.symm⟩

/-- Where no token of a text is left, the next token is the end of the text. -/
theorem span_of_end (h : x.Fine (.start (.ofText text))) (hback : ¬x.report.problem.LooksBack)
    (hrest : x.state.rest = []) : x.report.span = .empty text.utf8ByteSize := by
  have horder : x.state.InOrder := h.behind.inOrder (Stream.inOrder_ofText text)
  have hstop : x.state.stop = text.utf8ByteSize := h.behind.stop.trans (Stream.stop_ofText text)
  rw [h.span_eq hback, horder.span_of_nil hrest, hstop]

end Raised.Fine

/-- Whatever a text is read as, the parse comes back, the diagnostics lie within the text, with their ends between
characters, and stand in the order in which they were reported. Every problem that does not look back was raised at the
next token, and at the end of the text where no token was left. -/
theorem parse_inPlace (calls : Nat) (entry : Entry) (text : String) :
    ∃ m, Counted.parse (maxNesting + 1 + calls) entry (.ofText text) = some (parse entry (.ofText text), m) ∧
      (parse entry (.ofText text)).InPlace text m.raised.reverse := by
  obtain ⟨m, hparse, hl, hreports⟩ := Counted.exists_parse calls entry (.ofText text)
  have hfine {x : Raised} (hx : x ∈ m.raised.reverse) : x.Fine (.start (.ofText text)) :=
    (hl.raised x (List.mem_reverse.1 hx)).resolve_left List.not_mem_nil
  have hcourse := parse_onCourse entry text
  refine ⟨m, hparse, ?_, fun d hd => ?_, hcourse.sorted, ?_, hcourse.located, fun x hx => (hfine hx).rest_suffix,
    fun x hx hback t ts hrest => ?_, fun x hx => (hfine hx).span_of_end, hcourse.ended⟩
  · rw [hreports, Machine.reports, List.map_reverse]
  · obtain ⟨r, hr, rfl⟩ := Parse.mem_diagnostics.1 hd
    exact (hcourse.located r hr).fitsText
  · exact Diagnostic.inSourceOrder_of_pairwise (List.pairwise_map.2 hcourse.sorted)
  · rw [(hfine hx).span_eq hback, ParserState.span_of_cons hrest]

end StructuredText
