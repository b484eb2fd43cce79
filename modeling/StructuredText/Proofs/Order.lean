import StructuredText.Proofs.Fatal
import StructuredText.Proofs.Lexing.Lexed

/-!
# Tokens in order

The tokens that a parse of a text looks at stand one behind the other, each covers its text, and none reaches behind
the end of the text (`Stream.inOrder_ofText`). Steps of a parse keep this (`Run.inOrder`), and so offsets only grow:
the next token begins behind the last one taken, and a parse that took a token has left its beginning behind.
-/

namespace StructuredText

/-! ## Rows of tokens -/

theorem ordered_spanOf (ts : List Lexeme) : (spanOf ts).Ordered := by
  cases ts with
  | nil => exact Nat.le_refl 0
  | cons t ts => exact Nat.le_max_right _ _

/-- The token covers its text, which is not empty. -/
structure Lexeme.Covers (t : Lexeme) : Prop where
  lt : t.span.start < t.span.stop
  length : t.span.start + Text.byteLength t.text.toList = t.span.stop

theorem Lexeme.Covers.spanOf_eq {t : Lexeme} (h : t.Covers) : spanOf [t] = t.span := by
  rw [spanOf, stopAfter, Nat.max_eq_left (Nat.le_of_lt h.lt)]

/-- The tokens stand one behind the other from an offset on. -/
def StandFrom : (offset : Nat) → List Lexeme → Prop
  | _, [] => True
  | offset, t :: ts => offset ≤ t.span.start ∧ t.Covers ∧ StandFrom t.span.stop ts

namespace StandFrom

variable {m n : Nat} {t : Lexeme} {ts us : List Lexeme}

theorem mono (h : StandFrom n ts) (hle : m ≤ n) : StandFrom m ts := by
  cases ts with
  | nil => trivial
  | cons t ts => exact ⟨Nat.le_trans hle h.1, h.2⟩

theorem le_stopAfter (h : StandFrom n ts) : n ≤ stopAfter n ts := by
  induction ts generalizing n with
  | nil => exact Nat.le_refl n
  | cons t ts ih => exact Nat.le_trans h.1 (Nat.le_trans (Nat.le_of_lt h.2.1.lt) (ih h.2.2))

theorem append_iff : StandFrom n (ts ++ us) ↔ StandFrom n ts ∧ StandFrom (stopAfter n ts) us := by
  induction ts generalizing n with
  | nil => exact ⟨fun h => ⟨trivial, h⟩, And.right⟩
  | cons t ts ih => simp only [List.cons_append, StandFrom, stopAfter, ih, and_assoc]

theorem covers (h : StandFrom n ts) (ht : t ∈ ts) : t.Covers := by
  induction ts generalizing n with
  | nil => cases ht
  | cons u ts ih =>
    rcases List.mem_cons.1 ht with rfl | ht
    · exact h.2.1
    · exact ih h.2.2 ht

/-- None of the tokens reaches behind the end of the last one. -/
theorem stop_le (h : StandFrom n ts) (ht : t ∈ ts) : t.span.stop ≤ stopAfter n ts := by
  induction ts generalizing n with
  | nil => cases ht
  | cons u ts ih =>
    rcases List.mem_cons.1 ht with rfl | ht
    · exact le_stopAfter h.2.2
    · exact ih h.2.2 ht

theorem spanOf_cons (h : StandFrom n (t :: ts)) : spanOf (t :: ts) = ⟨t.span.start, stopAfter t.span.stop ts⟩ := by
  rw [spanOf, Nat.max_eq_left]
  exact Nat.le_trans (Nat.le_of_lt h.2.1.lt) h.2.2.le_stopAfter

/-- A row of tokens ends where its last token does. -/
theorem stopAfter_eq_getLast {n : Nat} {ts : List Lexeme} (hne : ts ≠ []) :
    stopAfter n ts = (ts.getLast hne).span.stop := by
  induction ts generalizing n with
  | nil => exact absurd rfl hne
  | cons t ts ih =>
    cases ts with
    | nil => rfl
    | cons u us => exact ih (n := n) (List.cons_ne_nil u us)

theorem spanOf_eq (h : StandFrom n ts) (hne : ts ≠ []) :
    spanOf ts = ⟨(ts.head hne).span.start, (ts.getLast hne).span.stop⟩ := by
  cases ts with
  | nil => exact absurd rfl hne
  | cons t ts => rw [h.spanOf_cons, ← stopAfter_eq_getLast (n := n) hne, stopAfter, List.head_cons]

/-- Two rows in a row span what lies between them as well. -/
theorem spanOf_append (h : StandFrom n (ts ++ us)) (hts : ts ≠ []) (hus : us ≠ []) :
    (spanOf ts).stop ≤ (spanOf us).start ∧ spanOf (ts ++ us) = ⟨(spanOf ts).start, (spanOf us).stop⟩ := by
  obtain ⟨t, ts, rfl⟩ := List.exists_cons_of_ne_nil hts
  obtain ⟨u, us, rfl⟩ := List.exists_cons_of_ne_nil hus
  obtain ⟨hl, hr⟩ := append_iff.1 h
  have hspan : spanOf (t :: ts ++ u :: us) = ⟨t.span.start, stopAfter t.span.stop (ts ++ u :: us)⟩ := h.spanOf_cons
  rw [hspan, hl.spanOf_cons, hr.spanOf_cons, stopAfter_append]
  exact ⟨hr.1, rfl⟩

/-- The span around two rows is the span of all tokens from the first one on. -/
theorem cover_spanOf {gap : List Lexeme} (h : StandFrom n (ts ++ (gap ++ us))) (hts : ts ≠ []) (hus : us ≠ []) :
    (spanOf ts).cover (spanOf us) = spanOf (ts ++ (gap ++ us)) := by
  obtain ⟨hle, hspan⟩ := h.spanOf_append hts (List.append_ne_nil_of_right_ne_nil gap hus)
  obtain ⟨hbefore, hstop⟩ : (spanOf ts).stop ≤ (spanOf us).start ∧ (spanOf (gap ++ us)).stop = (spanOf us).stop := by
    by_cases hgap : gap = []
    · subst hgap
      exact ⟨hle, rfl⟩
    · obtain ⟨hle', hspan'⟩ := (append_iff.1 h).2.spanOf_append hgap hus
      rw [hspan'] at hle ⊢
      exact ⟨Nat.le_trans hle (Nat.le_trans (ordered_spanOf gap) hle'), rfl⟩
  have hts := ordered_spanOf ts
  have hus := ordered_spanOf us
  rw [Span.Ordered] at hts hus
  rw [hspan, hstop, Span.cover, Nat.min_eq_left (by omega), Nat.max_eq_right (by omega)]

/-- The span around the first and the last token is the span of all of them. -/
theorem cover_eq {u : Lexeme} (h : StandFrom n (t :: (ts ++ [u]))) :
    t.span.cover u.span = spanOf (t :: (ts ++ [u])) := by
  have hcover : (spanOf [t]).cover (spanOf [u]) = spanOf ([t] ++ (ts ++ [u])) :=
    h.cover_spanOf (List.cons_ne_nil t []) (List.cons_ne_nil u [])
  have hu : u.Covers := h.covers (List.mem_cons_of_mem _ (List.mem_append_right _ (List.mem_singleton_self u)))
  rwa [h.2.1.spanOf_eq, hu.spanOf_eq] at hcover

/-- All tokens end behind the offset. -/
theorem lt_stop (h : StandFrom n ts) (ht : t ∈ ts) : n < t.span.stop := by
  induction ts generalizing n with
  | nil => cases ht
  | cons u ts ih =>
    have hu := Nat.lt_of_le_of_lt h.1 h.2.1.lt
    rcases List.mem_cons.1 ht with rfl | ht
    · exact hu
    · exact Nat.lt_trans hu (ih h.2.2 ht)

/-- No two tokens of a row end at the same offset. -/
theorem append_cons_inj {u : Lexeme} {xs ys : List Lexeme} (h : StandFrom n (ts ++ t :: us))
    (heq : ts ++ t :: us = xs ++ u :: ys) (hstop : t.span.stop = u.span.stop) : ts = xs ∧ us = ys := by
  induction ts generalizing n xs with
  | nil =>
    cases xs with
    | nil => exact ⟨rfl, (List.cons.inj heq).2⟩
    | cons v xs =>
      obtain ⟨-, rfl⟩ := List.cons.inj heq
      have := h.2.2.lt_stop (List.mem_append_right xs List.mem_cons_self)
      omega
  | cons v ts ih =>
    cases xs with
    | nil =>
      obtain ⟨rfl, rfl⟩ := List.cons.inj heq
      have := h.2.2.lt_stop (List.mem_append_right ts List.mem_cons_self)
      omega
    | cons w xs =>
      obtain ⟨rfl, hrest⟩ := List.cons.inj heq
      obtain ⟨rfl, hus⟩ := ih h.2.2 hrest
      exact ⟨rfl, hus⟩

end StandFrom

/-! ## States -/

theorem ParserState.spanFrom_of_le {s : ParserState} {start : Nat} (h : start ≤ s.lastStop) :
    s.spanFrom start = ⟨start, s.lastStop⟩ := by
  rw [spanFrom, Nat.max_eq_left h]

/-- The tokens to come stand behind the last one taken and in front of the end of the stream. -/
structure ParserState.InOrder (s : ParserState) : Prop where
  rest : StandFrom s.lastStop s.rest
  stop_le : stopAfter s.lastStop s.rest ≤ s.stop

namespace ParserState.InOrder

variable {s : ParserState} (h : s.InOrder)

include h

theorem covers {t : Lexeme} (ht : t ∈ s.rest) : t.Covers := h.rest.covers ht

/-- Behind the last token, problems are reported at the end of the stream. -/
theorem span_of_nil (hr : s.rest = []) : s.span = .empty s.stop := by
  have hle := h.stop_le
  rw [hr] at hle
  simp only [span, hr]
  congr 1
  exact Nat.max_eq_left hle

/-- The next token begins behind the last one taken. -/
theorem lastStop_le : s.lastStop ≤ s.span.start := by
  cases hr : s.rest with
  | nil =>
    simp only [span, hr, Span.empty]
    exact Nat.le_max_right _ _
  | cons t ts =>
    rw [span_of_cons hr]
    have := h.rest
    rw [hr] at this
    exact this.1

theorem report (problem : Problem) (span : Span) : (s.report problem span).InOrder := ⟨h.rest, h.stop_le⟩

end ParserState.InOrder

namespace Run

variable {s s' : ParserState} {ts : List Lexeme} (h : Run s ts s') (hs : s.InOrder)

/-- A parse that has as many tokens to come as before took none. -/
theorem eq_nil (h : Run s ts s') (hlen : s'.rest.length = s.rest.length) : ts = [] := by
  have := congrArg List.length h.rest_eq
  rw [List.length_append] at this
  exact List.length_eq_zero_iff.1 (by omega)

include h hs

theorem inOrder : s'.InOrder := by
  obtain ⟨hrest, hstop⟩ := hs
  rw [h.rest_eq] at hrest hstop
  refine ⟨?_, ?_⟩
  · rw [h.lastStop_eq]
    exact (StandFrom.append_iff.1 hrest).2
  · rwa [h.lastStop_eq, h.stop_eq, ← stopAfter_append]

theorem lastStop_mono : s.lastStop ≤ s'.lastStop := by
  have hrest := hs.rest
  rw [h.rest_eq] at hrest
  rw [h.lastStop_eq]
  exact (StandFrom.append_iff.1 hrest).1.le_stopAfter

/-- A parse that took tokens has left the beginning of the first one behind. -/
theorem start_lt (hts : ts ≠ []) : s.span.start < s'.lastStop := by
  obtain ⟨t, us, rfl⟩ := List.exists_cons_of_ne_nil hts
  have hrest := hs.rest
  rw [h.rest_eq] at hrest
  obtain ⟨-, hcovers, hus⟩ := (StandFrom.append_iff.1 hrest).1
  have hspan : s.span = t.span := ParserState.span_of_cons h.rest_eq
  rw [hspan, h.lastStop_eq]
  exact Nat.lt_of_lt_of_le hcovers.lt hus.le_stopAfter

theorem start_mono : s.span.start ≤ s'.span.start := by
  by_cases hts : ts = []
  · subst hts
    have hrest : s.rest = s'.rest := h.rest_eq
    have hlast : s'.lastStop = s.lastStop := h.lastStop_eq
    simp [ParserState.span, hrest, h.stop_eq, hlast]
  · exact Nat.le_trans (Nat.le_of_lt (h.start_lt hs hts)) (h.inOrder hs).lastStop_le

end Run

/-! ## Texts -/

theorem standFrom_placed {ps : List Piece} (h : ∀ p ∈ ps, p.lexeme ≠ []) (offset : Nat) :
    StandFrom offset (placed offset ps) ∧
      stopAfter offset (placed offset ps) ≤ offset + Text.byteLength (ps.flatMap Piece.lexeme) := by
  induction ps generalizing offset with
  | nil => exact ⟨trivial, Nat.le_add_right _ _⟩
  | cons p ps ih =>
    obtain ⟨hp, hps⟩ := List.forall_mem_cons.1 h
    obtain ⟨hstand, hstop⟩ := ih hps (offset + Text.byteLength p.lexeme)
    rw [List.flatMap_cons, Text.byteLength_append, ← Nat.add_assoc, placed]
    split
    · refine ⟨hstand.mono (Nat.le_add_right _ _), Nat.le_trans ?_ hstop⟩
      cases placed (offset + Text.byteLength p.lexeme) ps with
      | nil => exact Nat.le_add_right _ _
      | cons t ts => exact Nat.le_refl _
    · have hcovers : Lexeme.Covers ⟨p.kind, ⟨offset, offset + Text.byteLength p.lexeme⟩, String.ofList p.lexeme⟩ := by
        refine ⟨Nat.lt_add_of_pos_right (Text.byteLength_pos hp), ?_⟩
        rw [String.toList_ofList]
      exact ⟨⟨Nat.le_refl _, hcovers, hstand⟩, hstop⟩

/-- A tiling ends where its last token does, or where it begins if there is none. -/
theorem Tiles.stop_eq {m n : Nat} {ts : List Token} (h : Tiles m ts n) :
    (ts.getLast?.map (·.span.stop)).getD m = n := by
  induction h with
  | nil => rfl
  | @cons t ts stop _ _ ih =>
    rw [List.getLast?_cons]
    cases hlast : ts.getLast? <;> simpa [hlast] using ih

namespace Stream

/-- A text ends behind its last byte. -/
theorem stop_ofText (text : String) : (ofText text).stop = text.utf8ByteSize := by
  have hlast : (ofText text).tokens.reverse.find? (·.kind ≠ .eof) = (ofText text).tokens.getLast? := by
    rw [← List.head?_filter, List.filter_eq_self.2, List.head?_reverse]
    simpa using fun t ht => kind_ne_eof_ofText t ht
  have htiles := (lex_tiles text).stop_eq
  rw [stop, hlast]
  cases hl : (ofText text).tokens.getLast? with
  | none =>
    have hl : (lex text).getLast? = none := hl
    rw [hl] at htiles
    show min (Text.byteLength text.toList) _ = _
    rw [Text.byteLength_toList, ← htiles]
    rfl
  | some t =>
    have hl : (lex text).getLast? = some t := hl
    rw [hl] at htiles
    exact htiles

/-- The tokens of a text stand in order. -/
theorem inOrder_ofText (text : String) : (ParserState.start (ofText text)).InOrder := by
  obtain ⟨hstand, hstop⟩ := standFrom_placed (cuts_pieces text.toList).lexeme_ne_nil 0
  rw [flatMap_pieces, Nat.zero_add, Text.byteLength_toList] at hstop
  refine ⟨?_, ?_⟩
  · show StandFrom 0 (ofText text).significant
    rwa [significant_ofText]
  · show stopAfter 0 (ofText text).significant ≤ (ofText text).stop
    rwa [significant_ofText, stop_ofText]

end Stream

end StructuredText
