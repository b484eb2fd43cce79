import StructuredText.Proofs.Fatal
import StructuredText.Proofs.ParseExpression
import StructuredText.Proofs.Printing.Respelled

/-!
# Expressions that are printed and read again

An expression that was read from a text is read again from its source form, but for its spans, if the source form keeps
its tokens apart (`parseExpression_render`). Where it does not, the round trip fails: the blank between the parts of
`x.1 .2` is lost, and `1.2` is one number (`parseExpression_render_joins_parts`).
-/

namespace StructuredText

/-- An expression that was read without a problem is read again from its source form without a diagnostic, the same but
for its spans, and has the same source form then, if no token of that goes on with a point behind it. -/
theorem parseExpression_render {text : String} {e : Expr} (h : (parseExpression (.ofText text)).result = .ok e)
    (hapart : e.apart .other = true) :
    ∃ e', (parseExpression (.ofText e.render)).tree = some e' ∧
      (parseExpression (.ofText e.render)).diagnostics = [] ∧ e'.plain = e.plain ∧ e'.render = e.render := by
  obtain ⟨⟨y, hspelled, -⟩, hnesting⟩ :=
    Parser.exists_reads_expressionRoot_iff.1 (Parser.run_clean_iff.1 (Parse.result_eq_ok_iff.1 h))
  obtain ⟨ps, hps⟩ := hspelled.isPrinted (lexed_significant text)
  have hcuts : Cuts e.render.toList ps := (hps.cut .nil hapart).cuts
  have htokens : (Stream.ofText e.render).significant = placed 0 ps := by
    rw [Stream.significant_ofText, hcuts.unique (cuts_pieces _)]
  obtain ⟨e', he, hagain⟩ := hps.spelled 0 (y := []) nofun
  rw [List.append_nil, ← htokens] at hagain
  have hnesting' : e'.nesting ≤ maxNesting := by rwa [Expr.nesting_eq_of_plain he]
  obtain ⟨htree, hdiagnostics⟩ :=
    Parser.run_clean_iff.2 (Parser.exists_reads_expressionRoot_iff.2 ⟨⟨[], hagain, .inl rfl⟩, hnesting'⟩)
  exact ⟨e', htree, hdiagnostics, he, Expr.render_eq_of_plain he⟩

/-- `m[1 .. 2_0].a`, with a range whose bounds are printed directly in front of and behind its dots. -/
def memberOfSlice : Expr :=
  let range : Expr := .binary .range (.literal ⟨.integer, none, "1", ⟨2, 3⟩⟩)
    (.literal ⟨.integer, none, "20", ⟨7, 10⟩⟩) ⟨2, 10⟩
  .member (.index (.name ⟨"m", ⟨0, 1⟩⟩) [range] ⟨0, 11⟩) ⟨"a", ⟨12, 13⟩⟩ ⟨0, 13⟩

theorem parseExpression_render_memberOfSlice :
    (parseExpression (.ofText "m[1 .. 2_0].a")).result = .ok memberOfSlice ∧ memberOfSlice.apart .other = true ∧
    memberOfSlice.render = "m[1..20].a" ∧
    ∃ e', (parseExpression (.ofText memberOfSlice.render)).tree = some e' ∧
      (parseExpression (.ofText memberOfSlice.render)).diagnostics = [] ∧ e'.plain = memberOfSlice.plain ∧
      e'.render = memberOfSlice.render := by
  have hresult : (parseExpression (.ofText "m[1 .. 2_0].a")).result = .ok memberOfSlice := rfl
  have hapart : memberOfSlice.apart .other = true := rfl
  exact ⟨hresult, hapart, rfl, parseExpression_render hresult hapart⟩

/-- `x.1 .2`, a part of a part. -/
def partOfPart : Expr :=
  .part (.part (.name ⟨"x", ⟨0, 1⟩⟩) none ⟨"1", ⟨2, 3⟩⟩ ⟨0, 3⟩) none ⟨"2", ⟨5, 6⟩⟩ ⟨0, 6⟩

/-- The source form loses the blank between the parts of a part, and what it becomes is no expression: `1.2` is a real
number. -/
theorem parseExpression_render_joins_parts :
    (parseExpression (.ofText "x.1 .2")).result = .ok partOfPart ∧ partOfPart.render = "x.1.2" ∧
    (parseExpression (.ofText partOfPart.render)).tree = none ∧
    (parseExpression (.ofText partOfPart.render)).diagnostics.map Diagnostic.message =
      ["expected member name, found '1.2'"] :=
  ⟨rfl, rfl, rfl, rfl⟩

end StructuredText
