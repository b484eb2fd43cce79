import StructuredText.Proofs.Checked.Rules
import StructuredText.Proofs.Roots

/-!
# A parse of any tokens is safe

Tokens may come from anywhere: out of order, overlapping, behind the text or inside a character. As long as their spans
have 32 bits and do not end before they start, the parse with checks has the outcome of the parse
(`checked_parse_eq`), so no offset is too large, no span ends before it starts, and no cut misses the text.
-/

namespace StructuredText

/-- A parse of tokens with valid spans begins in a valid state. -/
theorem valid_start_of_tokens {s : Stream} (h : ∀ t ∈ s.tokens, t.span.Valid) : Valid (ParserState.start s) := by
  have hsignificant : ∀ u ∈ s.significant, ∃ t ∈ s.tokens, u = t.lexeme s.source := by
    intro u hu
    rw [Stream.significant, lexemes_eq_map] at hu
    obtain ⟨t, ht, rfl⟩ := List.mem_map.1 hu
    exact ⟨t, (List.takeWhile_prefix _).subset (List.mem_of_mem_filter ht), rfl⟩
  have hzero : 0 < UInt32.size := by decide
  refine ⟨?_, hzero, fun u hu => ?_, fun u hu => ?_⟩
  · show s.stop < UInt32.size
    rw [Stream.stop]
    cases hlast : s.tokens.reverse.find? (·.kind ≠ .eof) with
    | none => exact Nat.lt_of_le_of_lt (Nat.min_le_right _ _) (Nat.sub_lt hzero Nat.one_pos)
    | some t => exact (h t (List.mem_reverse.1 (List.mem_of_find?_eq_some hlast))).2
  · obtain ⟨t, ht, rfl⟩ := hsignificant u hu
    exact h t ht
  · obtain ⟨t, ht, rfl⟩ := hsignificant u hu
    rfl

/-- Where the checks of a rule hold, both ways to run it have one outcome. -/
theorem Checked.run_eq [Sized α] (g : Checked α) (p : Parser α) [hg : Passes g p] {s : Stream}
    (hs : Valid (ParserState.start s)) : g.run s = some (p.run s) := by
  have h := hg.outcome (.start s)
  rw [Checked.run, Parser.run, EStateM.run, EStateM.run]
  revert h
  generalize g (.start s) = r
  generalize p (.start s) = r'
  rintro (⟨-, -⟩ | -) <;> rfl

/-- Tokens make no parse unsafe. Whatever the text and the tokens, as long as each token has offsets of 32 bits and does
not end before it starts, every construct is read with all checks as it is without: no offset that is computed is too
large, no span that is made ends before it starts, and every cut lies between characters of the text. -/
theorem checked_parse_eq {tokens : List Token}
    (h : ∀ t ∈ tokens, t.span.start ≤ t.span.stop ∧ t.span.stop < UInt32.size) (source : List Char) (entry : Entry) :
    Checked.parse entry ⟨tokens, source⟩ = some (parse entry ⟨tokens, source⟩) := by
  have hs : Valid (ParserState.start ⟨tokens, source⟩) := valid_start_of_tokens h
  cases entry <;> exact congrArg (Option.map (Parse.map _)) (Checked.run_eq _ _ hs)

/-- Tokens that go backwards and overlap, begin inside a character or end behind the text. -/
def scatteredTokens : List Token :=
  [⟨.ident, ⟨4, 9⟩⟩, ⟨.plus, ⟨0, 2⟩⟩, ⟨.typedLiteralPrefix, ⟨1, 1⟩⟩, ⟨.stringLiteral, ⟨3, 7⟩⟩, ⟨.eof, ⟨2, 2⟩⟩,
    ⟨.timeLiteral, ⟨4294967290, 4294967295⟩⟩]

theorem checked_parse_scattered :
    (∀ t ∈ scatteredTokens, t.span.start ≤ t.span.stop ∧ t.span.stop < UInt32.size) ∧
    Checked.parse .expression ⟨scatteredTokens, "a+'é'".toList⟩ =
      some (parse .expression ⟨scatteredTokens, "a+'é'".toList⟩) := by
  have h : ∀ t ∈ scatteredTokens, t.span.start ≤ t.span.stop ∧ t.span.stop < UInt32.size := by decide
  exact ⟨h, checked_parse_eq h "a+'é'".toList .expression⟩

/-- The checks notice tokens that end before they start. -/
example : Checked.parse .expression ⟨[⟨.ident, ⟨5, 3⟩⟩, ⟨.plus, ⟨5, 3⟩⟩, ⟨.ident, ⟨5, 3⟩⟩], []⟩ = none :=
  rfl

end StructuredText
