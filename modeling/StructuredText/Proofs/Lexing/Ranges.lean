import StructuredText.Proofs.Lexing.Patterns
import StructuredText.Proofs.Lexing.Tiling

/-!
# Integers in front of a range

Digits with single underscores between them are read to their end (`digitGroups_append_of_mem`). In front of two dots
they are an integer although a point goes on with a number, and the dots are a symbol of their own, behind which the
text is read as if it stood alone (`lex_range`).
-/

namespace StructuredText

section

variable {p : Char → Bool} {c : Char} {l f cs : List Char}

theorem digitGroups_cons (hc : p c = true) :
    digitGroups p (c :: cs) = (c :: (digitGroups p cs).1, (digitGroups p cs).2) := by
  simp only [digitGroups, hc, Bool.true_or, if_true]

theorem digitGroups_underscore (hc : p c = true) :
    digitGroups p ('_' :: c :: cs) = ('_' :: c :: (digitGroups p cs).1, (digitGroups p cs).2) := by
  have hgo : (p '_' || ('_' == '_' && startsWith p (c :: cs))) = true := by simp [startsWith, hc]
  rw [digitGroups, if_pos hgo, digitGroups_cons hc]

/-- What stands behind the first digit of a group is read to its end. -/
theorem digitGroups_append_of_mem_groupedRest (hl : l ∈ groupedRest p) (hf : Stops p f) :
    digitGroups p (l ++ f) = (l, f) := by
  obtain ⟨parts, rfl, hparts⟩ := Language.mem_kstar.1 hl
  clear hl
  induction parts with
  | nil => exact digitGroups_of_stops hf
  | cons part parts ih =>
    have ih := ih fun l hl => hparts l (List.mem_cons_of_mem _ hl)
    rw [List.flatten_cons, List.append_assoc]
    rcases hparts part List.mem_cons_self with ⟨c, rfl, hc⟩ | hgroup
    · rw [List.singleton_append, digitGroups_cons hc, ih]
      rfl
    · obtain ⟨_, rfl, _, ⟨c, rfl, hc⟩, rfl⟩ := Language.mem_mul.1 hgroup
      have hunderscore : "_".toList ++ [c] ++ (parts.flatten ++ f) = '_' :: c :: (parts.flatten ++ f) := rfl
      rw [hunderscore, digitGroups_underscore hc, ih]
      rfl

/-- Digits with single underscores between them are read to their end. -/
theorem digitGroups_append_of_mem (hl : l ∈ grouped p) (hf : Stops p f) : digitGroups p (l ++ f) = (l, f) := by
  obtain ⟨_, ⟨c, rfl, hc⟩, cs, hcs, rfl⟩ := Language.mem_mul.1 hl
  have hcs := digitGroups_append_of_mem_groupedRest (p := p) hcs hf
  rw [List.append_assoc, List.singleton_append, digitGroups_cons hc, hcs]
  rfl

end

/-- Two dots that no third one follows are one symbol. -/
theorem dotsAfterInteger?_range {r : List Char} (hr : r.head? ≠ some '.') :
    dotsAfterInteger? ('.' :: '.' :: r) = some (⟨.dotDot, ['.', '.']⟩, r) := by
  unfold dotsAfterInteger?
  split
  · next heq =>
    cases heq
    exact absurd rfl hr
  · next heq =>
    cases heq
    rfl
  · next hne heq =>
    cases heq
    exact absurd rfl (hne r)
  · next hne _ => exact absurd rfl (hne r)

/-- An integer ends in front of two dots, and the dots behind it are a range unless a third one stands there. -/
theorem scanToken_range {c : Char} {cs r : List Char} (ha : c :: cs ∈ TokenKind.intLiteral.language)
    (hr : r.head? ≠ some '.') :
    scanToken c (cs ++ '.' :: '.' :: r) = ⟨.intLiteral, c :: cs, '.' :: '.' :: r⟩ ∧
      dotsAfter? (scanToken c (cs ++ '.' :: '.' :: r)) = some (⟨.dotDot, ['.', '.']⟩, r) := by
  have hstops : Stops Char.isDigit ('.' :: '.' :: r) := ⟨rfl, rfl⟩
  have hgroups : digitGroups Char.isDigit (c :: cs ++ '.' :: '.' :: r) = (c :: cs, '.' :: '.' :: r) :=
    digitGroups_append_of_mem ha hstops
  have hdigit : c.isDigit = true := by
    obtain ⟨_, ⟨d, rfl, hd⟩, ds, -, heq⟩ := Language.mem_mul.1 (show c :: cs ∈ grouped Char.isDigit from ha)
    cases heq
    exact hd
  have hscan : scanToken c (cs ++ '.' :: '.' :: r) = ⟨.intLiteral, c :: cs, '.' :: '.' :: r⟩ := by
    rw [scanToken_of_isDigit hdigit, ← List.cons_append, scanNumber, hgroups]
    rcases scanAfterWhole_cases (c :: cs) ('.' :: '.' :: r) with h | ⟨_, _, heq, -⟩ | ⟨_, heq, h⟩
    · exact h
    · cases heq
    · cases heq
      cases h
  have hlast : (c :: cs).getLast? ≠ some '#' := by
    intro h
    have hmem : '#' ∈ (digitGroups Char.isDigit (c :: cs ++ '.' :: '.' :: r)).1 := by
      rw [hgroups]
      exact List.mem_of_getLast? h
    rcases isDigit_or_of_mem_digitGroups hmem with h | h <;> cases h
  exact ⟨hscan, by rw [hscan, dotsAfter?, if_pos ⟨rfl, hlast⟩, dotsAfterInteger?_range hr]⟩

/-- An integer in front of two dots, which no third one follows, is an integer, and the dots are the symbol of a range.
The text behind them is read as if it stood alone. -/
theorem lex_range {a r : String} (ha : a.toList ∈ TokenKind.intLiteral.language) (hr : r.toList.head? ≠ some '.') :
    lex (a ++ ".." ++ r) =
      ⟨.intLiteral, ⟨0, a.utf8ByteSize⟩⟩ :: ⟨.dotDot, ⟨a.utf8ByteSize, a.utf8ByteSize + 2⟩⟩ ::
        (lex r).map (Token.shift (a.utf8ByteSize + 2)) := by
  obtain ⟨_, ⟨c, rfl, hc⟩, cs, hcs, hlist⟩ := Language.mem_mul.1 ha
  have hlist : a.toList = c :: cs := hlist.symm
  rw [hlist] at ha
  obtain ⟨hscan, hdots⟩ := scanToken_range ha hr
  have hcuts : Cuts (c :: (cs ++ '.' :: '.' :: r.toList))
      (⟨.intLiteral, c :: cs⟩ :: ⟨.dotDot, ['.', '.']⟩ :: pieces r.toList) := by
    have := Cuts.dotted hdots (cuts_pieces r.toList)
    rwa [hscan] at this
  have htext : (a ++ ".." ++ r).toList = c :: (cs ++ '.' :: '.' :: r.toList) := by simp [hlist]
  have hdotdot : Text.byteLength ['.', '.'] = 2 := rfl
  have hrest : place (a.utf8ByteSize + 2) (pieces r.toList) = (lex r).map (Token.shift (a.utf8ByteSize + 2)) := by
    rw [lex, ← place_shift, Nat.zero_add]
  rw [lex, htext, cuts_iff.1 hcuts]
  simp only [place, Nat.zero_add, ← hlist, Text.byteLength_toList, hdotdot, hrest]

theorem lex_range_underscore :
    "1_0".toList ∈ TokenKind.intLiteral.language ∧ "2..3".toList.head? ≠ some '.' ∧
    lex ("1_0" ++ ".." ++ "2..3") =
      ⟨.intLiteral, ⟨0, 3⟩⟩ :: ⟨.dotDot, ⟨3, 5⟩⟩ :: (lex "2..3").map (Token.shift 5) := by
  have ha : "1_0".toList ∈ TokenKind.intLiteral.language := (digitGroups_mem Char.isDigit "1_0".toList).2 rfl
  have hr : "2..3".toList.head? ≠ some '.' := by decide
  exact ⟨ha, hr, lex_range ha hr⟩

end StructuredText
