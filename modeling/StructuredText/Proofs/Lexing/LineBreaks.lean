import StructuredText.Proofs.Lexing.Sound

/-!
# Where line breaks stand

Tokens stand on one line: line breaks are found in trivia and in texts that are no token, such as a comment that is
never closed (`lex_unbroken`). The languages of the kinds of tokens are put together from texts without line breaks,
and whatever is put together from such texts has none.
-/

namespace StructuredText

open Computability

/-! ## Texts on one line -/

/-- The text holds no line break. -/
class OneLine (s : String) : Prop where
  notMem : '\n' ∉ s.toList

instance oneLine_spelling (k : TokenKind) : OneLine k.spelling := by
  constructor
  cases k with
  | access width => cases width <;> decide
  | type t => cases t <;> decide
  | _ => decide

instance : OneLine "." := ⟨by decide⟩
instance : OneLine ":" := ⟨by decide⟩
instance : OneLine "-" := ⟨by decide⟩
instance : OneLine "_" := ⟨by decide⟩
instance : OneLine "$" := ⟨by decide⟩
instance : OneLine "#" := ⟨by decide⟩
instance : OneLine "2#" := ⟨by decide⟩
instance : OneLine "8#" := ⟨by decide⟩
instance : OneLine "16#" := ⟨by decide⟩

/-! ## Languages on one line -/

/-- No text of the language holds a line break. -/
class Unbroken (L : Language Char) : Prop where
  notMem : ∀ l ∈ L, '\n' ∉ l

section

variable {a b : Language Char}

instance unbroken_zero : Unbroken 0 := ⟨nofun⟩

instance unbroken_one : Unbroken 1 := by
  constructor
  rintro l rfl
  exact List.not_mem_nil

instance unbroken_add [ha : Unbroken a] [hb : Unbroken b] : Unbroken (a + b) :=
  ⟨fun l hl => hl.elim (ha.notMem l) (hb.notMem l)⟩

instance unbroken_mul [ha : Unbroken a] [hb : Unbroken b] : Unbroken (a * b) := by
  constructor
  rintro _ ⟨l, hl, m, hm, rfl⟩ hmem
  exact (List.mem_append.1 hmem).elim (ha.notMem l hl) (hb.notMem m hm)

instance unbroken_kstar [ha : Unbroken a] : Unbroken a∗ := by
  constructor
  intro l hl hmem
  obtain ⟨ls, rfl, hls⟩ := Language.mem_kstar.1 hl
  obtain ⟨m, hm, hbreak⟩ := List.mem_flatten.1 hmem
  exact ha.notMem m (hls m hm) hbreak

instance unbroken_pow [ha : Unbroken a] (n : Nat) : Unbroken (a ^ n) := by
  induction n with
  | zero => exact unbroken_one
  | succ n ih => exact unbroken_mul

instance unbroken_maybe [Unbroken a] : Unbroken (maybe a) := unbroken_add

instance unbroken_exactly {s : String} [h : OneLine s] : Unbroken (exactly s) := ⟨fun _ hl => hl ▸ h.notMem⟩

theorem unbroken_oneOf {p : Char → Bool} (h : p '\n' = false) : Unbroken (oneOf p) := by
  constructor
  rintro l ⟨c, rfl, hc⟩ hmem
  rw [← List.mem_singleton.1 hmem, h] at hc
  cases hc

theorem unbroken_anyCase {words : List String} (h : ∀ w ∈ words, '\n' ∉ w.toList) : Unbroken (anyCase words) := by
  constructor
  intro l hl hmem
  refine h _ hl ?_
  rw [String.toList_ofList]
  exact List.mem_map.2 ⟨'\n', hmem, rfl⟩

end

section

variable {p : Char → Bool} [Unbroken (oneOf p)]

instance unbroken_many : Unbroken (many p) := unbroken_mul

instance unbroken_grouped : Unbroken (grouped p) := unbroken_mul

end

instance : Unbroken (oneOf Char.isDigit) := unbroken_oneOf rfl
instance : Unbroken (oneOf isBinaryDigit) := unbroken_oneOf rfl
instance : Unbroken (oneOf isOctalDigit) := unbroken_oneOf rfl
instance : Unbroken (oneOf isHexDigit) := unbroken_oneOf rfl
instance : Unbroken (oneOf isWordStart) := unbroken_oneOf rfl
instance : Unbroken (oneOf isWordPart) := unbroken_oneOf rfl
instance : Unbroken (oneOf fun c => c == '+' || c == '-') := unbroken_oneOf rfl

instance : Unbroken word := unbroken_mul

namespace Literals

instance : Unbroken exponentMark :=
  have : Unbroken (oneOf fun c => c == 'e' || c == 'E') := unbroken_oneOf rfl
  unbroken_mul

instance : Unbroken fixedPoint := unbroken_mul

instance : Unbroken real := unbroken_mul

instance : Unbroken based := unbroken_add

instance : Unbroken (anyCase unitNames) := unbroken_anyCase (by decide)

instance : Unbroken (anyCase durationNames) := unbroken_anyCase (by decide)

instance : Unbroken amount := unbroken_mul

instance : Unbroken duration := unbroken_mul

instance (n : Nat) : Unbroken (digits n) := unbroken_pow n

instance : Unbroken date := unbroken_mul

instance : Unbroken clock := unbroken_mul

instance : Unbroken secondsFraction :=
  have : Unbroken (oneOf fun c => c.isDigit || c == '_') := unbroken_oneOf rfl
  unbroken_mul

end Literals

instance (stamp : Stamp) : Unbroken (anyCase stamp.names) := unbroken_anyCase (by cases stamp <;> decide)

instance unbroken_stampValue (stamp : Stamp) : Unbroken stamp.value := by
  cases stamp
  · exact inferInstanceAs (Unbroken Literals.date)
  · exact inferInstanceAs (Unbroken Literals.clock)
  · exact inferInstanceAs (Unbroken (Literals.date * exactly "-" * Literals.clock))

instance (stamp : Stamp) : Unbroken stamp.language := by
  unfold Stamp.language
  split <;> infer_instance

instance (q : Quote) : Unbroken q.language := by
  have hmark : Unbroken (oneOf (· == q.mark)) := unbroken_oneOf (by cases q <;> rfl)
  have hplain : Unbroken (oneOf fun c => c != '$' && c != q.mark && !isLineEnd c) :=
    unbroken_oneOf (by cases q <;> rfl)
  have hescape : Unbroken (oneOf fun c => c == q.mark || Quote.escapeLetters.contains c) :=
    unbroken_oneOf (by cases q <;> decide)
  unfold Quote.language Quote.charLanguage
  infer_instance

/-! ## Kinds of tokens -/

/-- The texts of all kinds but trivia stand on one line. -/
theorem TokenKind.unbroken_language {k : TokenKind} (hk : k.isTrivia = false) : Unbroken k.language := by
  unfold language
  split
  iterate 4 cases hk
  iterate 11 infer_instance
  · next t => exact unbroken_anyCase (by cases t <;> decide)
  iterate 2 exact unbroken_zero
  · refine unbroken_anyCase fun w hw => ?_
    rw [List.mem_singleton.1 hw]
    exact (oneLine_spelling k).notMem

instance TokenKind.unbroken_overrun (k : TokenKind) : Unbroken k.overrun := by
  have : Unbroken (anyCase (Literals.durationNames ++ Stamp.date.names)) := unbroken_anyCase (by decide)
  unfold overrun
  split <;> infer_instance

/-- A token that is neither trivia nor an error stands on one line. -/
theorem lex_unbroken (text : String) :
    ∀ t ∈ lex text, t.kind.isTrivia = false → t.kind ≠ .error → '\n' ∉ (t.text text.toList).toList := by
  intro t ht htrivia herror
  have htext : text.toList = [] ++ (pieces text.toList).flatMap Piece.lexeme ++ [] := by simp [flatMap_pieces]
  obtain ⟨p, hp, hkind, hlexeme⟩ := exists_mem_of_mem_place htext t ht
  have := TokenKind.unbroken_language htrivia
  rw [hkind] at this herror
  rw [hlexeme]
  exact unbroken_add.notMem _ ((cuts_pieces _).language p hp herror)

end StructuredText
