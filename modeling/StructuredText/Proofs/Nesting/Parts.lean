import Mathlib.Order.MinMax
import StructuredText.Proofs.Fails
import StructuredText.Proofs.Grammar.Parts

/-!
# Rows, lists and optional parts that nest too deeply

Where a row, a list with commas or an optional part goes too deep, one of its parts does, and those in front of it do
not. `E a n x f` says of a part that its first construct inside `n` others is `f`.
-/

namespace StructuredText

section

variable (R : α → List Lexeme → List Lexeme → Prop) (E : α → Nat → List Lexeme → Excess → Prop) (nesting : α → Nat)
  (n : Nat)

/-- A part in a row goes too deep, and none in front of it. -/
inductive RowExceeds : List α → List Lexeme → Excess → Prop
  | here {a : α} {as : List α} {x y : List Lexeme} {f : Excess} : R a x y → E a n x f → RowExceeds (a :: as) x f
  | later {a : α} {as : List α} {x y : List Lexeme} {f : Excess} :
      R a x y → nesting a ≤ n → RowExceeds as y f → RowExceeds (a :: as) x f

/-- A part of a list with commas goes too deep, and none in front of it. -/
inductive CommaExceeds : List α → List Lexeme → Excess → Prop
  | here {a : α} {as : List α} {x : List Lexeme} {f : Excess} : E a n x f → CommaExceeds (a :: as) x f
  | later {a : α} {as : List α} {c : Lexeme} {x y : List Lexeme} {f : Excess} :
      R a x (c :: y) → nesting a ≤ n → c.kind = .comma → CommaExceeds as y f → CommaExceeds (a :: as) x f

/-- The part behind a word of the kind `k` goes too deep. -/
inductive OptionExceeds (k : TokenKind) : Option α → List Lexeme → Excess → Prop
  | some {a : α} {w : Lexeme} {x : List Lexeme} {f : Excess} :
      w.kind = k → E a n x f → OptionExceeds k (some a) (w :: x) f

end

section

variable {R : α → List Lexeme → List Lexeme → Prop} {E : α → Nat → List Lexeme → Excess → Prop} {nesting : α → Nat}
  {n : Nat} {k : TokenKind} {as : List α} {o : Option α} {x y : List Lexeme} {f : Excess}

/-! ## There is such a part -/

theorem Row.exists_exceeds (h : Row R as x y) (hpart : ∀ a x y, R a x y → n < nesting a → ∃ f, E a n x f)
    (hn : n < deepest nesting as) : ∃ f, RowExceeds R E nesting n as x f := by
  induction h with
  | nil => exact absurd hn (Nat.not_lt_zero n)
  | @cons a as x y z ha _ ih =>
    rcases Nat.lt_or_ge n (nesting a) with hlt | hle
    · obtain ⟨f, h⟩ := hpart _ _ _ ha hlt
      exact ⟨f, .here ha h⟩
    · obtain ⟨f, h⟩ := ih ((lt_max_iff.1 hn).resolve_left (Nat.not_lt.2 hle))
      exact ⟨f, .later ha hle h⟩

theorem CommaList.exists_exceeds (h : CommaList R as x y) (hpart : ∀ a x y, R a x y → n < nesting a → ∃ f, E a n x f)
    (hn : n < deepest nesting as) : ∃ f, CommaExceeds R E nesting n as x f := by
  induction h with
  | last ha =>
    obtain ⟨f, h⟩ := hpart _ _ _ ha ((lt_max_iff.1 hn).resolve_right (Nat.not_lt_zero n))
    exact ⟨f, .here h⟩
  | @more a as c x y z ha hc _ ih =>
    rcases Nat.lt_or_ge n (nesting a) with hlt | hle
    · obtain ⟨f, h⟩ := hpart _ _ _ ha hlt
      exact ⟨f, .here h⟩
    · obtain ⟨f, h⟩ := ih ((lt_max_iff.1 hn).resolve_left (Nat.not_lt.2 hle))
      exact ⟨f, .later ha hle hc h⟩

theorem Optionally.exists_exceeds (h : Optionally R k o x y) (hpart : ∀ a x, R a x y → n < nesting a → ∃ f, E a n x f)
    (hn : n < depthOf nesting o) : ∃ f, OptionExceeds E n k o x f := by
  cases h with
  | none => exact absurd hn (Nat.not_lt_zero n)
  | some hw ha =>
    obtain ⟨f, h⟩ := hpart _ _ ha hn
    exact ⟨f, .some hw h⟩

theorem OptionExceeds.headKind_eq (h : OptionExceeds E n k o x f) : headKind x = k := by
  cases h with
  | some hw _ => exact hw

/-! ## The rules give up -/

namespace Parser

theorem row_fails {turn : Parser (Turn β)} (h : RowExceeds R E nesting n as x f)
    (hlt : ∀ {a x y}, R a x y → y.length < x.length)
    (hmore : ∀ a x y, R a x y → nesting a ≤ n → ∃ items, Gives turn x (.more items) y)
    (hfails : ∀ a x y f, R a x y → E a n x f → Fails turn x f) : LoopFails turn x f := by
  induction h with
  | here ha h => exact .here (hfails _ _ _ _ ha h)
  | later ha hle _ ih =>
    obtain ⟨items, hg⟩ := hmore _ _ _ ha hle
    exact .later hg (hlt ha) ih

theorem commaList_fails {item : Parser α} (h : CommaExceeds R E nesting n as x f)
    (hitem : ∀ a x c y, R a x (c :: y) → nesting a ≤ n → c.kind = .comma → Gives item x a (c :: y))
    (hfails : ∀ a x f, E a n x f → Fails item x f) : ListFails item x f := by
  induction h with
  | here h => exact .here (hfails _ _ _ h)
  | later ha hle hc _ ih => exact .later (hitem _ _ _ _ ha hle hc) hc ih

theorem optional_fails {part : Parser α} (h : OptionExceeds E n k o x f)
    (hfails : ∀ a x f, E a n x f → Fails part x f) : Fails (optional k part) x f := by
  cases h with
  | some hw h => exact .eat hw (hfails _ _ _ h).bind

end Parser

end

end StructuredText
