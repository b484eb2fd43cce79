import Mathlib.Data.List.Forall2
import StructuredText.Proofs.Lacking.Removed
import StructuredText.Proofs.Leaves

/-!
# Parts that lack one `;`

A part lacks a `;` without harm if what is left of it is read as the part, with one report (`Lacks`). What stands around
a part lacks the same `;` (`Lacks.around`), and so does a row of parts with one such part in it (`Row.lacks`).
-/

namespace StructuredText

open StructuredText.Parser

variable {x y x₁ y₁ z w : List Lexeme} {span : Span} {ready : List Lexeme → Prop}

/-- The report of a `;` that is missing in front of the token. -/
def missingSemicolon (t : Lexeme) : Report := ⟨.missing TokenKind.semicolon.spelling, t.span⟩

/-- Without the `;` behind the part with this span, the tokens from `x` on are read up to `y` with a report of it, if
what follows the `;` is ready for that. Here `read r x'` says that `x'` is read with the report `r`. -/
def Lacks (span : Span) (ready : List Lexeme → Prop) (read : Report → List Lexeme → Prop) (x y : List Lexeme) : Prop :=
  ∃ z x', Removed span z x x' ∧ y.length ≤ z.length ∧
    ∀ t z', z = t :: z' → ready z → read (missingSemicolon t) x'

namespace Lacks

variable {read read₁ : Report → List Lexeme → Prop}

/-- Around the part, the same `;` is missing. -/
theorem around (h : Lacks span ready read x y) (hle : y₁.length ≤ y.length)
    (hread : ∀ z x', Removed span z x x' → y.length < x'.length →
      ∃ x₁', Removed span z x₁ x₁' ∧ ∀ r, read r x' → read₁ r x₁') : Lacks span ready read₁ x₁ y₁ := by
  obtain ⟨z, x', hx, hz, h⟩ := h
  obtain ⟨x₁', hx₁, hread⟩ := hread z x' hx (Nat.lt_of_le_of_lt hz hx.length_lt)
  exact ⟨z, x₁', hx₁, Nat.le_trans hle hz, fun t z' ht hr => hread _ (h t z' ht hr)⟩

end Lacks

/-! ## Rows -/

section

variable {R : α → List Lexeme → List Lexeme → Prop} {S : α → β → Prop} {turn : Parser (Turn β)} {as : List α} {a : α}
  {rs rs' : List Report}

/-- A turn that reads one more part. -/
def ReadsOne (turn : Parser (Turn β)) (S : α → β → Prop) (a : α) (rs : List Report) (x y : List Lexeme) : Prop :=
  Leaves turn x (fun t => ∃ b, t = .more [b] ∧ S a b) rs y

theorem ReadsOne.more (h : ReadsOne turn S a rs x y) (hlt : y.length < x.length)
    (hs : LoopLeaves turn y (List.Forall₂ S as) rs' w) :
    LoopLeaves turn x (List.Forall₂ S (a :: as)) (rs' ++ rs) w := by
  refine .more (P := fun bs => ∃ b, bs = [b] ∧ S a b) (h.mono ?_) hlt hs ?_
  · rintro _ ⟨b, rfl, hb⟩
    exact ⟨[b], rfl, b, rfl, hb⟩
  · rintro _ bs ⟨b, rfl, hb⟩ hbs
    exact .cons hb hbs

/-- A row is read in front of what the turns read behind it. -/
theorem Row.leaves_before {bs : List α} (h : Row R as x y) (hlt : ∀ {a x y}, R a x y → y.length < x.length)
    (hmore : ∀ a ∈ as, ∀ x y, R a x y → ReadsOne turn S a [] x y) (hs : LoopLeaves turn y (List.Forall₂ S bs) rs w) :
    LoopLeaves turn x (List.Forall₂ S (as ++ bs)) rs w := by
  induction h with
  | nil => exact hs
  | cons ha _ ih =>
    obtain ⟨hone, hmore⟩ := List.forall_mem_cons.1 hmore
    have hread := (hone _ _ ha).more (hlt ha) (ih hmore hs)
    rwa [List.append_nil] at hread

theorem Row.leaves (h : Row R as x y) (hlt : ∀ {a x y}, R a x y → y.length < x.length)
    (hmore : ∀ a ∈ as, ∀ x y, R a x y → ReadsOne turn S a [] x y) (hlast : Gives turn y (.last []) w) :
    LoopLeaves turn x (List.Forall₂ S as) [] w := by
  have hread : LoopLeaves turn x (List.Forall₂ S (as ++ [])) [] w :=
    h.leaves_before hlt hmore (.last (hlast.leaves ⟨[], rfl, .nil⟩))
  rwa [List.append_nil] at hread

/-- A row lacks a `;` that one of its parts lacks. -/
theorem Row.lacks (h : Row R as x y) (hlt : ∀ {a x y}, R a x y → y.length < x.length)
    (hremoved : ∀ {a x y z y'}, R a x y → Removed span z y y' → ∃ x', Removed span z x x' ∧ R a x' y')
    (hmore : ∀ a ∈ as, ∀ x y, R a x y → ReadsOne turn S a [] x y) (hlast : Gives turn y (.last []) w) (ha : a ∈ as)
    (hone : ∀ as' x₁ y₁, R a x₁ y₁ → Row R as' y₁ y →
      Lacks span ready (fun r x' => ReadsOne turn S a [r] x' y₁) x₁ y₁) :
    Lacks span ready (fun r x' => LoopLeaves turn x' (List.Forall₂ S as) [r] w) x y := by
  induction h with
  | nil => cases ha
  | @cons a' as x y₁ y ha' hrow ih =>
    obtain ⟨hfirst, hrest⟩ := List.forall_mem_cons.1 hmore
    rcases List.mem_cons.1 ha with rfl | ha
    · refine (hone as x y₁ ha' hrow).around (hrow.length_le fun h => Nat.le_of_lt (hlt h)) fun z x' hx hlt' => ?_
      exact ⟨x', hx, fun r hr => hr.more hlt' (hrow.leaves hlt hrest hlast)⟩
    · refine (ih hrest hlast ha hone).around (Nat.le_refl _) fun z y₁' hy₁ _ => ?_
      obtain ⟨x', hx, ha'⟩ := hremoved ha' hy₁
      exact ⟨x', hx, fun r hr => (hfirst _ _ ha').more (hlt ha') hr⟩

end

end StructuredText
