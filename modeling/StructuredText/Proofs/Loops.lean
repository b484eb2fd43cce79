import StructuredText.Proofs.Running

/-!
# Loops

A loop is its first turn and, if that goes on, the loop behind it (`foldWithin_cons`, `collectWithin_cons`). So what
holds of rules that do nothing, and of two rules one after the other if it holds of both (`Parser.Closed`), holds of a
loop if it holds of its turns. Turns that go on follow each other (`Turns.trans`), and all of them with the last one are
the loop (`Turns.collect`). What every turn keeps, a loop keeps (`fold_invariant`, `collect_induction`).
-/

namespace StructuredText.Parser

/-! ## One turn after the other -/

/-- How a fold goes on behind a turn. -/
def foldAfter (turn : α → Parser (Option α)) (left : List Lexeme) (a : α) : Option α → Parser α
  | some a' => foldWithin turn left a'
  | none => pure a

theorem foldWithin_cons (turn : α → Parser (Option α)) (t : Lexeme) (left : List Lexeme) (a : α) :
    foldWithin turn (t :: left) a = turn a >>= foldAfter turn left a := rfl

/-- The items of a turn. -/
def Turn.items : Turn α → List α
  | more items | last items => items

/-- How a loop goes on behind a turn. -/
def collectAfter (turn : Parser (Turn α)) (left : List Lexeme) : Turn α → Parser (List α)
  | .more items => do return items ++ (← collectWithin turn left)
  | .last items => pure items

theorem collectWithin_nil (turn : Parser (Turn α)) : collectWithin turn [] = turn >>= fun t => pure t.items := by
  rw [collectWithin]
  congr
  funext t
  cases t <;> rfl

theorem collectWithin_cons (turn : Parser (Turn α)) (t : Lexeme) (left : List Lexeme) :
    collectWithin turn (t :: left) = turn >>= collectAfter turn left := rfl

/-! ## Many turns -/

/-- Turns that go on lead from the first state to the last one and give the items. Each takes a token. -/
inductive Turns (turn : Parser (Turn α)) : ParserState → List α → ParserState → Prop
  | done {s : ParserState} : Turns turn s [] s
  | more {s s₁ s' : ParserState} {items as : List α} : turn s = .ok (.more items) s₁ →
      s₁.rest.length < s.rest.length → Turns turn s₁ as s' → Turns turn s (items ++ as) s'

namespace Turns

variable {turn : Parser (Turn α)} {s s₁ s' s'' : ParserState} {as bs : List α}

theorem trans (h : Turns turn s as s₁) (h' : Turns turn s₁ bs s') : Turns turn s (as ++ bs) s' := by
  induction h with
  | done => exact h'
  | more hturn hlt _ ih =>
    rw [List.append_assoc]
    exact .more hturn hlt (ih h')

theorem collectWithin (h : Turns turn s as s') (hlast : turn s' = .ok (.last bs) s'') {left : List Lexeme}
    (hle : s.rest.length ≤ left.length) : collectWithin turn left s = .ok (as ++ bs) s'' := by
  induction h generalizing left with
  | done =>
    cases left with
    | nil => rw [collectWithin_nil, bind_of_ok hlast]; rfl
    | cons t left => rw [collectWithin_cons, bind_of_ok hlast]; rfl
  | more hturn hlt _ ih =>
    cases left with
    | nil => exact absurd hle (by rw [List.length_nil]; omega)
    | cons t left =>
      rw [List.length_cons] at hle
      rw [collectWithin_cons, bind_of_ok hturn, collectAfter, bind_of_ok (ih hlast (by omega)), List.append_assoc]
      rfl

/-- A loop is its turns that go on and the last one. -/
theorem collect (h : Turns turn s as s') (hlast : turn s' = .ok (.last bs) s'') :
    collect turn s = .ok (as ++ bs) s'' :=
  h.collectWithin hlast (Nat.le_refl _)

end Turns

/-! ## What loops keep -/

section

variable {s s' : ParserState}

theorem foldWithin_invariant {turn : α → Parser (Option α)} {I : α → ParserState → Prop} {left : List Lexeme} {a b : α}
    (h : foldWithin turn left a s = .ok b s') (hI : I a s)
    (hmore : ∀ a s a' s', I a s → turn a s = .ok (some a') s' → I a' s')
    (hlast : ∀ a s s', I a s → turn a s = .ok none s' → I a s') : I b s' := by
  induction left generalizing a s with
  | nil =>
    obtain ⟨_ | a', s₁, hturn, h⟩ := ok_bind_iff.1 h <;> cases h
    · exact hlast _ _ _ hI hturn
    · exact hmore _ _ _ _ hI hturn
  | cons t left ih =>
    rw [foldWithin_cons] at h
    obtain ⟨_ | a', s₁, hturn, h⟩ := ok_bind_iff.1 h
    · cases h
      exact hlast _ _ _ hI hturn
    · exact ih h (hmore _ _ _ _ hI hturn)

/-- What holds at the beginning and behind every turn holds behind a fold. -/
theorem fold_invariant {turn : α → Parser (Option α)} {I : α → ParserState → Prop} {a b : α}
    (h : fold turn a s = .ok b s') (hI : I a s)
    (hmore : ∀ a s a' s', I a s → turn a s = .ok (some a') s' → I a' s')
    (hlast : ∀ a s s', I a s → turn a s = .ok none s' → I a s') : I b s' :=
  foldWithin_invariant h hI hmore hlast

theorem collectWithin_induction {turn : Parser (Turn α)} {L : List α → ParserState → ParserState → Prop}
    {left : List Lexeme} {as : List α} (h : collectWithin turn left s = .ok as s')
    (hturn : ∀ t s s', turn s = .ok t s' → L t.items s s')
    (happend : ∀ as bs s s₁ s', L as s s₁ → L bs s₁ s' → L (as ++ bs) s s') : L as s s' := by
  induction left generalizing as s with
  | nil =>
    rw [collectWithin_nil] at h
    obtain ⟨t, s₁, ht, h⟩ := ok_bind_iff.1 h
    cases h
    exact hturn _ _ _ ht
  | cons t left ih =>
    rw [collectWithin_cons] at h
    obtain ⟨items | items, s₁, ht, h⟩ := ok_bind_iff.1 h
    · obtain ⟨bs, s₂, hbs, h⟩ := ok_bind_iff.1 h
      cases h
      exact happend _ _ _ _ _ (hturn _ _ _ ht) (ih hbs)
    · cases h
      exact hturn _ _ _ ht

/-- What holds of the items of every turn, and of the items of two runs one after the other if it holds of both, holds
of the items of a loop. -/
theorem collect_induction {turn : Parser (Turn α)} {L : List α → ParserState → ParserState → Prop} {as : List α}
    (h : collect turn s = .ok as s') (hturn : ∀ t s s', turn s = .ok t s' → L t.items s s')
    (happend : ∀ as bs s s₁ s', L as s s₁ → L bs s₁ s' → L (as ++ bs) s s') : L as s s' :=
  collectWithin_induction h hturn happend

end

/-! ## Properties that loops inherit -/

/-- A property of rules that do nothing or only look, which two rules one after the other have if both have it. -/
structure Closed (C : {α : Type} → Parser α → Prop) : Prop where
  pure : ∀ {α : Type} (a : α), C (Pure.pure a : Parser α)
  get : C (MonadState.get : Parser ParserState)
  bind : ∀ {α β : Type} {p : Parser α} {q : α → Parser β}, C p → (∀ a, C (q a)) → C (p >>= q)

namespace Closed

variable {C : {α : Type} → Parser α → Prop} (hC : Closed C)

include hC

section

variable {turn : α → Parser (Option α)} {left : List Lexeme}

theorem foldAfter (h : ∀ a, C (foldWithin turn left a)) (a : α) (o : Option α) : C (foldAfter turn left a o) := by
  cases o with
  | none => exact hC.pure a
  | some a' => exact h a'

theorem foldWithin (h : ∀ a, C (turn a)) (left : List Lexeme) (a : α) : C (foldWithin turn left a) := by
  induction left generalizing a with
  | nil => exact hC.bind (h a) fun o => hC.pure (o.getD a)
  | cons t left ih => exact hC.bind (h a) (hC.foldAfter ih a)

theorem fold (h : ∀ a, C (turn a)) (a : α) : C (fold turn a) :=
  hC.bind hC.get fun s => hC.foldWithin h s.rest a

end

section

variable {turn : Parser (Turn α)} {left : List Lexeme}

theorem collectAfter (h : C (collectWithin turn left)) (t : Turn α) : C (collectAfter turn left t) := by
  cases t with
  | more items => exact hC.bind h fun more => hC.pure (items ++ more)
  | last items => exact hC.pure items

theorem collectWithin (h : C turn) (left : List Lexeme) : C (collectWithin turn left) := by
  induction left with
  | nil =>
    rw [collectWithin_nil]
    exact hC.bind h fun t => hC.pure t.items
  | cons t left ih => exact hC.bind h (hC.collectAfter ih)

theorem collect (h : C turn) : C (collect turn) :=
  hC.bind hC.get fun s => hC.collectWithin h s.rest

end

end Closed

end StructuredText.Parser
