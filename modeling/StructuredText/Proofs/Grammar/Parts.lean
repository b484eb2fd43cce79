import StructuredText.Proofs.Gives

/-!
# Rows, lists and optional parts

Much of the grammar is put together in three ways from a relation `R` that says how one part is written: parts in a row
(`Row`), parts with commas between them (`CommaList`), and a part that a word announces and that may be missing
(`Optionally`). Each comes with what reading it shows, and with what has to hold to read it.
-/

namespace StructuredText

section

variable (R : α → List Lexeme → List Lexeme → Prop)

/-- Parts in a row. -/
inductive Row : List α → List Lexeme → List Lexeme → Prop
  | nil {x : List Lexeme} : Row [] x x
  | cons {a : α} {as : List α} {x y z : List Lexeme} : R a x y → Row as y z → Row (a :: as) x z

/-- Parts with commas between them, and at least one. -/
inductive CommaList : List α → List Lexeme → List Lexeme → Prop
  | last {a : α} {x y : List Lexeme} : R a x y → CommaList [a] x y
  | more {a : α} {as : List α} {c : Lexeme} {x y z : List Lexeme} :
      R a x (c :: y) → c.kind = .comma → CommaList as y z → CommaList (a :: as) x z

/-- A part behind a word of the kind `k`, or neither of them. -/
inductive Optionally (k : TokenKind) : Option α → List Lexeme → List Lexeme → Prop
  | none {x : List Lexeme} : Optionally k none x x
  | some {a : α} {w : Lexeme} {x y : List Lexeme} : w.kind = k → R a x y → Optionally k (some a) (w :: x) y

end

/-- The greatest of the numbers that `f` gives to the parts. -/
def deepest (f : α → Nat) : List α → Nat
  | [] => 0
  | a :: as => max (f a) (deepest f as)

/-- The number that `f` gives to the part, if there is one. -/
def depthOf (f : α → Nat) : Option α → Nat
  | none => 0
  | some a => f a

section

variable {R : α → List Lexeme → List Lexeme → Prop} {f : α → Nat} {as : List α} {o : Option α} {x y : List Lexeme}
  {k : TokenKind} {n : Nat}

theorem deepest_le_iff : deepest f as ≤ n ↔ ∀ a ∈ as, f a ≤ n := by
  induction as with
  | nil => simp [deepest]
  | cons a as ih => rw [deepest, Nat.max_le, ih, List.forall_mem_cons]

theorem Row.length_le (h : Row R as x y) (hR : ∀ {a x y}, R a x y → y.length ≤ x.length) : y.length ≤ x.length := by
  induction h with
  | nil => exact Nat.le_refl _
  | cons h _ ih => exact Nat.le_trans ih (hR h)

/-- A row can be cut between any two of its parts. -/
theorem Row.of_append {bs : List α} {z : List Lexeme} (h : Row R (as ++ bs) x z) :
    ∃ y, Row R as x y ∧ Row R bs y z := by
  induction as generalizing x with
  | nil => exact ⟨x, .nil, h⟩
  | cons a as ih =>
    cases h with
    | cons ha h =>
      obtain ⟨y, has, hbs⟩ := ih h
      exact ⟨y, .cons ha has, hbs⟩

theorem CommaList.length_lt (h : CommaList R as x y) (hR : ∀ {a x y}, R a x y → y.length < x.length) :
    y.length < x.length := by
  induction h with
  | last h => exact hR h
  | more h _ _ ih =>
    have := hR h
    rw [List.length_cons] at this
    omega

theorem Optionally.length_le (h : Optionally R k o x y) (hR : ∀ {a x y}, R a x y → y.length ≤ x.length) :
    y.length ≤ x.length := by
  cases h with
  | none => exact Nat.le_refl _
  | some _ h => exact Nat.le_succ_of_le (hR h)

/-- A missing part leaves the tokens as they are, and one that is there begins with its word. -/
theorem Optionally.headKind_cases (h : Optionally R k o x y) : x = y ∨ headKind x = k := by
  cases h with
  | none => exact .inl rfl
  | some hw _ => exact .inr hw

end

namespace Parser

variable {R : α → List Lexeme → List Lexeme → Prop} {f : α → Nat} {n : Nat} {s s' : ParserState}

/-! ## Rows -/

section

variable {turn : Parser (Turn α)} [Lawful turn]

/-- What a turn of a row shows: either it read one more part, or the row is over and `E` stands behind it. -/
def TurnsRow (turn : Parser (Turn α)) (R : α → List Lexeme → List Lexeme → Prop) (f : α → Nat) (n : Nat)
    (E : List Lexeme → List Lexeme → Prop) : Prop :=
  ∀ ⦃s t s'⦄, Reads turn s t s' →
    (∃ a, t = .more [a] ∧ R a s.rest s'.rest ∧ f a ≤ n) ∨ t = .last [] ∧ E s.rest s'.rest

variable {E : List Lexeme → List Lexeme → Prop} (hR : ∀ {a x y}, R a x y → y.length < x.length)

include hR

omit [Lawful turn] in
theorem TurnsRow.turning (h : TurnsRow turn R f n E) : Turning turn := by
  intro s items s' ht
  rcases h ht with ⟨a, -, ha, -⟩ | ⟨ht, -⟩
  · exact hR ha
  · cases ht

theorem TurnsRow.row (hturn : TurnsRow turn R f n E) {as : List α} (h : Reads (collect turn) s as s') :
    ∃ y, Row R as s.rest y ∧ E y s'.rest ∧ deepest f as ≤ n := by
  refine h.collect_induction (hturn.turning hR)
    (L := fun as s s' => ∃ y, Row R as s.rest y ∧ E y s'.rest ∧ deepest f as ≤ n) ?_ ?_
  · intro as s s' h
    rcases hturn h with ⟨a, ht, -⟩ | ⟨ht, hE⟩ <;> cases ht
    exact ⟨s.rest, .nil, hE, Nat.zero_le n⟩
  · rintro items s s₁ as s' h ⟨y, has, hE, hns⟩
    rcases hturn h with ⟨a, ht, ha, hn⟩ | ⟨ht, -⟩ <;> cases ht
    exact ⟨y, .cons ha has, hE, Nat.max_le.2 ⟨hn, hns⟩⟩

end

theorem row_complete {turn : Parser (Turn α)} [Lawful turn] {as : List α} {x y z : List Lexeme}
    (hturning : Turning turn) (h : Row R as x y) (hmore : ∀ a ∈ as, ∀ x y, R a x y → Gives turn x (.more [a]) y)
    (hlast : Gives turn y (.last []) z) : Gives (collect turn) x as z := by
  induction h with
  | nil => exact .collect_last hturning hlast
  | cons h _ ih =>
    obtain ⟨ha, has⟩ := List.forall_mem_cons.1 hmore
    exact .collect_more hturning (ha _ _ h) (ih has hlast)

/-! ## Lists -/

section

variable {item : Parser α} [Lawful item] {as : List α}

theorem commaList_sound (hitem : ∀ {s a s'}, Reads item s a s' → R a s.rest s'.rest ∧ f a ≤ n)
    (h : Reads (sepByComma item) s as s') : CommaList R as s.rest s'.rest ∧ deepest f as ≤ n := by
  refine h.sepByComma_sound (R := fun a x y => R a x y ∧ f a ≤ n)
    (L := fun as x y => CommaList R as x y ∧ deepest f as ≤ n) hitem ?_ ?_
  · rintro a x y ⟨ha, hn⟩
    exact ⟨.last ha, Nat.max_le.2 ⟨hn, Nat.zero_le n⟩⟩
  · rintro a as c x y z ⟨ha, hn⟩ hc ⟨has, hns⟩
    exact ⟨.more ha hc has, Nat.max_le.2 ⟨hn, hns⟩⟩

/-- A list is read if its parts are, in front of a comma and in front of what stands behind the list. -/
theorem commaList_complete {x y : List Lexeme} (h : CommaList R as x y) (hy : headKind y ≠ .comma)
    (hitem : ∀ a ∈ as, ∀ x' y', R a x' y' → headKind y' = .comma ∨ y' = y → Gives item x' a y') :
    Gives (sepByComma item) x as y := by
  induction h with
  | last h => exact .sepByComma_one (hitem _ (List.mem_singleton_self _) _ _ h (.inr rfl)) hy
  | more h hc _ ih =>
    obtain ⟨ha, has⟩ := List.forall_mem_cons.1 hitem
    exact .sepByComma_more (ha _ _ h (.inl hc)) hc (ih hy has)

end

/-! ## Optional parts -/

/-- Reads a part if the word that announces it stands here. -/
def optional (k : TokenKind) (part : Parser α) : Parser (Option α) := do
  if ← eat k then return some (← part) else return none

section

variable {part : Parser α} {k : TokenKind} {o : Option α}

theorem optional_sound [Lawful part] (hk : k ≠ .eof)
    (hpart : ∀ {s a s'}, Reads part s a s' → R a s.rest s'.rest ∧ f a ≤ n) (h : Reads (optional k part) s o s') :
    Optionally R k o s.rest s'.rest ∧ depthOf f o ≤ n := by
  rw [optional, reads_eat_bind] at h
  split at h
  · next hkind =>
    obtain ⟨w, hw, hwk⟩ := ParserState.exists_of_kind hkind hk
    obtain ⟨a, s₁, h₁, h⟩ := reads_bind_iff.1 h
    obtain ⟨rfl, rfl⟩ := reads_pure.1 h
    obtain ⟨ha, hn⟩ := hpart h₁
    rw [hw]
    exact ⟨.some hwk ha, hn⟩
  · obtain ⟨rfl, rfl⟩ := reads_pure.1 h
    exact ⟨.none, Nat.zero_le n⟩

theorem optional_complete [Lawful part] {x y : List Lexeme} (h : Optionally R k o x y) (hy : headKind y ≠ k)
    (hpart : ∀ a ∈ o, ∀ x', R a x' y → Gives part x' a y) : Gives (optional k part) x o y := by
  cases h with
  | none => exact GivesFrom.gives (.eat_none hy .pure)
  | some hw h => exact GivesFrom.gives (.eat hw ((hpart _ rfl _ h).from.bind .pure))

end

end Parser

end StructuredText
