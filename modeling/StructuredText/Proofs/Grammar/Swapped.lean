import StructuredText.Proofs.Grammar.Unit

/-!
# Spellings in front of other tokens

A phrase that is spelled in front of some tokens is spelled in front of other ones as well, with the tokens that stand
behind it in the place of the old ones (`ExprPhrase.Spelled.swapped`, `StmtPhrase.Spelled.swapped`,
`DeclSpelled.swapped`, `UnitSpelled.swapped`). Two things depend on what stands behind: a number that could begin a time
of day (`KeepsNumber`, `KeepsTimes`), and a word that closes a block, which takes a `;` (`KeepsEnd`).
-/

namespace StructuredText

variable {x x' y y' z z' : List Lexeme} {t : Lexeme}

/-! ## Tails -/

/-- `x'` is `x` with `y'` in the place of its tail `y`. -/
def Swapped (y y' x x' : List Lexeme) : Prop := ∃ p, x = p ++ y ∧ x' = p ++ y'

namespace Swapped

theorem refl (y y' : List Lexeme) : Swapped y y' y y' := ⟨[], rfl, rfl⟩

theorem cons (h : Swapped y y' x x') : Swapped y y' (t :: x) (t :: x') := by
  obtain ⟨p, rfl, rfl⟩ := h
  exact ⟨t :: p, rfl, rfl⟩

theorem trans (h : Swapped y y' x x') (h' : Swapped z z' y y') : Swapped z z' x x' := by
  obtain ⟨p, rfl, rfl⟩ := h
  obtain ⟨q, rfl, rfl⟩ := h'
  exact ⟨p ++ q, (List.append_assoc p q z).symm, (List.append_assoc p q z').symm⟩

theorem suffix (h : Swapped y y' x x') : y <:+ x := by
  obtain ⟨p, rfl, -⟩ := h
  exact List.suffix_append p y

theorem of_suffix (h : y <:+ x) (y' : List Lexeme) : ∃ x', Swapped y y' x x' := by
  obtain ⟨p, rfl⟩ := h
  exact ⟨p ++ y', p, rfl, rfl⟩

theorem unique {x'' : List Lexeme} (h : Swapped y y' x x') (h' : Swapped y y' x x'') : x' = x'' := by
  obtain ⟨p, rfl, rfl⟩ := h
  obtain ⟨q, hq, rfl⟩ := h'
  rw [List.append_cancel_right hq]

/-- What is spelled in front of any tail is spelled by the tokens in front of one. -/
theorem exists_front {R : List Lexeme → List Lexeme → Prop} (h : ∀ y', ∃ x', Swapped y y' x x' ∧ R x' y') :
    ∃ p, x = p ++ y ∧ ∀ y', R (p ++ y') y' := by
  obtain ⟨_, ⟨p, rfl, -⟩, -⟩ := h y
  refine ⟨p, rfl, fun y' => ?_⟩
  obtain ⟨x', hx, h⟩ := h y'
  rwa [hx.unique ⟨p, rfl, rfl⟩] at h

/-- What stands in front of the tail keeps its span. -/
theorem spanBetween_eq (h : Swapped y y' x x') : spanBetween x' y' = spanBetween x y := by
  obtain ⟨p, rfl, rfl⟩ := h
  rw [spanBetween_append, spanBetween_append]

theorem headKind_eq (h : Swapped y y' x x') (hlt : y.length < x.length) : headKind x' = headKind x := by
  obtain ⟨p, rfl, rfl⟩ := h
  cases p with
  | nil => exact absurd hlt (Nat.lt_irrefl _)
  | cons t p => rfl

end Swapped

/-! ## Ends of blocks -/

/-- The tokens in front of the tail, if there are some, end with a `;`. -/
def Terminated (x y : List Lexeme) : Prop := ∀ p t, x = p ++ t :: y → t.kind = .semicolon

theorem Terminated.of_suffix (h : Terminated x y) (hx : x' <:+ x) : Terminated x' y := by
  obtain ⟨q, rfl⟩ := hx
  rintro p t rfl
  exact h (q ++ p) t (List.append_assoc q p (t :: y)).symm

/-- No block at the end of the tokens in front of `y` takes a `;` that is new in front of `y'`. -/
def KeepsEnd (x y y' : List Lexeme) : Prop :=
  headKind y' = .semicolon → headKind y = .semicolon ∨ Terminated x y

namespace KeepsEnd

/-- A `;` in front of the new tail stood in front of the old one. -/
theorem of_head (h : headKind y' = .semicolon → headKind y = .semicolon) : KeepsEnd x y y' := fun hy => .inl (h hy)

theorem of_suffix (h : KeepsEnd x y y') (hx : x' <:+ x) : KeepsEnd x' y y' := fun hy =>
  (h hy).imp_right fun hend => hend.of_suffix hx

/-- Further in front, a `;` is new only where nothing stands between. -/
theorem swapped (h : KeepsEnd x z z') (hy : Swapped z z' y y') : KeepsEnd x y y' := by
  obtain ⟨p, rfl, rfl⟩ := hy
  cases p with
  | nil => exact h
  | cons t p => exact .of_head id

theorem of_front (hy : Swapped z z' y y') (hlt : z.length < y.length) : KeepsEnd x y y' :=
  .of_head fun h => by rwa [hy.headKind_eq hlt] at h

end KeepsEnd

/-! ## Times of day -/

/-- The tokens of a time of day. -/
def TokenKind.inTimeOfDay : TokenKind → Bool
  | intLiteral | realLiteral | colon => true
  | _ => false

/-- There is a token that is in no time of day. -/
def Settled (x : List Lexeme) : Prop := ∃ t ∈ x, t.kind.inTimeOfDay = false

theorem Settled.head (h : t.kind.inTimeOfDay = false) : Settled (t :: x) := ⟨t, List.mem_cons_self, h⟩

theorem Settled.of_suffix (hy : Settled y) (h : y <:+ x) : Settled x := by
  obtain ⟨t, ht, hk⟩ := hy
  exact ⟨t, h.subset ht, hk⟩

theorem StartsTimeOfDay.append (h : StartsTimeOfDay x) (z : List Lexeme) : StartsTimeOfDay (x ++ z) := by
  obtain ⟨a, b, c, d, e, y, rfl, h⟩ := h
  exact ⟨a, b, c, d, e, y ++ z, rfl, h⟩

/-- Five tokens that make a time of day leave no room for a token that is in none. -/
theorem StartsTimeOfDay.of_append (hx : Settled x) (h : StartsTimeOfDay (x ++ z)) : StartsTimeOfDay x := by
  obtain ⟨a, b, c, d, e, y, heq, h⟩ := h
  obtain ⟨t, ht, hk⟩ := hx
  have hin : ∀ u ∈ [a, b, c, d, e], u.kind.inTimeOfDay = true := by
    simp only [List.forall_mem_cons, h.hours, h.colon, h.minutes, h.colon']
    rcases h.seconds with he | he <;> simp [he, TokenKind.inTimeOfDay]
  by_cases hlen : 5 ≤ x.length
  · refine ⟨a, b, c, d, e, x.drop 5, ?_, h⟩
    have htake := congrArg (List.take 5) heq
    rw [List.take_append_of_le_length hlen] at htake
    rw [← List.take_append_drop 5 x, htake]
    simp
  · have htake := congrArg (List.take 5) heq
    rw [List.take_append] at htake
    have hmem : t ∈ [a, b, c, d, e] := by
      have ht' : t ∈ List.take 5 x ++ List.take (5 - x.length) z := by
        rw [List.take_of_length_le (by omega : x.length ≤ 5)]
        exact List.mem_append_left _ ht
      rw [htake] at ht'
      simpa using ht'
    rw [hin t hmem] at hk
    cases hk

/-- A token in front of `y'` begins a time of day only if it does so in front of `y`. -/
def KeepsNumber (y y' : List Lexeme) : Prop := ∀ t, StartsTimeOfDay (t :: y') → StartsTimeOfDay (t :: y)

/-- Tokens in front of `y'` begin with a time of day only if they do so in front of `y`. -/
def KeepsTimes (y y' : List Lexeme) : Prop := ∀ p, StartsTimeOfDay (p ++ y') → StartsTimeOfDay (p ++ y)

theorem KeepsNumber.of_ne (h : headKind y' ≠ .colon) : KeepsNumber y y' := by
  rintro t ⟨a, b, c, d, e, z, heq, htime⟩
  cases heq
  exact absurd htime.colon h

theorem KeepsNumber.of_kind {k : TokenKind} (ht : t.kind = k) (hk : k ≠ .colon) : KeepsNumber y (t :: y') :=
  .of_ne (by rwa [headKind_cons, ht])

theorem KeepsNumber.of_op {op : BinaryOp} (h : BinaryOp.ofToken? t.kind = some op) : KeepsNumber y (t :: y') := by
  refine .of_ne fun hk => ?_
  rw [headKind_cons] at hk
  rw [hk] at h
  cases h

namespace KeepsTimes

theorem number (h : KeepsTimes y y') : KeepsNumber y y' := fun t => h [t]

theorem swapped (h : KeepsTimes y y') (hx : Swapped y y' x x') : KeepsTimes x x' := by
  obtain ⟨p, rfl, rfl⟩ := hx
  intro q hq
  rw [← List.append_assoc] at hq ⊢
  exact h (q ++ p) hq

/-- Behind a token that is in no time of day, nothing matters. -/
theorem of_settled {p : List Lexeme} (h : Settled p) : KeepsTimes (p ++ y) (p ++ y') := by
  intro q hq
  rw [← List.append_assoc] at hq ⊢
  exact (hq.of_append (h.of_suffix (List.suffix_append q p))).append y

theorem of_front (hx : Swapped y y' x x') (hlt : y.length < x.length) (hk : (headKind x).inTimeOfDay = false) :
    KeepsTimes x x' := by
  obtain ⟨p, rfl, rfl⟩ := hx
  cases p with
  | nil => exact absurd hlt (Nat.lt_irrefl _)
  | cons t p => exact of_settled (.head hk)

end KeepsTimes

/-! ## Expressions -/

theorem QualifiedName.swapped {name : Name} (h : QualifiedName name x y) (y' : List Lexeme) :
    ∃ x', Swapped y y' x x' ∧ QualifiedName name x' y' := by
  induction h generalizing y' with
  | one ht => exact ⟨_, .cons (.refl _ _), .one ht⟩
  | @more _ c t _ _ _ hc ht ih =>
    obtain ⟨x', hx, h⟩ := ih (c :: t :: y')
    exact ⟨x', hx.trans (.cons (.cons (.refl _ _))), .more h hc ht⟩

theorem QualifiedName.suffix {name : Name} (h : QualifiedName name x y) : y <:+ x := by
  obtain ⟨x', hx, -⟩ := h.swapped y
  exact hx.suffix

theorem LiteralSpelled.swapped {l : Literal} (h : LiteralSpelled l x y) (hy : KeepsNumber y y') :
    ∃ x', Swapped y y' x x' ∧ LiteralSpelled l x' y' := by
  cases h with
  | @token _ t _ hk hnot => exact ⟨_, .cons (.refl _ _), .token hk fun h => hnot (hy t h)⟩
  | @timeOfDay a b c d e _ h =>
    have hx : Swapped y y' (a :: b :: c :: d :: e :: y) (a :: b :: c :: d :: e :: y') := ⟨[a, b, c, d, e], rfl, rfl⟩
    rw [← hx.spanBetween_eq]
    exact ⟨_, hx, .timeOfDay h⟩
  | typed hp hv hf => exact ⟨_, .cons (.cons (.refl _ _)), .typed hp hv hf⟩
  | typedSigned hp hs hv hf => exact ⟨_, .cons (.cons (.cons (.refl _ _))), .typedSigned hp hs hv hf⟩

/-- A phrase is spelled in front of other tokens too, if its last number stays one. -/
theorem ExprPhrase.Spelled.swapped {φ : ExprPhrase} (h : φ.Spelled x y) (hy : KeepsNumber y y') :
    ∃ x', Swapped y y' x x' ∧ φ.Spelled x' y' := by
  induction h generalizing y' with
  | operand _ ih =>
    obtain ⟨x', hx, h⟩ := ih hy
    exact ⟨x', hx, .operand h⟩
  | binary hop ho _ _ ihl ihr =>
    obtain ⟨m, hm, hr⟩ := ihr hy
    obtain ⟨x', hx, hl⟩ := ihl (.of_op ho)
    exact ⟨x', hx.trans hm.cons, .binary hop ho hl hr⟩
  | access _ ih =>
    obtain ⟨x', hx, h⟩ := ih hy
    exact ⟨x', hx, .access h⟩
  | unary ho _ ih =>
    obtain ⟨x', hx, h⟩ := ih hy
    rw [← hx.cons.spanBetween_eq]
    exact ⟨_, hx.cons, .unary ho h⟩
  | primary _ ih =>
    obtain ⟨x', hx, h⟩ := ih hy
    exact ⟨x', hx, .primary h⟩
  | member _ hd hn ih =>
    obtain ⟨x', hx, h⟩ := ih (.of_kind hd (by decide))
    have hx := hx.trans (.cons (.cons (.refl _ y')))
    rw [← hx.spanBetween_eq]
    exact ⟨x', hx, .member h hd hn⟩
  | part _ hd hn ih =>
    obtain ⟨x', hx, h⟩ := ih (.of_kind hd (by decide))
    have hx := hx.trans (.cons (.cons (.refl _ y')))
    rw [← hx.spanBetween_eq]
    exact ⟨x', hx, .part h hd hn⟩
  | widePart _ hd hw hn ih =>
    obtain ⟨x', hx, h⟩ := ih (.of_kind hd (by decide))
    have hx := hx.trans (.cons (.cons (.cons (.refl _ y'))))
    rw [← hx.spanBetween_eq]
    exact ⟨x', hx, .widePart h hd hw hn⟩
  | partAt _ hd hw hl _ hr ih ihi =>
    obtain ⟨m, hm, hi⟩ := ihi (.of_kind hr (by decide))
    obtain ⟨x', hx, h⟩ := ih (.of_kind hd (by decide))
    have hx := hx.trans (hm.trans (.cons (.refl _ y'))).cons.cons.cons
    rw [← hx.spanBetween_eq]
    exact ⟨x', hx, .partAt h hd hw hl hi hr⟩
  | index _ hl _ hr ih ihes =>
    obtain ⟨m, hm, hes⟩ := ihes (.of_kind hr (by decide))
    obtain ⟨x', hx, h⟩ := ih (.of_kind hl (by decide))
    have hx := hx.trans (hm.trans (.cons (.refl _ y'))).cons
    rw [← hx.spanBetween_eq]
    exact ⟨x', hx, .index h hl hes hr⟩
  | callEmpty _ hc hl hr ih =>
    obtain ⟨x', hx, h⟩ := ih (.of_kind hl (by decide))
    have hx := hx.trans (.cons (.cons (.refl _ y')))
    rw [← hx.spanBetween_eq]
    exact ⟨x', hx, .callEmpty h hc hl hr⟩
  | call _ hc hl _ hr ih ihas =>
    obtain ⟨m, hm, has⟩ := ihas (.of_kind hr (by decide))
    obtain ⟨x', hx, h⟩ := ih (.of_kind hl (by decide))
    have hx := hx.trans (hm.trans (.cons (.refl _ y'))).cons
    rw [← hx.spanBetween_eq]
    exact ⟨x', hx, .call h hc hl has hr⟩
  | name h =>
    obtain ⟨x', hx, h⟩ := h.swapped y'
    exact ⟨x', hx, .name h⟩
  | this ht => exact ⟨_, .cons (.refl _ y'), .this ht⟩
  | super ht => exact ⟨_, .cons (.refl _ y'), .super ht⟩
  | @paren _ l r x y hl _ hr ih =>
    obtain ⟨x', hx, h⟩ := ih (.of_kind hr (by decide))
    have hx : Swapped y y' (l :: x) (l :: x') := (hx.trans (.cons (.refl _ y'))).cons
    rw [← hx.spanBetween_eq]
    exact ⟨_, hx, .paren hl h hr⟩
  | enumerated hp hname hn => exact ⟨_, .cons (.cons (.refl _ y')), .enumerated hp hname hn⟩
  | literal h =>
    obtain ⟨x', hx, h⟩ := h.swapped hy
    exact ⟨x', hx, .literal h⟩
  | lastExpr _ ih =>
    obtain ⟨x', hx, h⟩ := ih hy
    exact ⟨x', hx, .lastExpr h⟩
  | moreExprs _ hc _ ih ihes =>
    obtain ⟨m, hm, hes⟩ := ihes hy
    obtain ⟨x', hx, h⟩ := ih (.of_kind hc (by decide))
    exact ⟨x', hx.trans hm.cons, .moreExprs h hc hes⟩
  | positional _ ih =>
    obtain ⟨x', hx, h⟩ := ih hy
    exact ⟨x', hx, .positional h⟩
  | input hp ha _ ih =>
    obtain ⟨x', hx, h⟩ := ih hy
    rw [← hx.cons.cons.spanBetween_eq]
    exact ⟨_, hx.cons.cons, .input hp ha h⟩
  | output hp ha _ ih =>
    obtain ⟨x', hx, h⟩ := ih hy
    rw [← hx.cons.cons.spanBetween_eq]
    exact ⟨_, hx.cons.cons, .output hp ha h⟩
  | negatedOutput hn hp ha _ ih =>
    obtain ⟨x', hx, h⟩ := ih hy
    rw [← hx.cons.cons.cons.spanBetween_eq]
    exact ⟨_, hx.cons.cons.cons, .negatedOutput hn hp ha h⟩
  | lastArg _ ih =>
    obtain ⟨x', hx, h⟩ := ih hy
    exact ⟨x', hx, .lastArg h⟩
  | moreArgs _ hc _ ih ihas =>
    obtain ⟨m, hm, has⟩ := ihas hy
    obtain ⟨x', hx, h⟩ := ih (.of_kind hc (by decide))
    exact ⟨x', hx.trans hm.cons, .moreArgs h hc has⟩

/-- What stands behind a phrase is the tail of the tokens. -/
theorem ExprPhrase.Spelled.suffix {φ : ExprPhrase} (h : φ.Spelled x y) : y <:+ x := by
  obtain ⟨x', hx, -⟩ := h.swapped fun _ => id
  exact hx.suffix

/-! ## Rows, lists and optional parts -/

section

variable {R : α → List Lexeme → List Lexeme → Prop} {as : List α} {o : Option α} {k : TokenKind}

theorem Row.swapped (h : Row R as x y) {C : List Lexeme → List Lexeme → Prop}
    (hC : ∀ {x x' y y'}, C y y' → Swapped y y' x x' → C x x')
    (hR : ∀ {a x y y'}, R a x y → C y y' → ∃ x', Swapped y y' x x' ∧ R a x' y') (hy : C y y') :
    ∃ x', Swapped y y' x x' ∧ Row R as x' y' := by
  induction h with
  | nil => exact ⟨y', .refl _ _, .nil⟩
  | cons ha _ ih =>
    obtain ⟨m, hm, has⟩ := ih hy
    obtain ⟨x', hx, ha⟩ := hR ha (hC hy hm)
    exact ⟨x', hx.trans hm, .cons ha has⟩

theorem CommaList.swapped (h : CommaList R as x y)
    (hR : ∀ {a x y y'}, R a x y → KeepsNumber y y' → ∃ x', Swapped y y' x x' ∧ R a x' y') (hy : KeepsNumber y y') :
    ∃ x', Swapped y y' x x' ∧ CommaList R as x' y' := by
  induction h with
  | last ha =>
    obtain ⟨x', hx, ha⟩ := hR ha hy
    exact ⟨x', hx, .last ha⟩
  | more ha hc _ ih =>
    obtain ⟨m, hm, has⟩ := ih hy
    obtain ⟨x', hx, ha⟩ := hR ha (.of_kind hc (by decide))
    exact ⟨x', hx.trans hm.cons, .more ha hc has⟩

theorem Optionally.swapped (h : Optionally R k o x y)
    (hR : ∀ {a x}, R a x y → ∃ x', Swapped y y' x x' ∧ R a x' y') :
    ∃ x', Swapped y y' x x' ∧ Optionally R k o x' y' := by
  cases h with
  | none => exact ⟨y', .refl _ _, .none⟩
  | some hw ha =>
    obtain ⟨x', hx, ha⟩ := hR ha
    exact ⟨_, hx.cons, .some hw ha⟩

end

/-! ## Statements -/

theorem BlockEnd.suffix {k : TokenKind} (h : BlockEnd k x y) : y <:+ x := by
  cases h with
  | plain => exact List.suffix_cons _ _
  | semicolon => exact (List.suffix_cons _ _).trans (List.suffix_cons _ _)

/-- The word that closes a block is no `;`. -/
theorem BlockEnd.swapped {k : TokenKind} (h : BlockEnd k x y) (hk : k ≠ .semicolon) (hy : KeepsEnd x y y') :
    ∃ x', Swapped y y' x x' ∧ BlockEnd k x' y' := by
  cases h with
  | @plain t _ ht hne =>
    refine ⟨_, .cons (.refl _ _), .plain ht fun h => ?_⟩
    rcases hy h with h | hend
    · exact hne h
    · exact hk (ht.symm.trans (hend [] t rfl))
  | semicolon ht hu => exact ⟨_, .cons (.cons (.refl _ _)), .semicolon ht hu⟩

namespace StmtPhrase

/-- What stands behind a phrase is the tail of the tokens. -/
theorem Spelled.suffix {φ : StmtPhrase} (h : φ.Spelled x y) : y <:+ x := by
  induction h with
  | ifThen _ hc _ _ _ _ hend ih₁ ih₂ ih₃ =>
    have hbody := hend.suffix.trans (ih₃.trans (ih₂.trans ih₁))
    exact (hbody.trans ((List.suffix_cons _ _).trans hc.suffix)).trans (List.suffix_cons _ _)
  | select _ he _ _ _ _ hend ih₁ ih₂ =>
    have hbody := hend.suffix.trans (ih₂.trans ih₁)
    exact (hbody.trans ((List.suffix_cons _ _).trans he.suffix)).trans (List.suffix_cons _ _)
  | forLoop _ _ _ hfirst _ hlast hstep _ _ hend ih =>
    obtain ⟨_, hstep, -⟩ := hstep.swapped fun h => h.swapped fun _ => id
    have hbody := (hend.suffix.trans ih).trans ((List.suffix_cons _ _).trans hstep.suffix)
    have hhead := (hbody.trans hlast.suffix).trans ((List.suffix_cons _ _).trans hfirst.suffix)
    exact hhead.trans ((List.suffix_cons _ _).trans ((List.suffix_cons _ _).trans (List.suffix_cons _ _)))
  | whileLoop _ hc _ _ hend ih =>
    have hbody := hend.suffix.trans ih
    exact (hbody.trans ((List.suffix_cons _ _).trans hc.suffix)).trans (List.suffix_cons _ _)
  | repeatLoop _ _ _ hc hend ih =>
    have hbody := (hend.suffix.trans hc.suffix).trans ((List.suffix_cons _ _).trans ih)
    exact hbody.trans (List.suffix_cons _ _)
  | assign _ htarget _ hvalue _ =>
    exact ((List.suffix_cons _ _).trans hvalue.suffix).trans ((List.suffix_cons _ _).trans htarget.suffix)
  | call _ hcallee _ => exact (List.suffix_cons _ _).trans hcallee.suffix
  | leave | exit | next => exact (List.suffix_cons _ _).trans (List.suffix_cons _ _)
  | nop => exact List.suffix_cons _ _
  | noStmts | noElsifs | noElse | noArms => exact List.suffix_rfl
  | moreStmts _ _ ih₁ ih₂ | moreArms _ _ ih₁ ih₂ => exact ih₂.trans ih₁
  | moreElsifs _ hc _ _ _ ih₁ ih₂ =>
    exact ((ih₂.trans ih₁).trans ((List.suffix_cons _ _).trans hc.suffix)).trans (List.suffix_cons _ _)
  | someElse _ _ ih => exact ih.trans (List.suffix_cons _ _)
  | arm hlabels _ _ ih => exact ih.trans ((List.suffix_cons _ _).trans hlabels.suffix)

/-- Arms go on to where their `CASE` does; every other phrase ends with a token of its own. -/
def isOpen : StmtPhrase → Bool
  | arm _ | arms _ => true
  | _ => false

/-- A phrase of statements is spelled in front of other tokens too, if the times of day in the labels of an arm stay
what they are, and if no `;` is new that the last block would take. -/
theorem Spelled.swapped {φ : StmtPhrase} (h : φ.Spelled x y) (htimes : φ.isOpen = true → KeepsTimes y y')
    (hsemi : KeepsEnd x y y') : ∃ x', Swapped y y' x x' ∧ φ.Spelled x' y' := by
  have hopen {y y' : List Lexeme} : false = true → KeepsTimes y y' := fun h => by cases h
  induction h generalizing y' with
  | @ifThen _ _ _ _ w _ x _ _ _ x₄ y hw hc hth hbody helsifs helse hend ih₁ ih₂ ih₃ =>
    have hsuffix : x₄ <:+ w :: x := by
      have hin := helse.suffix.trans (helsifs.suffix.trans hbody.suffix)
      exact (hin.trans ((List.suffix_cons _ _).trans hc.suffix)).trans (List.suffix_cons _ _)
    obtain ⟨y₄, hx₄, hend'⟩ := hend.swapped (by decide) (hsemi.of_suffix hsuffix)
    have hfront {x : List Lexeme} : KeepsEnd x x₄ y₄ := .of_front hx₄ hend.length_lt
    obtain ⟨y₃, hx₃, helse⟩ := ih₃ hopen hfront
    obtain ⟨y₂, hx₂, helsifs⟩ := ih₂ hopen (hfront.swapped hx₃)
    obtain ⟨y₁, hx₁, hbody⟩ := ih₁ hopen (hfront.swapped (hx₂.trans hx₃))
    obtain ⟨x', hx, hc⟩ := hc.swapped (.of_kind hth (by decide))
    have hin := hx₁.trans (hx₂.trans (hx₃.trans hx₄))
    have hx : Swapped y y' (w :: x) (w :: x') := (hx.trans hin.cons).cons
    rw [← hx.spanBetween_eq]
    exact ⟨_, hx, .ifThen hw hc hth hbody helsifs helse hend'⟩
  | @select _ _ _ w _ x _ _ x₃ y hw he ho hne harms helse hend ih₁ ih₂ =>
    have hsuffix : x₃ <:+ w :: x := by
      have hin := helse.suffix.trans harms.suffix
      exact (hin.trans ((List.suffix_cons _ _).trans he.suffix)).trans (List.suffix_cons _ _)
    obtain ⟨y₃, hx₃, hend'⟩ := hend.swapped (by decide) (hsemi.of_suffix hsuffix)
    have hfront {x : List Lexeme} : KeepsEnd x x₃ y₃ := .of_front hx₃ hend.length_lt
    obtain ⟨y₂, hx₂, helse⟩ := ih₂ hopen hfront
    have htimes := (KeepsTimes.of_front hx₃ hend.length_lt (by rw [hend.headKind_eq]; rfl)).swapped hx₂
    obtain ⟨y₁, hx₁, harms⟩ := ih₁ (fun _ => htimes) (hfront.swapped hx₂)
    obtain ⟨x', hx, he⟩ := he.swapped (.of_kind ho (by decide))
    have hx : Swapped y y' (w :: x) (w :: x') := (hx.trans (hx₁.trans (hx₂.trans hx₃)).cons).cons
    rw [← hx.spanBetween_eq]
    exact ⟨_, hx, .select hw he ho hne harms helse hend'⟩
  | @forLoop _ _ _ _ w v a _ _ x _ z₂ x₃ x₄ y hw hv ha hfirst ht hlast hstep hd hbody hend ih =>
    have hsuffix : x₄ <:+ w :: v :: a :: x := by
      obtain ⟨_, hstep, -⟩ := hstep.swapped fun h => h.swapped fun _ => id
      have hin := (hbody.suffix.trans (List.suffix_cons _ _)).trans (hstep.suffix.trans hlast.suffix)
      have hhead := (hin.trans (List.suffix_cons _ _)).trans hfirst.suffix
      exact hhead.trans ((List.suffix_cons _ _).trans ((List.suffix_cons _ _).trans (List.suffix_cons _ _)))
    obtain ⟨y₄, hx₄, hend'⟩ := hend.swapped (by decide) (hsemi.of_suffix hsuffix)
    obtain ⟨y₃, hx₃, hbody⟩ := ih hopen (.of_front hx₄ hend.length_lt)
    have hx₃ := hx₃.trans hx₄
    obtain ⟨x₂, hx₂, hstep'⟩ := hstep.swapped fun h => h.swapped (.of_kind hd (by decide))
    have hx₂ := hx₂.trans hx₃.cons
    have hnumber : KeepsNumber z₂ x₂ := by
      cases hstep' with
      | none => exact .of_kind hd (by decide)
      | some hw _ => exact .of_kind hw (by decide)
    obtain ⟨x₁, hx₁, hlast⟩ := hlast.swapped hnumber
    obtain ⟨x', hx, hfirst⟩ := hfirst.swapped (.of_kind ht (by decide))
    have hx : Swapped y y' (w :: v :: a :: x) (w :: v :: a :: x') := (hx.trans (hx₁.trans hx₂).cons).cons.cons.cons
    rw [← hx.spanBetween_eq]
    exact ⟨_, hx, .forLoop hw hv ha hfirst ht hlast hstep' hd hbody hend'⟩
  | @whileLoop _ _ w _ x _ x₂ y hw hc hd hbody hend ih =>
    have hsuffix : x₂ <:+ w :: x :=
      (hbody.suffix.trans ((List.suffix_cons _ _).trans hc.suffix)).trans (List.suffix_cons _ _)
    obtain ⟨y₂, hx₂, hend'⟩ := hend.swapped (by decide) (hsemi.of_suffix hsuffix)
    obtain ⟨y₁, hx₁, hbody⟩ := ih hopen (.of_front hx₂ hend.length_lt)
    obtain ⟨x', hx, hc⟩ := hc.swapped (.of_kind hd (by decide))
    have hx : Swapped y y' (w :: x) (w :: x') := (hx.trans (hx₁.trans hx₂).cons).cons
    rw [← hx.spanBetween_eq]
    exact ⟨_, hx, .whileLoop hw hc hd hbody hend'⟩
  | @repeatLoop _ _ w u x x₁ x₂ y hw hbody hu hc hend ih =>
    have hsuffix : x₂ <:+ w :: x :=
      (hc.suffix.trans ((List.suffix_cons _ _).trans hbody.suffix)).trans (List.suffix_cons _ _)
    obtain ⟨y₂, hx₂, hend'⟩ := hend.swapped (by decide) (hsemi.of_suffix hsuffix)
    obtain ⟨y₁, hx₁, hc⟩ := hc.swapped (KeepsTimes.of_front hx₂ hend.length_lt (by rw [hend.headKind_eq]; rfl)).number
    have hfront : KeepsEnd x (u :: x₁) (u :: y₁) := .of_head id
    obtain ⟨x', hx, hbody⟩ := ih hopen hfront
    have hx : Swapped y y' (w :: x) (w :: x') := (hx.trans (hx₁.trans hx₂).cons).cons
    rw [← hx.spanBetween_eq]
    exact ⟨_, hx, .repeatLoop hw hbody hu hc hend'⟩
  | assign hk htarget ha hvalue he =>
    obtain ⟨x₁, hx₁, hvalue⟩ := hvalue.swapped (.of_kind he (by decide))
    have hx₁ := hx₁.trans (.cons (.refl _ y'))
    have hlt := htarget.length_lt
    obtain ⟨x', hx, htarget⟩ := htarget.swapped (.of_kind ha (by decide))
    have hhead := hx.headKind_eq hlt
    have hx := hx.trans hx₁.cons
    rw [← hx.spanBetween_eq]
    exact ⟨x', hx, .assign (by rwa [hhead]) htarget ha hvalue he⟩
  | call hk hcallee he =>
    have hlt := hcallee.length_lt
    obtain ⟨x', hx, hcallee⟩ := hcallee.swapped (.of_kind he (by decide))
    have hhead := hx.headKind_eq hlt
    have hx := hx.trans (.cons (.refl _ y'))
    rw [← hx.spanBetween_eq]
    exact ⟨x', hx, .call (by rwa [hhead]) hcallee he⟩
  | @leave w e y hw he =>
    have hx : Swapped y y' (w :: e :: y) (w :: e :: y') := .cons (.cons (.refl _ _))
    rw [← hx.spanBetween_eq]
    exact ⟨_, hx, .leave hw he⟩
  | @exit w e y hw he =>
    have hx : Swapped y y' (w :: e :: y) (w :: e :: y') := .cons (.cons (.refl _ _))
    rw [← hx.spanBetween_eq]
    exact ⟨_, hx, .exit hw he⟩
  | @next w e y hw he =>
    have hx : Swapped y y' (w :: e :: y) (w :: e :: y') := .cons (.cons (.refl _ _))
    rw [← hx.spanBetween_eq]
    exact ⟨_, hx, .next hw he⟩
  | nop ht => exact ⟨_, .cons (.refl _ _), .nop ht⟩
  | noStmts => exact ⟨y', .refl _ _, .noStmts⟩
  | moreStmts h _ ih₁ ih₂ =>
    obtain ⟨m, hm, hs⟩ := ih₂ hopen (hsemi.of_suffix h.suffix)
    obtain ⟨x', hx, h⟩ := ih₁ hopen (hsemi.swapped hm)
    exact ⟨x', hx.trans hm, .moreStmts h hs⟩
  | noElsifs => exact ⟨y', .refl _ _, .noElsifs⟩
  | @moreElsifs _ _ _ w _ x _ x₂ y hw hc hth hbody _ ih₁ ih₂ =>
    have hsuffix : x₂ <:+ w :: x :=
      (hbody.suffix.trans ((List.suffix_cons _ _).trans hc.suffix)).trans (List.suffix_cons _ _)
    obtain ⟨m, hm, hs⟩ := ih₂ hopen (hsemi.of_suffix hsuffix)
    have hin := (List.suffix_cons _ _).trans (hc.suffix.trans (List.suffix_cons w x))
    obtain ⟨x₁, hx₁, hbody⟩ := ih₁ hopen ((hsemi.of_suffix hin).swapped hm)
    obtain ⟨x', hx, hc⟩ := hc.swapped (.of_kind hth (by decide))
    have hx : Swapped x₂ m (w :: x) (w :: x') := (hx.trans hx₁.cons).cons
    rw [← hx.spanBetween_eq]
    exact ⟨_, hx.trans hm, .moreElsifs hw hc hth hbody hs⟩
  | noElse => exact ⟨y', .refl _ _, .noElse⟩
  | someElse hw _ ih =>
    obtain ⟨x', hx, hbody⟩ := ih hopen (hsemi.of_suffix (List.suffix_cons _ _))
    exact ⟨_, hx.cons, .someElse hw hbody⟩
  | arm hlabels hc _ ih =>
    obtain ⟨x₁, hx₁, hbody⟩ := ih hopen (hsemi.of_suffix ((List.suffix_cons _ _).trans hlabels.suffix))
    obtain ⟨x', hx, hlabels⟩ := hlabels.swapped ((htimes rfl).swapped hx₁.cons).number
    have hx := hx.trans hx₁.cons
    rw [← hx.spanBetween_eq]
    exact ⟨x', hx, .arm hlabels hc hbody⟩
  | noArms => exact ⟨y', .refl _ _, .noArms⟩
  | moreArms h _ ih₁ ih₂ =>
    obtain ⟨m, hm, hs⟩ := ih₂ (fun _ => htimes rfl) (hsemi.of_suffix h.suffix)
    obtain ⟨x', hx, h⟩ := ih₁ (fun _ => (htimes rfl).swapped hm) (hsemi.swapped hm)
    exact ⟨x', hx.trans hm, .moreArms h hs⟩

/-- Statements that end with the tokens are spelled in front of more tokens too, if no `;` stands first that their last
block would take. -/
theorem Spelled.append {sts : List Stmt} (h : (stmts sts).Spelled x [])
    (hy : headKind y = .semicolon → Terminated x []) : (stmts sts).Spelled (x ++ y) y := by
  obtain ⟨x', ⟨p, rfl, rfl⟩, h⟩ := h.swapped (fun h => by cases h) fun hhead => .inr (hy hhead)
  rwa [List.append_nil]

end StmtPhrase

/-! ## Declarations -/

theorem TypeSpelled.swapped {type : TypeRef} (h : TypeSpelled type x y) :
    ∃ x', Swapped y y' x x' ∧ TypeSpelled type x' y' := by
  induction h with
  | elementary ht => exact ⟨_, .cons (.refl _ _), .elementary ht⟩
  | named h =>
    obtain ⟨x', hx, h⟩ := h.swapped y'
    exact ⟨x', hx, .named h⟩
  | @reference _ w x y hw _ ih =>
    obtain ⟨x', hx, h⟩ := ih
    have hx : Swapped y y' (w :: x) (w :: x') := hx.cons
    rw [← hx.spanBetween_eq]
    exact ⟨_, hx, .reference hw h⟩

theorem InitPhrase.Spelled.swapped {φ : InitPhrase} (h : φ.Spelled x y) (hy : KeepsNumber y y') :
    ∃ x', Swapped y y' x x' ∧ φ.Spelled x' y' := by
  induction h generalizing y' with
  | expr h =>
    obtain ⟨x', hx, h⟩ := h.swapped hy
    exact ⟨x', hx, .expr h⟩
  | @array _ l _ x y hl _ hr ih =>
    obtain ⟨x', hx, h⟩ := ih (.of_kind hr (by decide))
    have hx : Swapped y y' (l :: x) (l :: x') := (hx.trans (.cons (.refl _ y'))).cons
    rw [← hx.spanBetween_eq]
    exact ⟨_, hx, .array hl h hr⟩
  | @record _ l _ x y hl _ hr ih =>
    obtain ⟨x', hx, h⟩ := ih (.of_kind hr (by decide))
    have hx : Swapped y y' (l :: x) (l :: x') := (hx.trans (.cons (.refl _ y'))).cons
    rw [← hx.spanBetween_eq]
    exact ⟨_, hx, .record hl h hr⟩
  | lastValue _ ih =>
    obtain ⟨x', hx, h⟩ := ih hy
    exact ⟨x', hx, .lastValue h⟩
  | moreValues _ hc _ ih ihs =>
    obtain ⟨m, hm, hs⟩ := ihs hy
    obtain ⟨x', hx, h⟩ := ih (.of_kind hc (by decide))
    exact ⟨x', hx.trans hm.cons, .moreValues h hc hs⟩
  | single _ ih =>
    obtain ⟨x', hx, h⟩ := ih hy
    exact ⟨x', hx, .single h⟩
  | @repeatedNone c l r y hc hl hr =>
    have hx : Swapped y y' (c :: l :: r :: y) (c :: l :: r :: y') := ⟨[c, l, r], rfl, rfl⟩
    rw [← hx.spanBetween_eq]
    exact ⟨_, hx, .repeatedNone hc hl hr⟩
  | @repeated _ c l _ x y hc hl _ hr ih =>
    obtain ⟨x', hx, h⟩ := ih (.of_kind hr (by decide))
    have hx : Swapped y y' (c :: l :: x) (c :: l :: x') := (hx.trans (.cons (.refl _ y'))).cons.cons
    rw [← hx.spanBetween_eq]
    exact ⟨_, hx, .repeated hc hl h hr⟩
  | lastElement _ ih =>
    obtain ⟨x', hx, h⟩ := ih hy
    exact ⟨x', hx, .lastElement h⟩
  | moreElements _ hc _ ih ihs =>
    obtain ⟨m, hm, hs⟩ := ihs hy
    obtain ⟨x', hx, h⟩ := ih (.of_kind hc (by decide))
    exact ⟨x', hx.trans hm.cons, .moreElements h hc hs⟩
  | field hn ha _ ih =>
    obtain ⟨x', hx, h⟩ := ih hy
    rw [← hx.cons.cons.spanBetween_eq]
    exact ⟨_, hx.cons.cons, .field hn ha h⟩
  | lastField _ ih =>
    obtain ⟨x', hx, h⟩ := ih hy
    exact ⟨x', hx, .lastField h⟩
  | moreFields _ hc _ ih ihs =>
    obtain ⟨m, hm, hs⟩ := ihs hy
    obtain ⟨x', hx, h⟩ := ih (.of_kind hc (by decide))
    exact ⟨x', hx.trans hm.cons, .moreFields h hc hs⟩

theorem BoundsSpelled.swapped {b : ArrayBounds} (h : BoundsSpelled b x y) (hy : KeepsNumber y y') :
    ∃ x', Swapped y y' x x' ∧ BoundsSpelled b x' y' := by
  cases h with
  | mk hlower hd hupper =>
    obtain ⟨x₁, hx₁, hupper⟩ := hupper.swapped hy
    obtain ⟨x', hx, hlower⟩ := hlower.swapped (.of_kind hd (by decide))
    have hx := hx.trans hx₁.cons
    rw [← hx.spanBetween_eq]
    exact ⟨x', hx, .mk hlower hd hupper⟩

theorem OneToken.swapped {k : TokenKind} {u : Unit} (h : OneToken k u x y) :
    ∃ x', Swapped y y' x x' ∧ OneToken k u x' y' := by
  cases h with
  | mk ht => exact ⟨_, .cons (.refl _ _), .mk ht⟩

theorem DimensionsSpelled.swapped {shape : ArrayShape} (h : DimensionsSpelled shape x y) (hy : KeepsNumber y y') :
    ∃ x', Swapped y y' x x' ∧ DimensionsSpelled shape x' y' := by
  cases h with
  | bounded h =>
    obtain ⟨x', hx, h⟩ := h.swapped BoundsSpelled.swapped hy
    exact ⟨x', hx, .bounded h⟩
  | unbounded h =>
    obtain ⟨x', hx, h⟩ := h.swapped (fun h _ => h.swapped) hy
    exact ⟨x', hx, .unbounded h⟩

theorem ShapeSpelled.swapped {shape : ArrayShape} (h : ShapeSpelled shape x y) :
    ∃ x', Swapped y y' x x' ∧ ShapeSpelled shape x' y' := by
  cases h with
  | mk hl h hr ho =>
    obtain ⟨x', hx, h⟩ := h.swapped (.of_kind hr (by decide))
    exact ⟨_, (hx.trans (.cons (.cons (.refl _ y')))).cons, .mk hl h hr ho⟩

theorem LengthSpelled.swapped {e : Expr} (h : LengthSpelled e x y) :
    ∃ x', Swapped y y' x x' ∧ LengthSpelled e x' y' := by
  cases h with
  | mk h hr =>
    obtain ⟨x', hx, h⟩ := h.swapped (.of_kind hr (by decide))
    exact ⟨x', hx.trans (.cons (.refl _ y')), .mk h hr⟩

theorem DeclHeadSpelled.swapped {d : VarDecl} (h : DeclHeadSpelled d x y) (hy : KeepsNumber y y') :
    ∃ x', Swapped y y' x x' ∧ DeclHeadSpelled d x' y' := by
  cases h with
  | mk hn hname hlocation hc hshape htype hlength hinitial =>
    obtain ⟨x₄, hx₄, hinitial⟩ := hinitial.swapped fun h => h.swapped hy
    obtain ⟨x₃, hx₃, hlength⟩ := hlength.swapped fun h => h.swapped
    obtain ⟨x₂, hx₂, htype⟩ := htype.swapped
    obtain ⟨x₁, hx₁, hshape⟩ := hshape.swapped fun h => h.swapped
    obtain ⟨x', hx, hlocation⟩ := hlocation.swapped fun h => h.swapped _
    exact ⟨_, (hx.trans (hx₁.trans (hx₂.trans (hx₃.trans hx₄))).cons).cons,
      .mk hn hname hlocation hc hshape htype hlength hinitial⟩

theorem DeclSpelled.swapped {d : VarDecl} (h : DeclSpelled d x y) : ∃ x', Swapped y y' x x' ∧ DeclSpelled d x' y' := by
  obtain ⟨e, he, hhead, hspan⟩ := h.exists_head
  obtain ⟨x', hx, hhead⟩ := hhead.swapped (.of_kind he (by decide))
  have hx := hx.trans (.cons (.refl _ y'))
  exact ⟨x', hx, hhead.spelled he (hspan.trans hx.spanBetween_eq.symm)⟩

/-! ## Blocks and units -/

variable {unit : UnitKind}

theorem ConstantSpelled.swapped {isConstant : Bool} (h : ConstantSpelled isConstant x y) :
    ∃ x', Swapped y y' x x' ∧ ConstantSpelled isConstant x' y' := by
  cases h with
  | no => exact ⟨y', .refl _ _, .no⟩
  | yes hw => exact ⟨_, .cons (.refl _ _), .yes hw⟩

theorem decls_swapped {decls : List VarDecl} (h : Row DeclSpelled decls x y) :
    ∃ x', Swapped y y' x x' ∧ Row DeclSpelled decls x' y' :=
  h.swapped (C := fun _ _ => True) (fun _ _ => trivial) (fun h _ => h.swapped) trivial

theorem BlockSpelled.swapped {b : VarBlock} (h : BlockSpelled unit b x y) :
    ∃ x', Swapped y y' x x' ∧ BlockSpelled unit b x' y' := by
  cases h with
  | @mk kind isConstant decls w e x _ _ hw hunit hconstant hdecls he =>
    obtain ⟨x₁, hx₁, hdecls⟩ := decls_swapped hdecls
    obtain ⟨x', hx, hconstant⟩ := hconstant.swapped
    have hx : Swapped y y' (w :: x) (w :: x') := (hx.trans (hx₁.trans (.cons (.refl _ y')))).cons
    rw [← hx.spanBetween_eq]
    exact ⟨_, hx, .mk hw hunit hconstant hdecls he⟩

theorem blocks_swapped {blocks : List VarBlock} (h : Row (BlockSpelled unit) blocks x y) :
    ∃ x', Swapped y y' x x' ∧ Row (BlockSpelled unit) blocks x' y' :=
  h.swapped (C := fun _ _ => True) (fun _ _ => trivial) (fun h _ => h.swapped) trivial

theorem BodySpelled.swapped {b : Body} (h : BodySpelled unit b x y)
    (hsemi : headKind y' = .semicolon → headKind y = .semicolon) :
    ∃ x', Swapped y y' x x' ∧ BodySpelled unit b x' y' := by
  cases h with
  | mk hblocks hstmts hend =>
    obtain ⟨x₂, hx₂, hend'⟩ := hend.swapped (by cases unit <;> decide) (.of_head hsemi)
    obtain ⟨x₁, hx₁, hstmts⟩ := hstmts.swapped (fun h => by cases h) (.of_front hx₂ hend.length_lt)
    obtain ⟨x', hx, hblocks⟩ := blocks_swapped hblocks
    exact ⟨x', hx.trans (hx₁.trans hx₂), .mk hblocks hstmts hend'⟩

theorem UnitSpelled.swapped {u : ProgramUnit} (h : UnitSpelled u x y)
    (hsemi : headKind y' = .semicolon → headKind y = .semicolon) :
    ∃ x', Swapped y y' x x' ∧ UnitSpelled u x' y' := by
  cases h with
  | @algorithm _ w n x _ hw hn hbody =>
    obtain ⟨x', hx, hbody⟩ := hbody.swapped hsemi
    have hx : Swapped y y' (w :: n :: x) (w :: n :: x') := hx.cons.cons
    rw [← hx.spanBetween_eq]
    exact ⟨_, hx, .algorithm hw hn hbody⟩
  | @method _ _ w n x _ _ hw hn htype hbody =>
    obtain ⟨x₁, hx₁, hbody⟩ := hbody.swapped hsemi
    obtain ⟨x', hx, htype⟩ := htype.swapped fun h => h.swapped
    have hx : Swapped y y' (w :: n :: x) (w :: n :: x') := (hx.trans hx₁).cons.cons
    rw [← hx.spanBetween_eq]
    exact ⟨_, hx, .method hw hn htype hbody⟩

end StructuredText
