import StructuredText.Proofs.Nodes
import StructuredText.Proofs.Order
import StructuredText.Proofs.ParseUnits

/-!
# The tokens of a node

`Node.Spelled` says for each kind of node which tokens spell it, as the grammar has it. A node is exact if its span
begins with the first one of the tokens that spell it and ends with the last one (`Node.Exact`). Only the type name in
a literal is a part of a token, and an empty file has no tokens at all.

`Laid text ns x y` says that the nodes `ns` stand one behind the other in the tokens `x` of a text, in front of the
tokens `y`, and that all nodes inside them are exact. Rows of nodes are put together from their parts (`Laid.append`,
`Laid.token`), and where a node is spelled by all the tokens of a row, it takes the place of the nodes below it
(`Laid.node`).
-/

namespace StructuredText

/-! ## Spellings -/

/-- A qualified name, or a name behind the name of its type and `#`. -/
inductive NameSpelled : Name → List Lexeme → List Lexeme → Prop
  | qualified {name : Name} {x y : List Lexeme} : QualifiedName name x y → NameSpelled name x y
  | enumerated {p n : Lexeme} {y : List Lexeme} :
      p.kind = .typedLiteralPrefix → LiteralType.ofName? (withoutHash p.text) = none → n.kind = .ident →
      NameSpelled ⟨p.text ++ n.text, p.span.cover n.span⟩ (p :: n :: y) y

/-- The name is what stands in the token in front of the first `#`, without the `#`. -/
structure Name.FrontOf (name : Name) (t : Lexeme) : Prop where
  text_eq : ∃ value, t.text.toList = name.text.toList ++ '#' :: value
  hash_notMem : '#' ∉ name.text.toList
  span_eq : name.span = ⟨t.span.start, t.span.start + Text.byteLength name.text.toList⟩

namespace Node

/-- The tokens of the first row in front of the second one spell the node. A statement has its `;`, a block and a unit
the `;` behind it if there is one, and an initial value that stands alone has not. A branch and an arm are over where
their statements are. The type name in a literal is no token. -/
def Spelled : Node → List Lexeme → List Lexeme → Prop
  | name n => NameSpelled n
  | typeName _ => fun _ _ => False
  | literal l => LiteralSpelled l
  | selector s => fun x y => ∃ t, x = t :: y ∧ t.kind = .intLiteral ∧ s = .ofToken t.name
  | expr e => (ExprPhrase.expr 0 e).Spelled
  | arg a => (ExprPhrase.arg a).Spelled
  | type t => TypeSpelled t
  | stmt st => (StmtPhrase.stmt st).Spelled
  | branch b => (StmtPhrase.elsifs [b]).Spelled
  | arm a => (StmtPhrase.arm a).Spelled
  | initial v => (InitPhrase.value v).Spelled
  | element e => (InitPhrase.element e).Spelled
  | field f => (InitPhrase.field f).Spelled
  | bounds b => BoundsSpelled b
  | decl d => DeclSpelled d
  | block b => fun x y => ∃ unit, BlockSpelled unit b x y
  | unit u => UnitSpelled u
  | source f => fun x y => SpellsUnits x f.units ∧ y = []
  | statements l => fun x y => SpellsStatements x l.statements ∧ y = []
  | initializer i => fun x y =>
    ∃ x₁, TargetSpelled i.target x x₁ ∧ (InitPhrase.value i.value).Spelled x₁ y ∧ OptionalSemicolon y

/-- The span of the node begins with the first and ends with the last one of the tokens that spell the node. -/
inductive Exact (text : String) : Node → Prop
  | tokens {n : Node} {before ts after : List Lexeme} (hne : ts ≠ []) :
      (Stream.ofText text).significant = before ++ (ts ++ after) → n.Spelled (ts ++ after) after →
      n.span = ⟨(ts.head hne).span.start, (ts.getLast hne).span.stop⟩ → Exact text n
  | typeName {name : Name} {t : Lexeme} :
      t ∈ (Stream.ofText text).significant → name.FrontOf t → Exact text (.typeName name)
  /-- A source and a list of statements may be empty, and then they stand at the end of the text. -/
  | empty {n : Node} : (Stream.ofText text).significant = [] → n.Spelled [] [] →
      n.span = .empty text.utf8ByteSize → Exact text n

/-- The node is exact, and the nodes directly below it lie inside it and stand in order. -/
structure Precise (text : String) (n : Node) : Prop where
  exact : n.Exact text
  within : ∀ c ∈ n.children, c.Within n
  before : n.children.Pairwise Before

end Node

/-! ## Rows of nodes -/

/-- The first span reaches from the beginning of the second one or before to its end or behind. -/
def Span.Encloses (outer inner : Span) : Prop := outer.start ≤ inner.start ∧ inner.stop ≤ outer.stop

theorem Span.Encloses.refl (s : Span) : s.Encloses s := ⟨Nat.le_refl _, Nat.le_refl _⟩

theorem Span.Encloses.trans {s t u : Span} (h : s.Encloses t) (h' : t.Encloses u) : s.Encloses u :=
  ⟨Nat.le_trans h.1 h'.1, Nat.le_trans h'.2 h.2⟩

namespace StandFrom

variable {n : Nat} {ts us : List Lexeme}

theorem encloses_left (h : StandFrom n (ts ++ us)) (hts : ts ≠ []) : (spanOf (ts ++ us)).Encloses (spanOf ts) := by
  by_cases hus : us = []
  · rw [hus, List.append_nil]
    exact .refl _
  · obtain ⟨hle, hspan⟩ := h.spanOf_append hts hus
    rw [hspan]
    exact ⟨Nat.le_refl _, Nat.le_trans hle (ordered_spanOf us)⟩

theorem encloses_right (h : StandFrom n (ts ++ us)) (hus : us ≠ []) : (spanOf (ts ++ us)).Encloses (spanOf us) := by
  by_cases hts : ts = []
  · rw [hts, List.nil_append]
    exact .refl _
  · obtain ⟨hle, hspan⟩ := h.spanOf_append hts hus
    rw [hspan]
    exact ⟨Nat.le_trans (ordered_spanOf ts) hle, Nat.le_refl _⟩

end StandFrom

/-- The tokens are the last ones of a text. -/
def EndsText (text : String) (x : List Lexeme) : Prop := x <:+ (Stream.ofText text).significant

theorem EndsText.stand {text : String} {x : List Lexeme} (h : EndsText text x) : ∃ n, StandFrom n x := by
  obtain ⟨before, heq⟩ := h
  have hstand : StandFrom 0 (Stream.ofText text).significant := (Stream.inOrder_ofText text).rest
  rw [← heq] at hstand
  exact ⟨_, (StandFrom.append_iff.1 hstand).2⟩

/-- The nodes stand one behind the other in the tokens `x` of the text, in front of `y`. -/
structure Laid (text : String) (ns : List Node) (x y : List Lexeme) : Prop where
  whole : EndsText text x
  suffix : y <:+ x
  precise : ∀ n ∈ ns, n.Every (Node.Precise text)
  encloses : ∀ n ∈ ns, y.length < x.length ∧ (spanBetween x y).Encloses n.span
  before : ns.Pairwise Node.Before

/-- The node is spelled by the tokens `x` of the text in front of `y`, and spans them. -/
structure Fills (text : String) (n : Node) (x y : List Lexeme) : Prop where
  laid : Laid text [n] x y
  span_eq : n.span = spanBetween x y

section

variable {text : String} {ns ms : List Node} {n : Node} {x y z : List Lexeme} {t : Lexeme}

theorem ne_nil_of_length_lt {ts : List Lexeme} (h : y.length < (ts ++ y).length) : ts ≠ [] := by
  rintro rfl
  exact Nat.lt_irrefl _ h

theorem EndsText.tail (h : EndsText text (t :: x)) : EndsText text x := (List.suffix_cons t x).trans h

theorem EndsText.mem (h : EndsText text (t :: x)) : t ∈ (Stream.ofText text).significant :=
  h.subset List.mem_cons_self

theorem EndsText.covers (h : EndsText text (t :: x)) : t.Covers := (Stream.inOrder_ofText text).covers h.mem

theorem EndsText.spanBetween_one (h : EndsText text (t :: x)) : spanBetween (t :: x) x = t.span :=
  (spanBetween_append [t] x).trans h.covers.spanOf_eq

namespace Laid

theorem rest (h : Laid text ns x y) : EndsText text y := h.suffix.trans h.whole

theorem refl (hx : EndsText text x) : Laid text [] x x := ⟨hx, List.suffix_rfl, nofun, nofun, .nil⟩

/-- Nodes in front of others. -/
theorem append (h : Laid text ns x y) (h' : Laid text ms y z) : Laid text (ns ++ ms) x z := by
  obtain ⟨k, hstand⟩ := h.whole.stand
  have hxy := h.suffix.length_le
  have hyz := h'.suffix.length_le
  obtain ⟨ts, rfl⟩ := h.suffix
  obtain ⟨us, rfl⟩ := h'.suffix
  have hin := h.encloses
  have hin' := h'.encloses
  rw [spanBetween_append] at hin hin'
  rw [← List.append_assoc] at hstand
  have hstand := (StandFrom.append_iff.1 hstand).1
  have hspan : spanBetween (ts ++ (us ++ z)) z = spanOf (ts ++ us) := by
    rw [← List.append_assoc, spanBetween_append]
  refine ⟨h.whole, h'.suffix.trans h.suffix, List.forall_mem_append.2 ⟨h.precise, h'.precise⟩, ?_, ?_⟩
  · rw [hspan]
    refine List.forall_mem_append.2 ⟨fun n hn => ?_, fun m hm => ?_⟩
    · obtain ⟨hlt, hin⟩ := hin n hn
      exact ⟨Nat.lt_of_le_of_lt hyz hlt, (hstand.encloses_left (ne_nil_of_length_lt hlt)).trans hin⟩
    · obtain ⟨hlt, hin⟩ := hin' m hm
      exact ⟨Nat.lt_of_lt_of_le hlt hxy, (hstand.encloses_right (ne_nil_of_length_lt hlt)).trans hin⟩
  · refine List.pairwise_append.2 ⟨h.before, h'.before, fun n hn m hm => ?_⟩
    obtain ⟨hlt, hn⟩ := hin n hn
    obtain ⟨hlt', hm⟩ := hin' m hm
    obtain ⟨hle, -⟩ := hstand.spanOf_append (ne_nil_of_length_lt hlt) (ne_nil_of_length_lt hlt')
    exact Nat.le_trans hn.2 (Nat.le_trans hle hm.1)

/-- Nodes in front of others, which are known to stand in the rest of the text. -/
theorem andThen (h : Laid text ns x y) (h' : EndsText text y → Laid text ms y z) : Laid text (ns ++ ms) x z :=
  h.append (h' h.rest)

/-- Tokens that belong to none of the nodes. -/
theorem drop (h : Laid text ns x y) (hz : z <:+ y) : Laid text ns x z := by
  have hrest : Laid text [] y z := ⟨h.rest, hz, nofun, nofun, .nil⟩
  exact List.append_nil ns ▸ h.append hrest

theorem token (h : Laid text ns x (t :: y)) : Laid text ns x y := h.drop (List.suffix_cons t y)

/-- A node spelled by all the tokens of a row takes the place of the nodes below it. -/
theorem node (h : Laid text ns x y) (hns : n.children = ns) (hspelled : n.Spelled x y)
    (hspan : n.span = spanBetween x y) (hlt : y.length < x.length) : Fills text n x y := by
  subst hns
  obtain ⟨k, hstand⟩ := h.whole.stand
  refine ⟨⟨h.whole, h.suffix, ?_, ?_, List.pairwise_singleton _ _⟩, hspan⟩
  · rintro m hm
    rw [List.mem_singleton.1 hm]
    refine Node.every_iff.2 ⟨⟨?_, ?_, h.before⟩, h.precise⟩
    · obtain ⟨before, htokens⟩ := h.whole
      obtain ⟨ts, rfl⟩ := h.suffix
      have hts := ne_nil_of_length_lt hlt
      refine .tokens hts htokens.symm hspelled ?_
      rw [hspan, spanBetween_append]
      exact (StandFrom.append_iff.1 hstand).1.spanOf_eq hts
    · intro c hc
      rw [Node.Within, hspan]
      exact (h.encloses c hc).2
  · rintro m hm
    rw [List.mem_singleton.1 hm, hspan]
    exact ⟨hlt, .refl _⟩

/-- A row of tokens that belong to no node. -/
theorem none (hx : EndsText text x) (hy : y <:+ x) : Laid text [] x y := (refl hx).drop hy

end Laid

/-- A node that is one token. -/
theorem Fills.one (hx : EndsText text (t :: y)) (hchildren : n.children = []) (hspelled : n.Spelled (t :: y) y)
    (hspan : n.span = t.span) : Fills text n (t :: y) y :=
  (Laid.refl hx).token.node hchildren hspelled (hspan.trans hx.spanBetween_one.symm) (Nat.lt_succ_self _)

theorem Fills.ident (hx : EndsText text (t :: y)) (hk : t.kind = .ident) : Fills text (.name t.name) (t :: y) y :=
  .one hx rfl (NameSpelled.qualified (.one hk)) rfl

/-- The span around two nodes is that of all tokens from the first one of the one to the last one of the other. -/
theorem Fills.cover {a b : Node} {y' : List Lexeme} (h : Fills text a x y) (hgap : y' <:+ y) (h' : Fills text b y' z) :
    a.span.cover b.span = spanBetween x z := by
  obtain ⟨k, hstand⟩ := h.laid.whole.stand
  have hlt := (h.laid.encloses a (List.mem_singleton_self a)).1
  have hlt' := (h'.laid.encloses b (List.mem_singleton_self b)).1
  rw [h.span_eq, h'.span_eq]
  obtain ⟨ts, rfl⟩ := h.laid.suffix
  obtain ⟨gap, rfl⟩ := hgap
  obtain ⟨us, rfl⟩ := h'.laid.suffix
  have hassoc : ts ++ (gap ++ (us ++ z)) = ts ++ (gap ++ us) ++ z := by simp only [List.append_assoc]
  rw [hassoc] at hstand ⊢
  rw [spanBetween_append us z, spanBetween_append (ts ++ (gap ++ us)) z, ← hassoc, spanBetween_append]
  exact (StandFrom.append_iff.1 hstand).1.cover_spanOf (ne_nil_of_length_lt hlt) (ne_nil_of_length_lt hlt')

/-! ## Rows, lists and optional parts -/

section

variable {R : α → List Lexeme → List Lexeme → Prop} {f : α → List Node} {as : List α}

theorem Row.laid (h : Row R as x y) (hR : ∀ {a x y}, R a x y → EndsText text x → Laid text (f a) x y)
    (hx : EndsText text x) : Laid text (as.flatMap f) x y := by
  induction h with
  | nil => exact .refl hx
  | cons h _ ih => exact (hR h hx).andThen ih

theorem CommaList.laid (h : CommaList R as x y) (hR : ∀ {a x y}, R a x y → EndsText text x → Laid text (f a) x y)
    (hx : EndsText text x) : Laid text (as.flatMap f) x y := by
  induction h with
  | @last a x y h => exact List.flatMap_singleton f a ▸ hR h hx
  | more h _ _ ih => exact (hR h hx).token.andThen ih

theorem Optionally.laid {k : TokenKind} {o : Option α} (h : Optionally R k o x y)
    (hR : ∀ {a x y}, R a x y → EndsText text x → Laid text (f a) x y) (hx : EndsText text x) :
    Laid text (o.toList.flatMap f) x y := by
  cases h with
  | none => exact .refl hx
  | @some a w x y _ h => exact List.flatMap_singleton f a ▸ (Laid.refl hx).token.append (hR h hx.tail)

end

end

end StructuredText
