import StructuredText.Proofs.BrokenDecls
import StructuredText.Proofs.ParseMethods

/-!
# Methods with a declaration that is none

In the tokens of a method without a diagnostic, a broken declaration is put between two declarations of a block. The
parse reports it and nothing else, and the tree is the same up to spans (`parseMethod_skips_broken_decl`).
-/

namespace StructuredText

open StructuredText.Parser

section

variable {n : Nat} {p z xs ys : List Lexeme} {t : Lexeme} {before behind : Span}

/-- Tokens that are cut out leave the other ones in order. -/
theorem StandFrom.cut {gap : List Lexeme} (h : StandFrom n (xs ++ (gap ++ ys))) : StandFrom n (xs ++ ys) := by
  obtain ⟨hxs, h⟩ := StandFrom.append_iff.1 h
  obtain ⟨hgap, hys⟩ := StandFrom.append_iff.1 h
  exact StandFrom.append_iff.2 ⟨hxs, hys.mono hgap.le_stopAfter⟩

/-- Where tokens stand in order, the place between two parts is known by their spans. -/
theorem Between.eq_of_standFrom (h : Between before behind p z) (hstand : StandFrom n (p ++ z))
    (heq : p ++ z = xs ++ ys) (hxs : ∀ t ∈ xs, t.span.stop ≤ behind.start)
    (hys : ∀ t ∈ ys, before.stop ≤ t.span.start) : p = xs ∧ z = ys := by
  obtain ⟨⟨f, hf, ⟨p₀, rfl⟩, rfl⟩, b, hb, ⟨z₀, rfl⟩, rfl⟩ := h
  have hcovers : ∀ t ∈ p₀ ++ f ++ (b ++ z₀), t.span.start < t.span.stop := fun t ht => (hstand.covers ht).lt
  obtain ⟨f, l, rfl⟩ := (List.eq_nil_or_concat' f).resolve_left hf
  obtain ⟨u, b, rfl⟩ := List.exists_cons_of_ne_nil hb
  have hlast : (spanOf (f ++ [l])).stop = l.span.stop := by
    have hpart := (StandFrom.append_iff.1 (StandFrom.append_iff.1 hstand).1).2
    rw [hpart.spanOf_eq hf, List.getLast_concat]
  -- The last token in front and the first one behind cannot stand on the other side.
  rcases List.append_eq_append_iff.1 heq with ⟨c, rfl, hc⟩ | ⟨c, hc, rfl⟩
  · cases c with
    | nil => exact ⟨(List.append_nil _).symm, hc⟩
    | cons t c =>
      obtain ⟨rfl, -⟩ := List.cons.inj hc
      have hstop : u.span.stop ≤ u.span.start := hxs u (by simp)
      have := hcovers u (by simp)
      omega
  · rcases List.eq_nil_or_concat' c with rfl | ⟨c, t, rfl⟩
    · exact ⟨hc.trans (List.append_nil xs), rfl⟩
    · rw [← List.append_assoc, ← List.append_assoc] at hc
      obtain rfl : l = t := List.singleton_inj.1 (List.append_inj' hc rfl).2
      have hstart := hys l (by simp)
      have := hcovers l (by simp)
      omega

end

section

variable {source : List Char} {front back bs : List Token} {semicolon : Token}

/-- The tokens of a broken declaration go on up to its `;`. -/
theorem upToSemicolon_significant (hbs : ∀ t ∈ bs, t.kind ≠ .eof ∧ t.kind.goesOn = true)
    (hsemicolon : semicolon.kind = .semicolon) :
    UpToSemicolon (Stream.mk (bs ++ [semicolon]) source).significant := by
  refine ⟨(Stream.mk bs source).significant, semicolon.lexeme source, ?_, hsemicolon, fun t ht => ?_⟩
  · exact Stream.significant_append_cons (fun t ht => (hbs t ht).1) (by simp [hsemicolon, TokenKind.isTrivia])
  · obtain ⟨u, hu, rfl⟩ := Stream.exists_of_mem_significant ht
    exact (hbs u hu).2

/-- Let a method have a tree and no diagnostics, and let its tokens be cut between two declarations of a block. There
tokens are put in that go on up to a `;` and begin as no declaration does. Then the method has the same tree up to
spans, and its only diagnostic is a syntax error at one of the new tokens. -/
theorem parseMethod_skips_broken_decl {m : Method} {block : VarBlock} {d₁ d₂ : VarDecl} {r : Report}
    (horder : StandFrom 0 (Stream.mk (front ++ back) source).significant)
    (hclean : (parseMethod ⟨front ++ back, source⟩).tree = some m ∧
      (parseMethod ⟨front ++ back, source⟩).diagnostics = [])
    (hblock : block ∈ m.body.blocks) (hdecls : [d₁, d₂] <:+: block.decls)
    (hfront : ∀ t ∈ front, t.kind ≠ .eof ∧ t.span.stop ≤ d₂.span.start)
    (hback : ∀ t ∈ back, d₁.span.stop ≤ t.span.start)
    (hbs : ∀ t ∈ bs, t.kind ≠ .eof ∧ t.kind.goesOn = true) (hsemicolon : semicolon.kind = .semicolon)
    (hbroken : BrokenDecl (Stream.mk (bs ++ [semicolon]) source).significant r) :
    (∃ m', (parseMethod ⟨front ++ (bs ++ semicolon :: back), source⟩).tree = some m' ∧
      (ProgramUnit.method m').plain = (ProgramUnit.method m).plain) ∧
    (parseMethod ⟨front ++ (bs ++ semicolon :: back), source⟩).diagnostics = [r.diagnostic] ∧
    r.diagnostic.code = .syntaxError ∧ ∃ t ∈ bs ++ [semicolon], r.diagnostic.span = t.span := by
  have hfrontEof : ∀ t ∈ front, t.kind ≠ .eof := fun t ht => (hfront t ht).1
  have hbsEof : ∀ t ∈ bs ++ [semicolon], t.kind ≠ .eof := by
    simpa [or_imp, forall_and, hsemicolon] using fun t ht => (hbs t ht).1
  obtain ⟨hspelled, hn⟩ := parseMethod_spelled hclean
  obtain ⟨p, z, heq, hbetween, hread⟩ := method_tolerates hspelled hn hblock hdecls
  rw [Stream.significant_append hfrontEof] at heq horder
  obtain ⟨rfl, rfl⟩ := hbetween.eq_of_standFrom (heq ▸ horder) heq.symm
    (fun t ht => by
      obtain ⟨u, hu, rfl⟩ := Stream.exists_of_mem_significant ht
      exact (hfront u hu).2)
    (fun t ht => by
      obtain ⟨u, hu, rfl⟩ := Stream.exists_of_mem_significant ht
      exact hback u hu)
  obtain ⟨hhead, hread⟩ := hread _ r hbroken (upToSemicolon_significant hbs hsemicolon)
  rw [← Stream.significant_append hbsEof, ← Stream.significant_append hfrontEof, List.append_assoc,
    List.singleton_append] at hhead hread
  obtain ⟨w, x, hx, hw⟩ := exists_of_headKind hhead (by decide)
  rw [hx] at hread
  have hroot := methodRoot_leaves hw hread
  rw [← hx] at hroot
  obtain ⟨htree, hreports⟩ := hroot.run
  obtain ⟨hcode, t, ht, hspan⟩ := hbroken.report_eq
  obtain ⟨u, hu, rfl⟩ := Stream.exists_of_mem_significant ht
  refine ⟨htree, ?_, hcode, u, hu, hspan⟩
  show Diagnostic.inSourceOrder (List.map _ (Parse.reports _)) = _
  rw [show (parseMethod _).reports = _ from hreports]
  rfl

end

/-- A declaration without its type between two others. -/
def typelessText : String := "METHOD m VAR_TEMP a : INT; b : := 5; c : BOOL; END_VAR END_METHOD"

/-- The tokens in front of that declaration. -/
def typelessFront : List Token := (lex typelessText).take 12

/-- The tokens of that declaration up to its `;`. -/
def typelessTokens : List Token := ((lex typelessText).take 20).drop 12

/-- The tokens behind its `;`. -/
def typelessBack : List Token := (lex typelessText).drop 21

/-- The two other declarations. -/
def soundDecls : List VarDecl :=
  [⟨⟨"a", ⟨18, 19⟩⟩, none, none, .elementary .int ⟨22, 25⟩, none, none, ⟨18, 26⟩⟩,
    ⟨⟨"c", ⟨37, 38⟩⟩, none, none, .elementary .bool ⟨41, 45⟩, none, none, ⟨37, 46⟩⟩]

/-- The method without that declaration. -/
def soundMethod : Method := ⟨⟨"m", ⟨7, 8⟩⟩, none, ⟨[⟨.temp, false, soundDecls, ⟨9, 54⟩⟩], []⟩, ⟨0, 65⟩⟩

theorem parseMethod_skips_broken_decl_type :
    (parseMethod ⟨typelessFront ++ typelessBack, typelessText.toList⟩).tree = some soundMethod ∧
    (parseMethod ⟨typelessFront ++ typelessBack, typelessText.toList⟩).diagnostics = [] ∧
    (∃ m', (parseMethod (.ofText typelessText)).tree = some m' ∧
      (ProgramUnit.method m').plain = (ProgramUnit.method soundMethod).plain) ∧
    (parseMethod (.ofText typelessText)).diagnostics =
      [⟨.syntaxError, .error, ⟨31, 33⟩, "expected type name, found ':='", some "type name"⟩] := by
  have htokens : lex typelessText = typelessFront ++ (typelessTokens ++ ⟨.semicolon, ⟨35, 36⟩⟩ :: typelessBack) := rfl
  have hclean : (parseMethod ⟨typelessFront ++ typelessBack, typelessText.toList⟩).tree = some soundMethod ∧
      (parseMethod ⟨typelessFront ++ typelessBack, typelessText.toList⟩).diagnostics = [] := ⟨rfl, rfl⟩
  have horder : StandFrom 0 (Stream.mk (typelessFront ++ typelessBack) typelessText.toList).significant := by
    have hstand : StandFrom 0 (Stream.ofText typelessText).significant := (Stream.inOrder_ofText typelessText).rest
    rw [Stream.ofText, htokens, ← List.singleton_append, ← List.append_assoc typelessTokens,
      Stream.significant_append (by decide), Stream.significant_append (by decide)] at hstand
    rw [Stream.significant_append (by decide)]
    exact hstand.cut
  have hbroken : BrokenDecl (Stream.mk (typelessTokens ++ [⟨.semicolon, ⟨35, 36⟩⟩]) typelessText.toList).significant
      ⟨.unexpected "type name" ":=", ⟨31, 33⟩⟩ :=
    .noType rfl rfl (by decide) (by decide) rfl (by decide)
  have hskips := parseMethod_skips_broken_decl horder hclean List.mem_cons_self (List.infix_refl soundDecls) (by decide)
    (by decide) (by decide) rfl hbroken
  rw [← htokens] at hskips
  exact ⟨hclean.1, hclean.2, hskips.1, hskips.2.1⟩

end StructuredText
