import StructuredText.Proofs.LateBlocks
import StructuredText.Proofs.ParseSemicolons

/-!
# Methods with blocks behind statements

The parts of a body are known by what they are read as where they stand alone (`BodyPart.ReadAlone`). In whatever order
blocks and statements are put between the header of a method and its `END_METHOD`, the method has a tree with all of
them, and the blocks behind a statement are reported, each at its keyword (`parseMethod_keeps_parts`).

A word that closes a block statement takes the `;` behind it. So statements that end in such a word must not be put in
front of a part that begins with a `;`: what was a statement alone would be read as a piece of the block
(`parseMethod_joins_semicolon`).
-/

namespace StructuredText

open StructuredText.Parser

/-! ## Roots -/

namespace Parser

variable {levels : Nat} {x : List Lexeme} {rs : List Report}

theorem Gives.expectEndOfInput : Gives Parser.expectEndOfInput [] ⟨⟩ [] :=
  fun s hs => ⟨s, reads_expectEndOfInput.2 ⟨hs, rfl⟩, hs⟩

theorem methodRoot_leaves {w : Lexeme} {P : Method → Prop} (hw : w.kind = .kwMethod)
    (h : Leaves (method levels) (w :: x) P rs []) : Leaves (methodRoot levels) (w :: x) P rs [] := by
  refine .sees ?_
  rw [headKind_cons, hw, if_pos (by rfl)]
  exact .before h fun m hm => .after .expectEndOfInput (.pure hm)

end Parser

/-- The tokens of a method that is read without a diagnostic spell it. -/
theorem parseMethod_spelled {stream : Stream} {m : Method}
    (h : (parseMethod stream).tree = some m ∧ (parseMethod stream).diagnostics = []) :
    UnitSpelled (.method m) stream.significant [] ∧ (ProgramUnit.method m).nesting ≤ maxNesting := by
  obtain ⟨s', h⟩ := Parser.run_clean_iff.1 h
  exact Parser.methodRoot_spelled h

/-! ## Methods without parts -/

section

variable {x x₁ y z : List Lexeme}

theorem QualifiedName.no_end {name : Name} (h : QualifiedName name x y) :
    ∃ p, x = p ++ y ∧ ∀ t ∈ p, t.kind ≠ .kwEndMethod := by
  induction h with
  | @one t y ht => exact ⟨[t], rfl, by simp [ht]⟩
  | @more _ c t x y _ hc ht ih =>
    obtain ⟨p, rfl, hp⟩ := ih
    refine ⟨p ++ [c, t], by simp, ?_⟩
    simpa [or_imp, forall_and, hc, ht] using hp

theorem TypeSpelled.no_end {type : TypeRef} (h : TypeSpelled type x y) :
    ∃ p, x = p ++ y ∧ ∀ t ∈ p, t.kind ≠ .kwEndMethod := by
  induction h with
  | @elementary _ t y ht => exact ⟨[t], rfl, by simp [ht]⟩
  | named h => exact h.no_end
  | @reference _ w _ _ hw _ ih =>
    obtain ⟨p, rfl, hp⟩ := ih
    exact ⟨w :: p, rfl, List.forall_mem_cons.2 ⟨by simp [hw], hp⟩⟩

/-- What closes a block begins at the only token of its kind. -/
theorem BlockEnd.eq_of_append {k : TokenKind} {t : Lexeme} {a b c : List Lexeme} (h : BlockEnd k y [])
    (hk : k ≠ .semicolon) (ht : t.kind = k) (hc : ∀ u ∈ c, u.kind ≠ k) (heq : a ++ t :: b = c ++ y) :
    a = c ∧ t :: b = y := by
  rcases List.append_eq_append_iff.1 heq with ⟨d, rfl, hd⟩ | ⟨d, rfl, rfl⟩
  · cases d with
    | nil => exact ⟨(List.append_nil a).symm, hd⟩
    | cons u d =>
      obtain ⟨rfl, -⟩ := List.cons.inj hd
      exact absurd ht (hc t (by simp))
  · cases d with
    | nil => exact ⟨List.append_nil c, rfl⟩
    | cons u d =>
      generalize hy : u :: d ++ t :: b = y at h
      cases h with
      | plain => simp at hy
      | @semicolon u' v _ _ hv =>
        have hlast : d ++ t :: b = [v] := (List.cons.inj hy).2
        obtain rfl : t = v := by simpa using congrArg (t ∈ ·) hlast
        exact absurd (ht.symm.trans hv) hk

/-- What stands in front of the body of a method. -/
def HeaderSpelled (type : Option TypeRef) (p : List Lexeme) : Prop :=
  ∀ z, Optionally TypeSpelled .colon type (p ++ z) z

theorem Optionally.header {type : Option TypeRef} (h : Optionally TypeSpelled .colon type x y) :
    ∃ p, x = p ++ y ∧ HeaderSpelled type p ∧ ∀ t ∈ p, t.kind ≠ .kwEndMethod := by
  obtain ⟨p, rfl, hp⟩ : ∃ p, x = p ++ y ∧ ∀ t ∈ p, t.kind ≠ .kwEndMethod := by
    cases h with
    | none => exact ⟨[], rfl, by simp⟩
    | @some _ w _ _ hw h =>
      obtain ⟨p, rfl, hp⟩ := h.no_end
      exact ⟨w :: p, rfl, List.forall_mem_cons.2 ⟨by simp [hw], hp⟩⟩
  obtain ⟨q, hq, hheader⟩ := Swapped.exists_front (R := Optionally TypeSpelled .colon type)
    fun _ => h.swapped fun h => h.swapped
  obtain rfl := List.append_cancel_right hq
  exact ⟨p, rfl, hheader, hp⟩

end

/-! ## Parts alone -/

/-- The part is what its tokens are read as where they stand alone and without a diagnostic: a block as all of the body
of a method, and statements, of which there are some, on their own. No `eof` is among the tokens. -/
def BodyPart.ReadAlone (source : List Char) (part : BodyPart) (ts : List Token) : Prop :=
  (∀ t ∈ ts, t.kind ≠ .eof) ∧
    match part with
    | .block b => ∃ (w n e : Token) (m : Method), w.kind = .kwMethod ∧ n.kind = .ident ∧ e.kind = .kwEndMethod ∧
        ((parseMethod ⟨w :: n :: (ts ++ [e]), source⟩).tree = some m ∧
          (parseMethod ⟨w :: n :: (ts ++ [e]), source⟩).diagnostics = []) ∧
        m.returnType = none ∧ m.body = ⟨[b], []⟩
    | .statements sts => sts ≠ [] ∧ ∃ span, (parseStatements ⟨ts, source⟩).tree = some ⟨sts, span⟩ ∧
        (parseStatements ⟨ts, source⟩).diagnostics = []

section

variable {source : List Char} {ts us front rest : List Token} {stop : Token} {b : VarBlock} {sts : List Stmt}
  {y z : List Lexeme}

theorem BodyPart.ReadAlone.block (h : (BodyPart.block b).ReadAlone source ts) :
    (∀ y, BlockSpelled .method b ((Stream.mk ts source).significant ++ y) y) ∧ b.nesting ≤ maxNesting := by
  obtain ⟨hts, w, n, e, m, hw, hn, he, hclean, htype, hbody⟩ := h
  obtain ⟨hspelled, hnest⟩ := parseMethod_spelled hclean
  have hsig : (Stream.mk (w :: n :: (ts ++ [e])) source).significant =
      w.lexeme source :: n.lexeme source :: ((Stream.mk ts source).significant ++ [e.lexeme source]) := by
    rw [Stream.significant_cons_of (by simp [hw, TokenKind.isTrivia]),
      Stream.significant_cons_of (by simp [hn, TokenKind.isTrivia]),
      Stream.significant_append_cons hts (by simp [he, TokenKind.isTrivia])]
    rfl
  obtain ⟨name, type, body, span⟩ := m
  obtain rfl : type = none := htype
  obtain rfl : body = ⟨[b], []⟩ := hbody
  have hnest : max 0 (max (max b.nesting 0) 0) ≤ maxNesting := hnest
  rw [hsig] at hspelled
  refine ⟨fun y => ?_, by omega⟩
  cases hspelled with
  | method _ _ htype hbody =>
    cases htype
    cases hbody with
    | mk hblocks hsts hend =>
      cases hblocks with
      | cons hb hnil =>
        cases hnil
        cases hsts
        obtain ⟨p, hp, hfront⟩ := Swapped.exists_front (R := BlockSpelled .method b) fun _ => hb.swapped
        cases hend with
        | plain _ _ =>
          rw [(List.append_inj' hp rfl).1]
          exact hfront y
        | @semicolon t u _ _ hu =>
          -- The word at the end is no `;`.
          rw [List.append_cons p] at hp
          obtain rfl : e.lexeme source = u := List.singleton_inj.1 (List.append_inj' hp rfl).2
          exact absurd (he.symm.trans hu) (by decide)

theorem BodyPart.ReadAlone.statements (h : (BodyPart.statements sts).ReadAlone source ts) :
    sts ≠ [] ∧ SpellsStatements (Stream.mk ts source).significant sts ∧ Stmt.nestingAll sts ≤ maxNesting := by
  obtain ⟨-, hne, span, hclean⟩ := h
  obtain ⟨hsts, hn, -⟩ := (parseStatements_clean_iff _ _).1.1 hclean
  exact ⟨hne, hsts, hn⟩

theorem BodyPart.ReadAlone.nesting_le {part : BodyPart} (h : part.ReadAlone source ts) :
    part.nesting ≤ maxNesting := by
  cases part with
  | block b => exact h.block.2
  | statements sts => exact h.statements.2.2

theorem BodyPart.ReadAlone.ne_nil {part : BodyPart} (h : part.ReadAlone source ts) :
    (Stream.mk ts source).significant ≠ [] := by
  intro hnil
  cases part with
  | block b =>
    have hlt := (h.block.1 []).length_lt
    rw [hnil] at hlt
    exact Nat.lt_irrefl _ hlt
  | statements sts =>
    obtain ⟨hne, hsts, -⟩ := h.statements
    rw [hnil] at hsts
    cases hsts with
    | noStmts => exact hne rfl
    | moreStmts h _ => exact Nat.not_lt_zero _ (h.length_lt rfl)

end

/-! ## Methods with parts -/

/-- The spans of the keywords of the blocks that follow some statement, among parts and their tokens. -/
def lateKeywords : (late : Bool) → List (BodyPart × List Token) → List Span
  | _, [] => []
  | false, (.block _, _) :: parts => lateKeywords false parts
  | true, (.block _, ts) :: parts =>
    ((ts.find? (·.kind.isVarKeyword)).map Token.span).toList ++ lateKeywords true parts
  | _, (.statements _, _) :: parts => lateKeywords true parts

/-- Where statements end without a `;`, with a word that closes a block, the part behind them does not begin with one,
which the block would take. -/
def Apart (source : List Char) (p q : BodyPart × List Token) : Prop :=
  p.1.stmts ≠ [] → headKind (Stream.mk q.2 source).significant = .semicolon →
    (Stream.mk p.2 source).significant.getLast?.map Lexeme.kind = some .semicolon

/-- A method with an empty body, up to its last word, and what stands behind this word. It is read without a
diagnostic. -/
structure Method.Shell (source : List Char) (front : List Token) (stop : Token) (rest : List Token) (m : Method) :
    Prop where
  no_eof : ∀ t ∈ front, t.kind ≠ .eof
  stop_kind : stop.kind = .kwEndMethod
  read : (parseMethod ⟨front ++ stop :: rest, source⟩).tree = some m ∧
    (parseMethod ⟨front ++ stop :: rest, source⟩).diagnostics = []
  empty : m.body = ⟨[], []⟩

/-- The tree of the method has all the blocks and all the statements of the parts, in their order, and its diagnostics
are one error at the keyword of each block that follows some statement. -/
structure Method.KeepsParts (shell : Method) (parts : List (BodyPart × List Token)) (p : Parse Method) : Prop where
  tree : ∃ span, p.tree =
    some ⟨shell.name, shell.returnType, ⟨parts.flatMap (·.1.blocks), parts.flatMap (·.1.stmts)⟩, span⟩
  diagnostics : p.diagnostics = Diagnostic.inSourceOrder ((lateKeywords false parts).map fun span =>
    ⟨.syntaxError, .error, span, "declaration blocks must come before the first statement", none⟩)

section

variable {source : List Char} {ts us front rest : List Token} {stop : Token} {parts : List (BodyPart × List Token)}
  {w : Lexeme} {x y z : List Lexeme} {shell : Method}

/-- The keyword of a block is the first of its tokens that is looked at. -/
theorem find?_keyword (hts : ∀ t ∈ ts, t.kind ≠ .eof) (hx : (Stream.mk ts source).significant = w :: x)
    (hw : w.kind.isVarKeyword = true) : (ts.find? (·.kind.isVarKeyword)).map Token.span = some w.span := by
  induction ts with
  | nil => cases hx
  | cons t ts ih =>
    obtain ⟨ht, hts⟩ := List.forall_mem_cons.1 hts
    rw [Stream.significant_cons, if_neg ht] at hx
    by_cases htrivia : t.kind.isTrivia = true
    · rw [if_pos htrivia] at hx
      have hnot : ¬t.kind.isVarKeyword = true := by
        revert htrivia
        generalize t.kind = k
        cases k <;> simp [TokenKind.isTrivia, TokenKind.isVarKeyword]
      rw [List.find?_cons_of_neg (by simpa using hnot), ih hts hx]
    · rw [if_neg htrivia] at hx
      cases hx
      have ht : t.kind.isVarKeyword = true := hw
      rw [List.find?_cons_of_pos (by simpa using ht)]
      rfl

theorem terminated_of_getLast? (h : x.getLast?.map Lexeme.kind = some .semicolon) : Terminated x [] := by
  rintro p t rfl
  rw [List.getLast?_concat] at h
  exact Option.some.inj h

/-- Parts that are read alone are parts of a body in front of its end. -/
theorem partsSpelled_of_alone {late : Bool} (hparts : ∀ p ∈ parts, p.1.ReadAlone source p.2)
    (hapart : parts.IsChain (Apart source)) (hend : BlockEnd .kwEndMethod (Stream.mk us source).significant z) :
    PartsSpelled .method late (parts.map Prod.fst) (lateKeywords late parts)
      (Stream.mk (parts.flatMap Prod.snd ++ us) source).significant (Stream.mk us source).significant := by
  induction parts generalizing late with
  | nil =>
    rw [lateKeywords]
    exact .nil
  | cons p parts ih =>
    obtain ⟨part, ts⟩ := p
    obtain ⟨hpart, hrest⟩ := List.forall_mem_cons.1 hparts
    rw [List.flatMap_cons, List.append_assoc, Stream.significant_append hpart.1]
    cases part with
    | block b =>
      obtain ⟨hb, -⟩ := BodyPart.ReadAlone.block hpart
      cases late with
      | false => exact .leadingBlock (hb _) (ih hrest hapart.of_cons)
      | true =>
        have hvar := (hb []).isVarKeyword
        rw [List.append_nil] at hvar
        obtain ⟨w, x, hx⟩ := List.exists_cons_of_ne_nil (BodyPart.ReadAlone.ne_nil hpart)
        rw [hx] at hvar hb
        rw [lateKeywords, find?_keyword hpart.1 hx hvar, hx]
        exact .lateBlock (hb _) (ih hrest hapart.of_cons)
    | statements sts =>
      obtain ⟨hne, hsts, -⟩ := BodyPart.ReadAlone.statements hpart
      have hnext (hsemi : headKind (Stream.mk (parts.flatMap Prod.snd ++ us) source).significant = .semicolon) :
          Terminated (Stream.mk ts source).significant [] := by
        cases parts with
        | nil =>
          rw [List.flatMap_nil, List.nil_append, hend.headKind_eq] at hsemi
          cases hsemi
        | cons q parts =>
          have hq := hrest q List.mem_cons_self
          obtain ⟨t, x, hx⟩ := List.exists_cons_of_ne_nil hq.ne_nil
          rw [List.flatMap_cons, List.append_assoc, Stream.significant_append hq.1, hx] at hsemi
          exact terminated_of_getLast? ((List.isChain_cons_cons.1 hapart).1 hne (hx ▸ hsemi))
      rw [lateKeywords]
      exact .statements hne (StmtPhrase.Spelled.append hsts hnext) (ih hrest hapart.of_cons)

/-- A method with an empty body is its header and its end. -/
theorem Method.Shell.spelled (h : shell.Shell source front stop rest) :
    ∃ w n p, (Stream.mk front source).significant = w :: n :: p ∧ w.kind = .kwMethod ∧ n.kind = .ident ∧
      n.name = shell.name ∧ HeaderSpelled shell.returnType p ∧
      depthOf TypeRef.nesting shell.returnType ≤ maxNesting ∧
      BlockEnd .kwEndMethod (Stream.mk (stop :: rest) source).significant [] := by
  obtain ⟨hfront, hstop, hshell, hempty⟩ := h
  obtain ⟨hspelled, hn⟩ := parseMethod_spelled hshell
  have hlooked : stop.kind ≠ .eof ∧ stop.kind.isTrivia = false := by simp [hstop, TokenKind.isTrivia]
  rw [Stream.significant_append_cons hfront hlooked] at hspelled
  obtain ⟨name, type, body, span⟩ := shell
  obtain rfl : body = ⟨[], []⟩ := hempty
  generalize hsig : (Stream.mk front source).significant ++
    stop.lexeme source :: (Stream.mk rest source).significant = x at hspelled
  cases hspelled with
  | @method _ _ w n x x₁ _ hw hname htype hbody =>
    obtain ⟨p, rfl, hheader, hp⟩ := htype.header
    cases hbody with
    | mk hblocks hsts hend =>
      cases hblocks
      cases hsts
      obtain ⟨hcut, rfl⟩ : (Stream.mk front source).significant = w :: n :: p ∧
          stop.lexeme source :: (Stream.mk rest source).significant = x₁ := by
        rw [← List.cons_append, ← List.cons_append] at hsig
        refine hend.eq_of_append (by decide) hstop ?_ hsig
        simpa [hw, hname, UnitKind.endKeyword] using hp
      rw [Stream.significant_cons_of hlooked]
      exact ⟨w, n, p, hcut, hw, hname, rfl, hheader, (Nat.max_le.1 hn).1, hend⟩

/-- Blocks and statements in any order make up the body of a method. Let each part be given with the tokens that it is
read from alone, and put the tokens in front of the `END_METHOD` of a method with an empty body. Then the method has a
tree with all the blocks and all the statements, each in this order and as it is read alone, and its diagnostics are one
error at the keyword of each block that follows some statement. Only a `;` at the beginning of a part must not stand
behind statements that end in a word that closes a block. -/
theorem parseMethod_keeps_parts (hshell : shell.Shell source front stop rest)
    (hparts : ∀ p ∈ parts, p.1.ReadAlone source p.2) (hapart : parts.IsChain (Apart source)) :
    shell.KeepsParts parts (parseMethod ⟨front ++ (parts.flatMap Prod.snd ++ stop :: rest), source⟩) := by
  obtain ⟨w, n, p, hsig, hw, hn, hname, hheader, hnt, hend⟩ := hshell.spelled
  have hspelled : PartsSpelled .method false (parts.map Prod.fst) (lateKeywords false parts)
      (Stream.mk (parts.flatMap Prod.snd ++ stop :: rest) source).significant
      (Stream.mk (stop :: rest) source).significant := partsSpelled_of_alone hparts hapart hend
  have hnest : ∀ part ∈ parts.map Prod.fst, part.nesting ≤ maxNesting := by
    intro part hpart
    obtain ⟨p, hp, rfl⟩ := List.mem_map.1 hpart
    exact (hparts p hp).nesting_le
  have hread := methodRoot_leaves hw (method_leaves_parts (w := w) hn (hheader _) hnt hspelled hnest hend)
  rw [← List.cons_append, ← List.cons_append, ← hsig, ← Stream.significant_append hshell.no_eof] at hread
  obtain ⟨⟨m, htree, hmname, hmtype, hmbody⟩, hreports⟩ := hread.run
  constructor
  · obtain ⟨name, type, body, span⟩ := m
    obtain rfl : name = n.name := hmname
    obtain rfl : type = shell.returnType := hmtype
    obtain rfl : body = .ofParts (parts.map Prod.fst) := hmbody
    refine ⟨span, htree.trans ?_⟩
    rw [hname, Body.ofParts_eq, List.flatMap_map, List.flatMap_map]
  · show Diagnostic.inSourceOrder (List.map _ (Parse.reports _)) = _
    rw [show (parseMethod _).reports = _ from hreports, lateReports, List.reverse_reverse, List.map_map]
    rfl

end

/-- A method with a block in front of two statements and one behind them. -/
def lateBlockText : String := "METHOD m VAR_TEMP a : INT; END_VAR f;;VAR_TEMP b : INT; END_VAR END_METHOD"

/-- The block in front of the statements. -/
def leadingBlock : VarBlock :=
  ⟨.temp, false, [⟨⟨"a", ⟨18, 19⟩⟩, none, none, .elementary .int ⟨22, 25⟩, none, none, ⟨18, 26⟩⟩], ⟨9, 34⟩⟩

/-- The first of the statements. -/
def middleCall : Stmt := .call (.name ⟨"f", ⟨35, 36⟩⟩) ⟨35, 37⟩

/-- The block behind the statements. -/
def trailingBlock : VarBlock :=
  ⟨.temp, false, [⟨⟨"b", ⟨47, 48⟩⟩, none, none, .elementary .int ⟨51, 54⟩, none, none, ⟨47, 55⟩⟩], ⟨38, 63⟩⟩

/-- The parts of the body and their tokens. The statements are given one by one. -/
def mixedParts : List (BodyPart × List Token) :=
  [(.block leadingBlock, ((lex lateBlockText).take 15).drop 4),
    (.statements [middleCall], ((lex lateBlockText).take 17).drop 15),
    (.statements [.nop ⟨37, 38⟩], ((lex lateBlockText).take 18).drop 17),
    (.block trailingBlock, ((lex lateBlockText).take 29).drop 18)]

/-- The method without its parts. -/
def mixedShell : Method := ⟨⟨"m", ⟨7, 8⟩⟩, none, ⟨[], []⟩, ⟨0, 74⟩⟩

theorem parseMethod_keeps_parts_mixed :
    mixedShell.Shell lateBlockText.toList ((lex lateBlockText).take 4) ⟨.kwEndMethod, ⟨64, 74⟩⟩ [] ∧
    (∀ p ∈ mixedParts, p.1.ReadAlone lateBlockText.toList p.2) ∧ mixedParts.IsChain (Apart lateBlockText.toList) ∧
    mixedShell.KeepsParts mixedParts (parseMethod (.ofText lateBlockText)) := by
  have hshell : mixedShell.Shell lateBlockText.toList ((lex lateBlockText).take 4) ⟨.kwEndMethod, ⟨64, 74⟩⟩ [] :=
    ⟨by decide, rfl, ⟨rfl, rfl⟩, rfl⟩
  have hparts : ∀ p ∈ mixedParts, p.1.ReadAlone lateBlockText.toList p.2 := by
    have hblock {b : VarBlock} {ts : List Token} (hts : ∀ t ∈ ts, t.kind ≠ .eof)
        (h : (parseMethod ⟨⟨.kwMethod, ⟨0, 6⟩⟩ :: ⟨.ident, ⟨7, 8⟩⟩ :: (ts ++ [⟨.kwEndMethod, ⟨64, 74⟩⟩]),
          lateBlockText.toList⟩) = ⟨some ⟨⟨"m", ⟨7, 8⟩⟩, none, ⟨[b], []⟩, ⟨0, 74⟩⟩, []⟩) :
        (BodyPart.block b).ReadAlone lateBlockText.toList ts := by
      refine ⟨hts, _, _, _, _, rfl, rfl, rfl, ⟨congrArg Parse.tree h, ?_⟩, rfl, rfl⟩
      rw [h]
      rfl
    simp only [mixedParts, List.forall_mem_cons]
    exact ⟨hblock (by decide) rfl, ⟨by decide, by decide, ⟨35, 37⟩, rfl, rfl⟩,
      ⟨by decide, by decide, ⟨37, 38⟩, rfl, rfl⟩, hblock (by decide) rfl, nofun⟩
  have hapart : mixedParts.IsChain (Apart lateBlockText.toList) := by
    refine .cons_cons nofun (.cons_cons (fun _ _ => ?_) (.cons_cons (fun _ hsemi => ?_) (.singleton _)))
    · rfl
    · cases hsemi
  exact ⟨hshell, hparts, hapart, parseMethod_keeps_parts hshell hparts hapart⟩

/-- A method with an `IF` and a `;` behind it. -/
def joinedText : String := "METHOD m IF x THEN END_IF ; END_METHOD"

/-- The `IF` and the `;`, each of them a statement where it stands alone. -/
def joinedParts : List (BodyPart × List Token) :=
  [(.statements [.ifThen (.name ⟨"x", ⟨12, 13⟩⟩) [] [] none ⟨9, 25⟩], ((lex joinedText).take 12).drop 4),
    (.statements [.nop ⟨26, 27⟩], ((lex joinedText).take 13).drop 12)]

/-- The method without its parts. -/
def joinedShell : Method := ⟨⟨"m", ⟨7, 8⟩⟩, none, ⟨[], []⟩, ⟨0, 38⟩⟩

/-- A `;` alone is a statement, and behind the word that closes a block statement it belongs to the block. -/
theorem parseMethod_joins_semicolon :
    joinedShell.Shell joinedText.toList ((lex joinedText).take 4) ⟨.kwEndMethod, ⟨28, 38⟩⟩ [] ∧
    (∀ p ∈ joinedParts, p.1.ReadAlone joinedText.toList p.2) ∧
    parseMethod (.ofText joinedText) = ⟨some ⟨⟨"m", ⟨7, 8⟩⟩, none,
      ⟨[], [.ifThen (.name ⟨"x", ⟨12, 13⟩⟩) [] [] none ⟨9, 27⟩]⟩, ⟨0, 38⟩⟩, []⟩ ∧
    ¬joinedShell.KeepsParts joinedParts (parseMethod ⟨(lex joinedText).take 4 ++
      (joinedParts.flatMap Prod.snd ++ [⟨.kwEndMethod, ⟨28, 38⟩⟩]), joinedText.toList⟩) := by
  have hparts : ∀ p ∈ joinedParts, p.1.ReadAlone joinedText.toList p.2 := by
    simp only [joinedParts, List.forall_mem_cons]
    exact ⟨⟨by decide, by decide, ⟨9, 25⟩, rfl, rfl⟩, ⟨by decide, by decide, ⟨26, 27⟩, rfl, rfl⟩, nofun⟩
  refine ⟨⟨by decide, rfl, ⟨rfl, rfl⟩, rfl⟩, hparts, rfl, fun h => ?_⟩
  obtain ⟨span, htree⟩ := h.tree
  have hstmts := congrArg (fun m : Option Method => m.map (·.body.statements.length)) htree
  cases hstmts

end StructuredText
