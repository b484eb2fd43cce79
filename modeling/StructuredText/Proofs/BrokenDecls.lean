import StructuredText.Proofs.Broken
import StructuredText.Proofs.Lacking.Unit

/-!
# Declarations that are none

A broken declaration begins with a token that is no name, or with a name without its `:`, or with a name and `:` without
a type (`BrokenDecl`). What stands behind does not matter: the rest is skipped with the `;`, and there is one report
(`varDeclTurn_leaves_broken`). So where a broken declaration stands between two declarations, both are read as they are
without it (`decls_tolerate`), and so are their block (`block_tolerates`) and the method around it (`method_tolerates`).
-/

namespace StructuredText

variable {v x y z : List Lexeme} {t : Lexeme} {r : Report}

/-! ## Broken declarations -/

/-- No declaration begins like this, whatever stands behind, and the report says why. -/
inductive BrokenDecl : List Lexeme → Report → Prop
  | noName {t : Lexeme} {x : List Lexeme} : t.kind ≠ .ident → BrokenDecl (t :: x) ⟨.missing "variable name", t.span⟩
  | noColon {n t : Lexeme} {x : List Lexeme} :
      n.kind = .ident → t.kind ≠ .colon → t.kind ≠ .kwAt → t.kind.followsTarget = false →
      BrokenDecl (n :: t :: x) ⟨.unexpected ":" t.text, t.span⟩
  | noType {n c t : Lexeme} {x : List Lexeme} :
      n.kind = .ident → c.kind = .colon → t.kind ≠ .kwArray → t.kind ≠ .kwRefTo → t.kind.elementaryType? = none →
      t.kind ≠ .ident → BrokenDecl (n :: c :: t :: x) ⟨.unexpected "type name" t.text, t.span⟩

/-- The report is a syntax error at one of the tokens. -/
theorem BrokenDecl.report_eq (h : BrokenDecl v r) : r.problem.code = .syntaxError ∧ ∃ t ∈ v, r.span = t.span := by
  cases h with
  | noName => exact ⟨rfl, _, List.mem_cons_self, rfl⟩
  | noColon => exact ⟨rfl, _, List.mem_cons_of_mem _ List.mem_cons_self, rfl⟩
  | noType => exact ⟨rfl, _, List.mem_cons_of_mem _ (List.mem_cons_of_mem _ List.mem_cons_self), rfl⟩

/-- A token of this kind ends neither a declaration nor its block. -/
def TokenKind.goesOn (k : TokenKind) : Bool := k != .semicolon && k != .kwEndVar && !k.endsBlock

theorem TokenKind.goesOn_iff {k : TokenKind} :
    k.goesOn = true ↔ k ≠ .semicolon ∧ k ≠ .kwEndVar ∧ k.endsBlock = false := by
  simp [goesOn, and_assoc]

/-- The tokens go on up to a `;`, which is the last of them. -/
def UpToSemicolon (v : List Lexeme) : Prop :=
  ∃ u e, v = u ++ [e] ∧ e.kind = .semicolon ∧ ∀ t ∈ u, t.kind.goesOn = true

namespace UpToSemicolon

theorem of_cons {n : Lexeme} (h : UpToSemicolon (n :: t :: x)) : UpToSemicolon (t :: x) := by
  obtain ⟨u, e, heq, he, hu⟩ := h
  cases u with
  | nil => cases heq
  | cons n' u =>
    obtain ⟨-, heq⟩ := List.cons.inj heq
    exact ⟨u, e, heq, he, fun t ht => hu t (List.mem_cons_of_mem n' ht)⟩

/-- None of the tokens ends a block. -/
theorem endsBlock (h : UpToSemicolon v) (ht : t ∈ v) : t.kind ≠ .kwEndVar ∧ t.kind.endsBlock = false := by
  obtain ⟨u, e, rfl, he, hu⟩ := h
  rcases List.mem_append.1 ht with ht | ht
  · exact (TokenKind.goesOn_iff.1 (hu t ht)).2
  · obtain rfl := List.mem_singleton.1 ht
    rw [he]
    exact ⟨by decide, rfl⟩

theorem length_lt (h : UpToSemicolon v) : z.length < (v ++ z).length := by
  obtain ⟨u, e, rfl, -, -⟩ := h
  simp only [List.length_append, List.length_singleton]
  omega

end UpToSemicolon

namespace Parser

variable {levels : Nat} {rs : List Report}

/-- The tokens are skipped with the `;`. -/
theorem skipDecl_complete (h : UpToSemicolon v) : Gives skipDecl (v ++ z) ⟨⟩ z := by
  obtain ⟨u, e, rfl, he, hu⟩ := h
  intro s hs
  rw [List.append_assoc] at hs
  refine ⟨_, ⟨skipTo_apply hs he fun t ht => ?_, rfl⟩, rfl⟩
  obtain ⟨hsemicolon, hend, hblock⟩ := TokenKind.goesOn_iff.1 (hu t ht)
  exact ⟨hsemicolon, by simp [hend, hblock]⟩

/-! ## Where a rule gives up -/

/-- In front of `x` the rule gives up in front of `y` with the report of a syntax error. -/
def Breaks (p : Parser α) (x : List Lexeme) (r : Report) (y : List Lexeme) : Prop :=
  ∀ s, s.rest = x → ∃ s', p s = .error .syntaxError s' ∧ s'.rest = y ∧ s'.reports = r :: s.reports

namespace Breaks

theorem fail {what : String} :
    Breaks (Parser.fail what : Parser α) (t :: x) ⟨.unexpected what t.text, t.span⟩ (t :: x) := by
  intro s hs
  refine ⟨_, fail_of_cons hs what, hs, ?_⟩
  rw [ParserState.report_reports, ParserState.span_of_cons hs, ParserState.text_of_cons hs]

theorem bind {p : Parser α} {q : α → Parser β} (h : Breaks p x r y) : Breaks (p >>= q) x r y := by
  intro s hs
  obtain ⟨s', h', hy⟩ := h s hs
  exact ⟨s', by rw [bind_apply, h'], hy⟩

/-- Behind a part that is read without a report. -/
theorem after {p : Parser α} {q : α → Parser β} {a : α} (h : Gives p x a y) (hq : Breaks (q a) y r z) :
    Breaks (p >>= q) x r z := by
  intro s hs
  obtain ⟨s₁, h₁, hy⟩ := h s hs
  obtain ⟨s', h', hz, hr⟩ := hq s₁ hy
  exact ⟨s', by rw [bind_of_ok h₁.1, h'], hz, by rw [hr, h₁.2]⟩

theorem offset {q : Nat → Parser β} (h : ∀ start, Breaks (q start) x r y) : Breaks (Parser.offset >>= q) x r y :=
  fun s hs => h _ s hs

theorem kind {q : TokenKind → Parser β} (h : Breaks (q (headKind x)) x r y) : Breaks (Parser.kind >>= q) x r y := by
  intro s hs
  rw [bind_of_ok (kind_apply s), s.kind_eq_headKind, hs]
  exact h s hs

theorem expect {k : TokenKind} (ht : t.kind ≠ k) :
    Breaks (Parser.expect k) (t :: x) ⟨.unexpected k.spelling t.text, t.span⟩ (t :: x) := by
  intro s hs
  rw [expect_apply, if_neg (by rwa [ParserState.kind_of_cons hs])]
  exact Breaks.fail s hs

/-- The rest is read where the rule gave up. -/
theorem orRecover {rule recover : Parser α} {P : α → Prop} (h : Breaks rule x r y) (h' : Leaves recover y P rs z) :
    Leaves (Parser.orRecover rule recover) x P (rs ++ [r]) z := by
  intro s hs
  obtain ⟨s₁, h₁, hy, hr⟩ := h s hs
  obtain ⟨a, s', h₂, ha, hz, hr'⟩ := h' s₁ hy
  refine ⟨a, s', by rw [orRecover_apply, h₁]; exact h₂, ha, hz, ?_⟩
  rw [hr', hr, List.append_assoc]
  rfl

end Breaks

/-! ## Reading a broken declaration -/

theorem varDecl_breaks_colon {n : Lexeme} (hn : n.kind = .ident) (hcolon : t.kind ≠ .colon) (hat : t.kind ≠ .kwAt) :
    Breaks (varDecl levels) (n :: t :: x) ⟨.unexpected ":" t.text, t.span⟩ (t :: x) := by
  have hlocation : Gives location? (t :: x) none (t :: x) := GivesFrom.gives (.eat_none hat .pure)
  exact .offset fun _ => .after (ident_complete hn) (.after hlocation (.bind (.expect hcolon)))

theorem typeRef_breaks (href : t.kind ≠ .kwRefTo) (htype : t.kind.elementaryType? = none) (hname : t.kind ≠ .ident) :
    Breaks (typeRef levels) (t :: x) ⟨.unexpected "type name" t.text, t.span⟩ (t :: x) := by
  obtain ⟨deeper, hlevels⟩ := exists_typeRefOf levels
  rw [hlevels]
  refine .kind ?_
  rw [headKind_cons]
  split
  · next hk =>
    rw [hk] at htype
    cases htype
  · next hk => exact absurd hk href
  · next hk => exact absurd hk hname
  · exact .fail

theorem varDecl_breaks_type {n c : Lexeme} (hn : n.kind = .ident) (hc : c.kind = .colon) (harray : t.kind ≠ .kwArray)
    (h : Breaks (typeRef levels) (t :: x) r y) : Breaks (varDecl levels) (n :: c :: t :: x) r y := by
  have hlocation : Gives location? (c :: t :: x) none (c :: t :: x) :=
    GivesFrom.gives (.eat_none (by rw [headKind_cons, hc]; decide) .pure)
  have hshape : Gives (arrayShape? levels) (t :: x) none (t :: x) := GivesFrom.gives (.eat_none harray .pure)
  refine .offset fun _ => .after (ident_complete hn) (.after hlocation (.after (Gives.expect hc) ?_))
  exact .after hshape (.bind h)

/-- In front of a name that begins no statement, a block goes on. -/
theorem varDeclTurn_recovers {n c : Lexeme} (hn : n.kind = .ident) (hc : c.kind.followsTarget = false)
    (h : Breaks (varDecl levels) (n :: c :: x) r (v ++ z)) (hv : UpToSemicolon v) :
    Leaves (varDeclTurn levels) (n :: c :: x) (· = .more []) [r] z := by
  refine .get fun s hs => ?_
  have hk₀ : s.kind = .ident := (ParserState.kind_of_cons hs).trans hn
  have hstart : s.atStatementStart = false := by
    rw [ParserState.atStatementStart, hk₀, ParserState.kindAt_one_of_cons hs, hc]
    rfl
  have hskip : Leaves (do skipDecl; return .more []) (v ++ z) (· = (.more [] : Turn VarDecl)) [] z :=
    .after (skipDecl_complete hv) (.pure rfl)
  rw [hs]
  simp only [hk₀, hstart, reduceCtorEq, Bool.false_eq_true, if_false, if_true]
  exact Breaks.orRecover h.bind hskip

/-- A broken declaration is skipped with one report. -/
theorem varDeclTurn_leaves_broken (h : BrokenDecl v r) (hv : UpToSemicolon v) :
    Leaves (varDeclTurn levels) (v ++ z) (· = .more []) [r] z := by
  cases h with
  | @noName t x ht =>
    obtain ⟨hend, hblock⟩ := hv.endsBlock (t := t) List.mem_cons_self
    refine .get fun s hs => ?_
    have hk : s.kind = t.kind := ParserState.kind_of_cons hs
    rw [List.cons_append] at hs
    rw [hs]
    simp only [hk, if_neg hend, if_neg ht, hblock]
    exact .before .missing fun _ _ => .after (skipDecl_complete hv) (.pure rfl)
  | noColon hn hcolon hat htarget =>
    exact varDeclTurn_recovers hn htarget (varDecl_breaks_colon hn hcolon hat) hv.of_cons
  | noType hn hc harray href htype hname =>
    refine varDeclTurn_recovers hn (by rw [hc]; rfl) (varDecl_breaks_type hn hc harray ?_) hv.of_cons.of_cons
    exact typeRef_breaks href htype hname

end Parser

/-! ## Between two declarations -/

/-- The tokens in front end with a part that has the span `before`, and the ones behind begin with a part that has the
span `behind`. -/
def Between (before behind : Span) (p z : List Lexeme) : Prop :=
  (∃ q, q ≠ [] ∧ q <:+ p ∧ spanOf q = before) ∧ ∃ q, q ≠ [] ∧ q <+: z ∧ spanOf q = behind

/-- The tokens are read with a broken declaration between the parts with these spans as well, with its report. Here
`read r x'` says that `x'` is read with the report `r`. -/
def Tolerates (before behind : Span) (read : Report → List Lexeme → Prop) (x : List Lexeme) : Prop :=
  ∃ p z, x = p ++ z ∧ Between before behind p z ∧
    ∀ v r, BrokenDecl v r → UpToSemicolon v → read r (p ++ (v ++ z))

/-- Tokens in front of the parts change nothing. -/
theorem Tolerates.append_left {before behind : Span} {read read₁ : Report → List Lexeme → Prop} (q : List Lexeme)
    (h : Tolerates before behind read x)
    (hread : ∀ r x', headKind x' = headKind x → x.length ≤ x'.length → read r x' → read₁ r (q ++ x')) :
    Tolerates before behind read₁ (q ++ x) := by
  obtain ⟨p, z, rfl, ⟨⟨f, hf, hp, hspan⟩, hz⟩, h⟩ := h
  refine ⟨q ++ p, z, (List.append_assoc q p z).symm, ⟨⟨f, hf, hp.trans (List.suffix_append q p), hspan⟩, hz⟩, ?_⟩
  intro v r hbroken hv
  rw [List.append_assoc]
  refine hread r _ ?_ ?_ (h v r hbroken hv)
  · obtain ⟨t, p, rfl⟩ := List.exists_cons_of_ne_nil (hp.ne_nil hf)
    rfl
  · simp only [List.length_append]
    omega

theorem DeclSpelled.exists_front {d : VarDecl} (h : DeclSpelled d x y) :
    ∃ q, x = q ++ y ∧ q ≠ [] ∧ spanOf q = d.span ∧ ∀ y', DeclSpelled d (q ++ y') y' := by
  obtain ⟨q, rfl, hq⟩ := Swapped.exists_front (R := DeclSpelled d) fun _ => h.swapped
  obtain ⟨e, -, -, hspan⟩ := h.exists_head
  refine ⟨q, rfl, ?_, ?_, hq⟩
  · rintro rfl
    exact Nat.lt_irrefl _ h.length_lt
  · rw [hspan, spanBetween_append]

namespace Parser

variable {levels : Nat} {pre post : List VarDecl} {d₁ d₂ : VarDecl} {e : Lexeme}

theorem varDeclTurn_reads {d : VarDecl} (h : DeclSpelled d x y) (hn : d.nesting ≤ levels) :
    ReadsOne (varDeclTurn levels) (fun d d' => d'.plain = d.plain) d [] x y :=
  (varDeclTurn_more h hn).leaves ⟨d, rfl, rfl⟩

/-- A broken declaration may stand behind the first one. -/
theorem firstDecl_tolerates (h₁ : DeclSpelled d₁ x z) (h₂ : Row DeclSpelled (d₂ :: post) z (e :: y))
    (he : e.kind = .kwEndVar) (hn : ∀ d ∈ d₁ :: d₂ :: post, d.nesting ≤ levels) :
    Tolerates d₁.span d₂.span (fun r x' => LoopLeaves (varDeclTurn levels) x'
      (List.Forall₂ (fun d d' => d'.plain = d.plain) (d₁ :: d₂ :: post)) [r] y) x := by
  obtain ⟨hn₁, hn₂⟩ := List.forall_mem_cons.1 hn
  have hbehind : LoopLeaves (varDeclTurn levels) z
      (List.Forall₂ (fun d d' => d'.plain = d.plain) (d₂ :: post)) [] y :=
    h₂.leaves DeclSpelled.length_lt (fun d hd _ _ h => varDeclTurn_reads h (hn₂ d hd)) (varDeclTurn_last ⟨e, rfl, he⟩)
  have hz : ∃ f, f ≠ [] ∧ f <+: z ∧ spanOf f = d₂.span := by
    cases h₂ with
    | cons h₂ _ =>
      obtain ⟨f, rfl, hf, hspan, -⟩ := h₂.exists_front
      exact ⟨f, hf, List.prefix_append f _, hspan⟩
  obtain ⟨f, rfl, hf, hspan, hfront⟩ := h₁.exists_front
  refine ⟨f, z, rfl, ⟨⟨f, hf, List.suffix_refl f, hspan⟩, hz⟩, fun v r hbroken hv => ?_⟩
  have hskip : LoopLeaves (varDeclTurn levels) (v ++ z)
      (List.Forall₂ (fun d d' => d'.plain = d.plain) (d₂ :: post)) [r] y := by
    refine .more (P := (· = [])) ((varDeclTurn_leaves_broken hbroken hv).mono ?_) hv.length_lt hbehind ?_
    · rintro _ rfl
      exact ⟨[], rfl, rfl⟩
    · rintro _ ds rfl hds
      exact hds
  exact (varDeclTurn_reads (hfront _) hn₁).more (hfront _).length_lt hskip

/-- A broken declaration may stand between any two. -/
theorem decls_tolerate (h : Row DeclSpelled (pre ++ d₁ :: d₂ :: post) x (e :: y)) (he : e.kind = .kwEndVar)
    (hn : ∀ d ∈ pre ++ d₁ :: d₂ :: post, d.nesting ≤ levels) :
    Tolerates d₁.span d₂.span (fun r x' => LoopLeaves (varDeclTurn levels) x'
      (List.Forall₂ (fun d d' => d'.plain = d.plain) (pre ++ d₁ :: d₂ :: post)) [r] y) x := by
  obtain ⟨hnpre, hn⟩ := List.forall_mem_append.1 hn
  obtain ⟨w, hpre, hrow⟩ := h.of_append
  obtain ⟨q, rfl, hfront⟩ := Swapped.exists_front (R := Row DeclSpelled pre) fun _ => decls_swapped hpre
  cases hrow with
  | cons h₁ h₂ =>
    refine (firstDecl_tolerates h₁ h₂ he hn).append_left q fun r x' _ _ hread => ?_
    refine (hfront x').leaves_before DeclSpelled.length_lt (fun d hd _ _ h => ?_) hread
    exact varDeclTurn_reads h (hnpre d hd)

/-- A block tolerates a broken declaration between two others. -/
theorem block_tolerates {unit : UnitKind} {b : VarBlock} (h : BlockSpelled unit b x y) (hn : b.nesting ≤ levels)
    (hdecls : [d₁, d₂] <:+: b.decls) :
    Tolerates d₁.span d₂.span (fun r x' => Leaves (varBlock levels unit) x' (·.plain = b.plain) [r] y) x := by
  cases h with
  | @mk kind isConstant decls w e x x₁ _ hw hunit hconstant hrow he =>
    obtain ⟨pre, post, hdecls⟩ := hdecls
    obtain rfl : decls = pre ++ d₁ :: d₂ :: post := by simpa using hdecls.symm
    obtain ⟨q, rfl, hfront⟩ := Swapped.exists_front (R := ConstantSpelled isConstant) fun _ => hconstant.swapped
    have htolerates := decls_tolerate hrow he (deepest_le_iff.1 hn)
    refine htolerates.append_left (w :: q) fun r x' hhead _ hread => ?_
    exact varBlock_leaves hw hunit (hfront x') (by rw [hhead]; exact hrow.headKind_ne he) hread

/-- The blocks in front of a body tolerate a broken declaration in one of them. -/
theorem blocks_tolerate {unit : UnitKind} {blocks : List VarBlock} {b : VarBlock}
    (h : Row (BlockSpelled unit) blocks x y) (hn : deepest VarBlock.nesting blocks ≤ levels)
    (hy : (headKind y).isVarKeyword = false) (hb : b ∈ blocks) (hdecls : [d₁, d₂] <:+: b.decls) :
    Tolerates d₁.span d₂.span
      (fun r x' => LoopLeaves (leadingBlockTurn levels unit) x' (List.Forall₂ IsBlock blocks) [r] y) x := by
  have hn := deepest_le_iff.1 hn
  obtain ⟨pre, post, rfl⟩ := List.append_of_mem hb
  obtain ⟨w, hpre, hrow⟩ := h.of_append
  obtain ⟨q, rfl, hfront⟩ := Swapped.exists_front (R := Row (BlockSpelled unit) pre) fun _ => blocks_swapped hpre
  cases hrow with
  | cons h₁ h₂ =>
    refine (block_tolerates h₁ (hn b hb) hdecls).append_left q fun r x' hhead hle hread => ?_
    have hbehind := leadingBlocks_leave h₂ (deepest_le_iff.2 fun b hb => hn b (by simp [hb])) hy
    have hone := leadingBlockTurn_leaves (by rw [hhead]; exact h₁.isVarKeyword) hread
    refine (hfront x').leaves_before BlockSpelled.length_lt (fun b hb _ _ h => ?_)
      (hone.more (Nat.lt_of_lt_of_le h₁.length_lt hle) hbehind)
    exact (leadingBlockTurn_more h (hn b (by simp [hb]))).leaves ⟨_, rfl, b, rfl, rfl⟩

/-- A method tolerates a broken declaration between two others. -/
theorem method_tolerates {m : Method} {b : VarBlock} (h : UnitSpelled (.method m) x y)
    (hn : (ProgramUnit.method m).nesting ≤ levels) (hb : b ∈ m.body.blocks) (hdecls : [d₁, d₂] <:+: b.decls) :
    Tolerates d₁.span d₂.span (fun r x' => headKind x' = .kwMethod ∧
      Leaves (method levels) x' (fun m' => (ProgramUnit.method m').plain = (ProgramUnit.method m).plain) [r] y) x := by
  cases h with
  | @method type body w n x x₁ _ hw hname htype hbody =>
    obtain ⟨hnt, hnb⟩ := Nat.max_le.1 hn
    obtain ⟨q, rfl, hfront⟩ := Swapped.exists_front (R := Optionally TypeSpelled .colon type)
      fun _ => htype.swapped fun h => h.swapped
    have hbegins := hbody.beginsBody
    cases hbody with
    | @mk blocks sts _ _ _ _ hblocks hsts hend =>
      obtain ⟨hn₁, hn₂⟩ := Nat.max_le.1 hnb
      have htolerates := blocks_tolerate hblocks hn₁ (hsts.beginsBody_of_end hend).1 hb hdecls
      refine htolerates.append_left (w :: n :: q) fun r x' hhead _ hread => ⟨hw, ?_⟩
      have hgives := returnType?_complete (hfront x') hnt (by rw [hhead]; exact hbegins)
      have hstatements := statements_complete hsts hn₂ (halts_of_end hend)
      refine (method_leaves hname hgives (body_leaves hread (hstatements.leaves rfl) hend)).mono fun m' hm => ?_
      rw [ProgramUnit.plain, ProgramUnit.plain, hm.1, hm.2.1, hm.2.2]

end Parser

end StructuredText
