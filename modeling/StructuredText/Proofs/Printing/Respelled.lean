import StructuredText.Proofs.Printing.Printed

/-!
# Expressions in source form

The source form of a phrase that is spelled in a text is a spelling of the same phrase, but for its spans: one lemma for
each construct of the grammar says how its parts are put together (`ExprPhrase.IsPrinted`), and the whole follows by
induction on the spelling (`ExprPhrase.Spelled.isPrinted`). What stands in source form between two parts begins with a
delimiter, so that `Expr.apart` is all that has to be known of what ends in front of it.
-/

namespace StructuredText

namespace ExprPhrase

/-- The phrase in source form. -/
def render : ExprPhrase → List Char
  | expr _ e | unary e | access e | primary e => e.render.toList
  | exprs es => (", ".intercalate (Expr.renderAll es)).toList
  | arg a => a.render.toList
  | args as => (", ".intercalate (Arg.renderAll as)).toList

/-- In source form, no token goes on with the point that stands behind it; `b` stands behind the phrase. -/
def apart : ExprPhrase → (b : Behind) → Bool
  | expr _ e, b | unary e, b | access e, b | primary e, b => e.apart b
  | exprs es, b => Expr.apartAll es && b = .other
  | arg a, b => a.apart && b = .other
  | args as, b => Arg.apartAll as && b = .other

/-- The phrase is spelled, but for its spans. -/
def Respelled : ExprPhrase → List Lexeme → List Lexeme → Prop
  | expr level e, x, y => ∃ e', e'.plain = e.plain ∧ (expr level e').Spelled x y
  | unary e, x, y => ∃ e', e'.plain = e.plain ∧ (unary e').Spelled x y
  | access e, x, y => ∃ e', e'.plain = e.plain ∧ (access e').Spelled x y
  | primary e, x, y => ∃ e', e'.plain = e.plain ∧ (primary e').Spelled x y
  | exprs es, x, y => ∃ es', Expr.plainAll es' = Expr.plainAll es ∧ (exprs es').Spelled x y
  | arg a, x, y => ∃ a', a'.plain = a.plain ∧ (arg a').Spelled x y
  | args as, x, y => ∃ as', Arg.plainAll as' = Arg.plainAll as ∧ (args as').Spelled x y

/-- The phrase is printed in its source form. -/
def IsPrinted (φ : ExprPhrase) : Prop := ∃ ps, Printed φ.render φ.apart ps φ.Respelled

end ExprPhrase

/-! ## Brackets -/

/-- The tokens `k` and `k'` are brackets with the spellings `c` and `c'`. -/
structure Brackets (k k' : TokenKind) (c c' : Char) : Prop where
  opens : ∀ {f}, startsWith isExprStart f = true → Scanned k [c] f
  closes : ∀ {f}, Scanned k' [c'] f
  delimits : c' ∈ delimiters ∧ c' ≠ '.'
  symbols : (k.isTrivia = false ∧ k ≠ .intLiteral) ∧ k'.isTrivia = false ∧ k' ≠ .intLiteral ∧ k' ≠ .colon

theorem parentheses : Brackets .lParen .rParen '(' ')' where
  opens hf := .lParen (startsWith_beq hf rfl)
  closes := .alone rfl rfl (by decide)
  delimits := by decide
  symbols := by decide

theorem squareBrackets : Brackets .lBracket .rBracket '[' ']' where
  opens _ := .alone rfl rfl (by decide)
  closes := .alone rfl rfl (by decide)
  delimits := by decide
  symbols := by decide

namespace Printed

variable {l : List Char} {ok : Behind → Bool} {ps : List Piece} {R : List Lexeme → List Lexeme → Prop}
  {k k' : TokenKind} {c c' : Char}

theorem cut_bracketed (h : Printed l ok ps R) (hb : Brackets k k' c c') (hok : ok .other = true) (f : List Char) :
    Cut ([c] ++ (l ++ [c'])) (⟨k, [c]⟩ :: (ps ++ [⟨k', [c']⟩])) f := by
  refine .cons (hb.opens ?_) (fun hk => absurd hk hb.symbols.1.2) (Cut.append (h.cut ?_ ?_) (hb.closes.cut ?_))
  · rw [List.append_assoc]
    exact startsWith_append h.starts _
  · exact .of_head hb.delimits.1 hb.delimits.2
  · rwa [List.singleton_append, behind_of_ne hb.delimits.2]
  · exact fun hk => absurd hk hb.symbols.2.2.1

theorem spelled_bracketed (h : Printed l ok ps R) (hb : Brackets k k' c c') (o : Nat) (y : List Lexeme) :
    ∃ s s' x, placed o (⟨k, [c]⟩ :: (ps ++ [⟨k', [c']⟩])) ++ y = ⟨k, s, String.ofList [c]⟩ :: x ∧
      R x (⟨k', s', String.ofList [c']⟩ :: y) := by
  rw [placed_cons hb.symbols.1.1, placed_append, placed_cons hb.symbols.2.1, List.cons_append, List.append_assoc]
  exact ⟨_, _, _, rfl, h.spelled _ hb.symbols.2.2.2⟩

end Printed

/-! ## Numbers of parts -/

theorem toList_digits (n : Name) : (Selector.ofToken n).digits.toList = n.text.toList.filter (· != '_') := by
  simp [Selector.ofToken, withoutSeparators]

theorem Scanned.startsWith_digits {n : Lexeme} {f : List Char} (h : Scanned .intLiteral n.text.toList f) :
    startsWith Char.isDigit (Selector.ofToken n.name).digits.toList = true := by
  rw [toList_digits]
  simpa [Lexeme.name] using startsWith_filter (fun c hc => bne_iff_ne.2 hc) (f := []) rfl (h.startsWith_isDigit rfl)

/-- The number of a part is read the same way without its separators. -/
theorem Scanned.digits {n : Lexeme} {f g : List Char} (h : Scanned .intLiteral n.text.toList f) (hg : Delimits g)
    (hend : (Selector.ofToken n.name).ending.allows (behind g) = true) :
    Scanned .intLiteral (Selector.ofToken n.name).digits.toList g := by
  rw [Selector.ending, toList_digits] at hend
  rw [toList_digits]
  exact h.number rfl (fun c hc => bne_iff_ne.2 hc) hg fun _ => ne_fraction_of_numberEnding hend

theorem plain_ofToken_digits (n : Name) (s : Span) :
    (Selector.ofToken ⟨(Selector.ofToken n).digits, s⟩).plain = (Selector.ofToken n).plain := by
  simp [Selector.ofToken, Selector.plain, withoutSeparators_withoutSeparators]

/-! ## Suffixes -/

/-- The token of an access width. -/
theorem Scanned.access (width : AccessWidth) (f : List Char) : Scanned (.access width) ['%', width.letter] f :=
  .two (by cases width <;> rfl) rfl (by decide)

namespace ExprPhrase.IsPrinted

variable {e i : Expr} {es : List Expr} {as : List Arg} {a : Arg} {n p : Lexeme} {f : List Char} {s : Span}
  {width : AccessWidth}

theorem member (h : (access e).IsPrinted) (hn : Scanned .ident n.text.toList f) :
    (access (.member e n.name s)).IsPrinted := by
  obtain ⟨ps, hps⟩ := h
  have hstart := hn.startsWith_isWordStart rfl
  have htext : (access (.member e n.name s)).render = e.render.toList ++ (['.'] ++ n.text.toList) := by
    simp [ExprPhrase.render, Expr.render, Lexeme.name]
  refine ⟨ps ++ [⟨.dot, ['.']⟩, ⟨.ident, n.text.toList⟩], ?_⟩
  rw [htext]
  refine hps.append (fun {f} hf hb => ?_) (fun _ _ h => by cases h) fun _ hx => ?_
  · replace hb := Bool.and_eq_true_iff.1 hb
    have hpoint := startsWith_beq (c := '.') (startsWith_append hstart f) rfl
    refine ⟨.point hpoint, ?_, .cons (.dot hpoint) (by simp) ((hn.name [] hf hb.2).cut (by simp))⟩
    have hbehind : behind (['.'] ++ n.text.toList ++ f) = .point :=
      behind_eq_point_iff.2 ⟨_, rfl, startsWith_isDigit (startsWith_append hstart f)⟩
    rw [hbehind]
    exact hb.1
  · obtain ⟨e', he, hspelled⟩ := hx
    refine ⟨_, ?_, .member hspelled rfl rfl⟩
    simp [Expr.plain, he, Lexeme.name, Name.plain]

theorem part (h : (access e).IsPrinted) (hn : Scanned .intLiteral n.text.toList f) :
    (access (.part e none (.ofToken n.name) s)).IsPrinted := by
  obtain ⟨ps, hps⟩ := h
  have hstart := hn.startsWith_digits
  have htext : (access (.part e none (.ofToken n.name) s)).render =
      e.render.toList ++ (['.'] ++ (Selector.ofToken n.name).digits.toList) := by
    simp [ExprPhrase.render, Expr.render]
  refine ⟨ps ++ [⟨.dot, ['.']⟩, ⟨.intLiteral, (Selector.ofToken n.name).digits.toList⟩], ?_⟩
  rw [htext]
  refine hps.append (fun {f} hf hb => ?_) (fun _ _ => nofun) fun _ hx => ?_
  · replace hb := Bool.and_eq_true_iff.1 hb
    have hpoint := startsWith_beq (c := '.') (startsWith_append hstart f) rfl
    refine ⟨.point hpoint, ?_, .cons (.dot hpoint) nofun ((hn.digits hf hb.2).cut fun _ => hf.notThree)⟩
    have hbehind : behind (['.'] ++ (Selector.ofToken n.name).digits.toList ++ f) = .fraction :=
      behind_eq_fraction_iff.2 ⟨_, rfl, startsWith_append hstart f⟩
    rw [hbehind]
    exact hb.1
  · obtain ⟨e', he, hspelled⟩ := hx
    refine ⟨_, ?_, .part hspelled rfl rfl⟩
    simp [Expr.plain, he, Lexeme.name, plain_ofToken_digits]

theorem widePart (h : (access e).IsPrinted) (hn : Scanned .intLiteral n.text.toList f) :
    (access (.part e (some width) (.ofToken n.name) s)).IsPrinted := by
  obtain ⟨ps, hps⟩ := h
  have htext : (access (.part e (some width) (.ofToken n.name) s)).render =
      e.render.toList ++ (['.'] ++ (['%', width.letter] ++ (Selector.ofToken n.name).digits.toList)) := by
    simp [ExprPhrase.render, Expr.render, AccessWidth.spelling]
  refine ⟨ps ++ [⟨.dot, ['.']⟩, ⟨.access width, ['%', width.letter]⟩,
    ⟨.intLiteral, (Selector.ofToken n.name).digits.toList⟩], ?_⟩
  rw [htext]
  refine hps.append (fun {f} hf hb => ?_) (fun _ _ => nofun) fun _ hx => ?_
  · replace hb := Bool.and_eq_true_iff.1 hb
    refine ⟨.point rfl, hb.1, .cons (.dot rfl) nofun (.cons (.access width _) nofun ?_)⟩
    exact (hn.digits hf hb.2).cut fun _ => hf.notThree
  · obtain ⟨e', he, hspelled⟩ := hx
    refine ⟨_, ?_, .widePart hspelled rfl rfl rfl⟩
    simp [Expr.plain, he, Lexeme.name, plain_ofToken_digits]

theorem partAt (h : (access e).IsPrinted) (hi : (expr 0 i).IsPrinted) : (access (.partAt e width i s)).IsPrinted := by
  obtain ⟨ps, hps⟩ := h
  obtain ⟨qs, hqs⟩ := hi
  have htext : (access (.partAt e width i s)).render =
      e.render.toList ++ (['.'] ++ (['%', width.letter] ++ (['('] ++ (i.render.toList ++ [')'])))) := by
    simp [ExprPhrase.render, Expr.render, AccessWidth.spelling]
  refine ⟨ps ++ ([⟨.dot, ['.']⟩, ⟨.access width, ['%', width.letter]⟩] ++
    ⟨.lParen, ['(']⟩ :: (qs ++ [⟨.rParen, [')']⟩])), ?_⟩
  rw [htext]
  refine hps.append (fun {f} hf hb => ?_) (fun _ _ => nofun) fun {o x y} _ hx => ?_
  · replace hb := Bool.and_eq_true_iff.1 hb
    exact ⟨.point rfl, hb.1, .cons (.dot rfl) nofun (.cons (.access width _) nofun
      (hqs.cut_bracketed parentheses hb.2 f))⟩
  · rw [placed_append, List.append_assoc] at hx
    obtain ⟨s, s', z, heq, i', hi, hspelled⟩ := hqs.spelled_bracketed parentheses _ y
    rw [heq] at hx
    obtain ⟨e', he, hspelled'⟩ := hx
    refine ⟨_, ?_, .partAt hspelled' rfl rfl rfl hspelled rfl⟩
    rw [Expr.plain, Expr.plain, he, hi]

theorem index (h : (access e).IsPrinted) (hes : (exprs es).IsPrinted) : (access (.index e es s)).IsPrinted := by
  obtain ⟨ps, hps⟩ := h
  obtain ⟨qs, hqs⟩ := hes
  have htext : (access (.index e es s)).render = e.render.toList ++ (['['] ++ ((exprs es).render ++ [']'])) := by
    simp [ExprPhrase.render, Expr.render]
  refine ⟨ps ++ (⟨.lBracket, ['[']⟩ :: (qs ++ [⟨.rBracket, [']']⟩])), ?_⟩
  rw [htext]
  refine hps.append (fun {f} hf hb => ?_) (fun _ _ => nofun) fun {o x y} _ hx => ?_
  · replace hb := Bool.and_eq_true_iff.1 hb
    refine ⟨.of_head (by decide) (by decide), hb.1, hqs.cut_bracketed squareBrackets ?_ f⟩
    simp [apart, hb.2]
  · obtain ⟨s, s', z, heq, es', hes, hspelled⟩ := hqs.spelled_bracketed squareBrackets o y
    rw [heq] at hx
    obtain ⟨e', he, hspelled'⟩ := hx
    refine ⟨_, ?_, .index hspelled' rfl hspelled rfl⟩
    rw [Expr.plain, Expr.plain, he, hes]

theorem callEmpty (h : (access e).IsPrinted) (he : e.isCallable = true) : (access (.call e [] s)).IsPrinted := by
  obtain ⟨ps, hps⟩ := h
  have htext : (access (.call e [] s)).render = e.render.toList ++ (['('] ++ [')']) := by
    simp [ExprPhrase.render, Expr.render, Arg.renderAll]
  refine ⟨ps ++ [⟨.lParen, ['(']⟩, ⟨.rParen, [')']⟩], ?_⟩
  rw [htext]
  refine hps.append (fun {f} hf hb => ?_) (fun _ _ => nofun) fun _ hx => ?_
  · replace hb := Bool.and_eq_true_iff.1 hb
    exact ⟨.of_head (by decide) (by decide), hb.1, .cons (.lParen rfl) nofun (parentheses.closes.cut nofun)⟩
  · obtain ⟨e', he', hspelled⟩ := hx
    refine ⟨_, ?_, .callEmpty hspelled ?_ rfl rfl⟩
    · rw [Expr.plain, Expr.plain, he']
    · rwa [Expr.isCallable_eq_of_plain he']

theorem call (h : (access e).IsPrinted) (he : e.isCallable = true) (has : (args as).IsPrinted) :
    (access (.call e as s)).IsPrinted := by
  obtain ⟨ps, hps⟩ := h
  obtain ⟨qs, hqs⟩ := has
  have htext : (access (.call e as s)).render = e.render.toList ++ (['('] ++ ((args as).render ++ [')'])) := by
    simp [ExprPhrase.render, Expr.render]
  refine ⟨ps ++ (⟨.lParen, ['(']⟩ :: (qs ++ [⟨.rParen, [')']⟩])), ?_⟩
  rw [htext]
  refine hps.append (fun {f} hf hb => ?_) (fun _ _ => nofun) fun {o x y} _ hx => ?_
  · replace hb := Bool.and_eq_true_iff.1 hb
    refine ⟨.of_head (by decide) (by decide), hb.1, hqs.cut_bracketed parentheses ?_ f⟩
    simp [apart, hb.2]
  · obtain ⟨s, s', z, heq, as', has, hspelled⟩ := hqs.spelled_bracketed parentheses o y
    rw [heq] at hx
    obtain ⟨e', he', hspelled'⟩ := hx
    refine ⟨_, ?_, .call hspelled' ?_ rfl hspelled rfl⟩
    · rw [Expr.plain, Expr.plain, he', has]
    · rwa [Expr.isCallable_eq_of_plain he']

end ExprPhrase.IsPrinted

/-! ## Operators -/

/-- A binary operator with blanks around it is one token. -/
theorem BinaryOp.exists_scanned {op : BinaryOp} (hop : op ≠ .range) :
    ∃ k, ofToken? k = some op ∧ ∀ f, Scanned k op.spelling.toList (' ' :: f) := by
  have hblank {f : List Char} : Delimits (' ' :: f) := .of_head (by decide) (by decide)
  cases op with
  | range => exact absurd rfl hop
  | or => exact ⟨.kwOr, rfl, fun f => .reserved (by decide) hblank⟩
  | xor => exact ⟨.kwXor, rfl, fun f => .reserved (by decide) hblank⟩
  | and => exact ⟨.kwAnd, rfl, fun f => .reserved (by decide) hblank⟩
  | mod => exact ⟨.kwMod, rfl, fun f => .reserved (by decide) hblank⟩
  | neq => exact ⟨.neq, rfl, fun f => .two rfl rfl (by decide)⟩
  | ltEq => exact ⟨.ltEq, rfl, fun f => .two rfl rfl (by decide)⟩
  | gtEq => exact ⟨.gtEq, rfl, fun f => .two rfl rfl (by decide)⟩
  | power => exact ⟨.power, rfl, fun f => .two rfl rfl (by decide)⟩
  | eq => exact ⟨.eq, rfl, fun f => .one rfl rfl nofun nofun fun d hd => by cases hd; rfl⟩
  | lt => exact ⟨.lt, rfl, fun f => .one rfl rfl nofun nofun fun d hd => by cases hd; rfl⟩
  | gt => exact ⟨.gt, rfl, fun f => .one rfl rfl nofun nofun fun d hd => by cases hd; rfl⟩
  | add => exact ⟨.plus, rfl, fun f => .alone rfl rfl (by decide)⟩
  | sub => exact ⟨.minus, rfl, fun f => .alone rfl rfl (by decide)⟩
  | mul => exact ⟨.star, rfl, fun f => .one rfl rfl nofun nofun fun d hd => by cases hd; rfl⟩
  | div => exact ⟨.slash, rfl, fun f => .one rfl rfl (fun _ => rfl) nofun fun d hd => by cases hd; rfl⟩

theorem BinaryOp.kind_of_ofToken? {k : TokenKind} {op : BinaryOp} (h : ofToken? k = some op) :
    k.isTrivia = false ∧ k ≠ .intLiteral ∧ k ≠ .colon := by
  cases k <;> simp [ofToken?] at h <;> decide

/-- `NOT` and a blank. -/
theorem cut_not {f : List Char} (hf : startsWith isExprStart f = true) :
    Cut "NOT ".toList [⟨.kwNot, "NOT".toList⟩, ⟨.whitespace, [' ']⟩] f := by
  have hnot {f : List Char} : Scanned .kwNot "NOT".toList (' ' :: f) :=
    .reserved (by decide) (.of_head (by decide) (by decide))
  exact Cut.cons (b := [' ']) hnot nofun ((Scanned.blank (startsWith_isBlank hf)).cut nofun)

/-- The token of a unary operator, with the blank behind a word. -/
theorem UnaryOp.exists_pieces (op : UnaryOp) :
    ∃ qs k, ofToken? k = some op ∧ startsWith isExprStart op.renderFront.toList = true ∧
      (∀ {f}, startsWith isExprStart f = true → Cut op.renderFront.toList qs f) ∧
      ∀ o, ∃ s t, placed o qs = [⟨k, s, t⟩] := by
  cases op with
  | neg =>
    exact ⟨[⟨.minus, ['-']⟩], .minus, rfl, rfl, fun _ => (Scanned.alone rfl rfl (by decide)).cut nofun,
      fun _ => ⟨_, _, rfl⟩⟩
  | plus =>
    exact ⟨[⟨.plus, ['+']⟩], .plus, rfl, rfl, fun _ => (Scanned.alone rfl rfl (by decide)).cut nofun,
      fun _ => ⟨_, _, rfl⟩⟩
  | not =>
    exact ⟨[⟨.kwNot, "NOT".toList⟩, ⟨.whitespace, [' ']⟩], .kwNot, rfl, rfl, cut_not, fun _ => ⟨_, _, rfl⟩⟩

namespace ExprPhrase.IsPrinted

variable {e l r : Expr} {es : List Expr} {as : List Arg} {a : Arg} {n p : Lexeme} {f : List Char} {s : Span}
  {level : Nat}

theorem range (hlevel : level ≤ BinaryOp.range.tier.level) (hl : (expr BinaryOp.range.tier.level l).IsPrinted)
    (hr : (expr (BinaryOp.range.tier.level + 1) r).IsPrinted) :
    (expr level (.binary .range l r (l.span.cover r.span))).IsPrinted := by
  obtain ⟨ps, hps⟩ := hl
  obtain ⟨qs, hqs⟩ := hr
  have htext : (expr level (.binary .range l r (l.span.cover r.span))).render =
      l.render.toList ++ (['.', '.'] ++ r.render.toList) := by
    simp [ExprPhrase.render, Expr.render, BinaryOp.renderInfix, BinaryOp.spelling]
  refine ⟨ps ++ ([⟨.dotDot, ['.', '.']⟩] ++ qs), ?_⟩
  rw [htext]
  refine hps.between hqs (fun {f b} hb hf => ?_) (fun _ _ => nofun) ?_
  · simp only [apart, Expr.apart, Bool.and_eq_true, if_true] at hb
    exact ⟨.points (startsWith_beq hf rfl), hb.1, hb.2, (Scanned.two (k := .dotDot) rfl rfl (by decide)).cut nofun⟩
  · rintro o x y z ⟨l', hl, hsl⟩ ⟨r', hr, hsr⟩
    refine ⟨_, ?_, .binary hlevel rfl hsl hsr⟩
    rw [Expr.plain, Expr.plain, hl, hr]

theorem operator {op : BinaryOp} (hop : op ≠ .range) (hlevel : level ≤ op.tier.level)
    (hl : (expr op.tier.level l).IsPrinted) (hr : (expr (op.tier.level + 1) r).IsPrinted) :
    (expr level (.binary op l r (l.span.cover r.span))).IsPrinted := by
  obtain ⟨ps, hps⟩ := hl
  obtain ⟨qs, hqs⟩ := hr
  obtain ⟨k, hk, hscanned⟩ := BinaryOp.exists_scanned hop
  obtain ⟨htrivia, hint, hcolon⟩ := BinaryOp.kind_of_ofToken? hk
  have htext : (expr level (.binary op l r (l.span.cover r.span))).render =
      l.render.toList ++ (([' '] ++ (op.spelling.toList ++ [' '])) ++ r.render.toList) := by
    simp [ExprPhrase.render, Expr.render, BinaryOp.renderInfix, hop]
  have hplaced (o : Nat) : placed o [⟨.whitespace, [' ']⟩, ⟨k, op.spelling.toList⟩, ⟨.whitespace, [' ']⟩] =
      [⟨k, ⟨o + 1, o + 1 + Text.byteLength op.spelling.toList⟩, op.spelling⟩] := by
    show placed (o + 1) (⟨k, op.spelling.toList⟩ :: [⟨.whitespace, [' ']⟩]) = _
    rw [placed_cons htrivia, String.ofList_toList]
    rfl
  refine ⟨ps ++ ([⟨.whitespace, [' ']⟩, ⟨k, op.spelling.toList⟩, ⟨.whitespace, [' ']⟩] ++ qs), ?_⟩
  rw [htext]
  refine hps.between hqs (fun {f b} hb hf => ?_) (fun _ _ => ?_) ?_
  · simp only [apart, Expr.apart, Bool.and_eq_true, if_neg hop] at hb
    refine ⟨.of_head (by decide) (by decide), hb.1, hb.2, .cons (.blank ?_) nofun ?_⟩
    · cases op <;> rfl
    · exact .cons (hscanned _) (fun h => absurd h hint) ((Scanned.blank (startsWith_isBlank hf)).cut nofun)
  · rw [hplaced]
    exact hcolon
  · rintro o x y z ⟨l', hl, hsl⟩ ⟨r', hr, hsr⟩
    rw [hplaced] at hsl
    refine ⟨_, ?_, .binary hlevel hk hsl hsr⟩
    rw [Expr.plain, Expr.plain, hl, hr]

theorem binary {op : BinaryOp} (hlevel : level ≤ op.tier.level) (hl : (expr op.tier.level l).IsPrinted)
    (hr : (expr (op.tier.level + 1) r).IsPrinted) :
    (expr level (.binary op l r (l.span.cover r.span))).IsPrinted := by
  by_cases hop : op = .range
  · subst hop
    exact .range hlevel hl hr
  · exact .operator hop hlevel hl hr

theorem unary {op : UnaryOp} (h : (unary e).IsPrinted) : (ExprPhrase.unary (.unary op e s)).IsPrinted := by
  obtain ⟨ps, hps⟩ := h
  obtain ⟨qs, k, hk, hstart, hcut, hplaced⟩ := op.exists_pieces
  have htext : (ExprPhrase.unary (.unary op e s)).render = op.renderFront.toList ++ e.render.toList := by
    simp [ExprPhrase.render, Expr.render]
  refine ⟨qs ++ ps, ?_⟩
  rw [htext]
  refine hps.prepend hstart (fun hb hf => ⟨hb, hcut hf⟩) ?_
  rintro o x y ⟨e', he, hspelled⟩
  obtain ⟨s, t, hqs⟩ := hplaced o
  rw [hqs]
  refine ⟨_, ?_, .unary hk hspelled⟩
  rw [Expr.plain, Expr.plain, he]

/-! ## Primaries -/

theorem name {name : Name} {x y : List Lexeme} (h : QualifiedName name x y) (hx : Lexed x) :
    (primary (.name name)).IsPrinted := by
  obtain ⟨⟨ps, hps⟩, -⟩ := h.printed hx
  refine ⟨ps, hps.imp id ?_⟩
  rintro x y ⟨n, hn, hname⟩
  refine ⟨.name n, ?_, .name hname⟩
  simp [Expr.plain, Name.plain, hn]

theorem enumerated {g : List Char} (hp : Scanned .typedLiteralPrefix p.text.toList f)
    (htype : LiteralType.ofName? (withoutHash p.text) = none) (hn : Scanned .ident n.text.toList g) :
    (primary (.name ⟨p.text ++ n.text, s⟩)).IsPrinted := by
  have hvalue : Printed n.text.toList (nameEnding (p.text.toList ++ n.text.toList)).allows
      [⟨.ident, n.text.toList⟩] fun x y => ∃ s, x = ⟨.ident, s, n.text⟩ :: y := by
    refine ⟨?_, fun hf hend => (hn.name _ hf hend).cut nofun, fun o y _ => ?_⟩
    · exact startsWith_mono (hn.startsWith_isWordStart rfl) fun _ => isExprStart_of_isWordStart
    · rw [placed_cons rfl, String.ofList_toList]
      exact ⟨_, rfl⟩
  have htext : (primary (.name ⟨p.text ++ n.text, s⟩)).render = p.text.toList ++ n.text.toList := by
    simp [ExprPhrase.render, Expr.render]
  refine ⟨⟨.typedLiteralPrefix, p.text.toList⟩ :: [⟨.ident, n.text.toList⟩], ?_⟩
  rw [htext]
  refine (hvalue.behindType hp (by simp [htype]) ?_).imp (fun hb => ?_) fun hx => hx
  · rintro s x y ⟨s', rfl⟩
    refine ⟨_, ?_, Spelled.enumerated (p := ⟨.typedLiteralPrefix, s, p.text⟩) (n := ⟨.ident, s', n.text⟩) rfl htype rfl⟩
    rfl
  · simpa [apart, Expr.apart, Name.ending] using hb

theorem this : (primary (.this s)).IsPrinted := by
  have htext : (primary (.this s)).render = "THIS".toList := by simp [ExprPhrase.render, Expr.render]
  refine ⟨[⟨.kwThis, "THIS".toList⟩], ?_⟩
  rw [htext]
  refine ⟨rfl, fun hf _ => ?_, fun o y _ => ⟨.this _, ?_, .this rfl⟩⟩
  · exact (Scanned.reserved (k := .kwThis) (by decide) hf).cut nofun
  · rfl

theorem super : (primary (.super s)).IsPrinted := by
  have htext : (primary (.super s)).render = "SUPER".toList := by simp [ExprPhrase.render, Expr.render]
  refine ⟨[⟨.kwSuper, "SUPER".toList⟩], ?_⟩
  rw [htext]
  refine ⟨rfl, fun hf _ => ?_, fun o y _ => ⟨.super _, ?_, .super rfl⟩⟩
  · exact (Scanned.reserved (k := .kwSuper) (by decide) hf).cut nofun
  · rfl

theorem paren (h : (expr 0 e).IsPrinted) : (primary (.paren e s)).IsPrinted := by
  obtain ⟨ps, hps⟩ := h
  have htext : (primary (.paren e s)).render = ['('] ++ (e.render.toList ++ [')']) := by
    simp [ExprPhrase.render, Expr.render]
  refine ⟨⟨.lParen, ['(']⟩ :: (ps ++ [⟨.rParen, [')']⟩]), ?_⟩
  rw [htext]
  refine ⟨rfl, fun {f} _ hb => hps.cut_bracketed parentheses hb f, fun o y _ => ?_⟩
  obtain ⟨s, s', z, heq, e', he, hspelled⟩ := hps.spelled_bracketed parentheses o y
  rw [heq]
  refine ⟨_, ?_, .paren rfl hspelled rfl⟩
  rw [Expr.plain, Expr.plain, he]

theorem literal {l : Literal} {x y : List Lexeme} (h : LiteralSpelled l x y) (hx : Lexed x) :
    (primary (.literal l)).IsPrinted := by
  obtain ⟨ps, hps⟩ := h.printed hx
  refine ⟨ps, hps.imp id ?_⟩
  rintro x y ⟨l', hl, hspelled⟩
  refine ⟨.literal l', ?_, .literal hspelled⟩
  rw [Expr.plain, Expr.plain, hl]

/-! ## Lists -/

theorem lastExpr (h : (expr 0 e).IsPrinted) : (exprs [e]).IsPrinted := by
  obtain ⟨ps, hps⟩ := h
  have htext : (exprs [e]).render = e.render.toList := by simp [ExprPhrase.render, Expr.renderAll]
  refine ⟨ps, ?_⟩
  rw [htext]
  refine hps.imp (fun {b} hb => ?_) ?_
  · simp only [apart, Expr.apartAll, Bool.and_eq_true, decide_eq_true_eq] at hb
    rw [hb.2]
    exact hb.1.1
  · rintro x y ⟨e', he, hspelled⟩
    refine ⟨_, ?_, .lastExpr hspelled⟩
    rw [Expr.plainAll, Expr.plainAll, he]
    rfl

/-- A comma and a blank. -/
theorem cut_comma {f : List Char} (hf : startsWith isExprStart f = true) :
    Cut [',', ' '] [⟨.comma, [',']⟩, ⟨.whitespace, [' ']⟩] f :=
  Cut.cons (l := [',']) (b := [' ']) (.alone rfl rfl (by decide)) nofun
    ((Scanned.blank (startsWith_isBlank hf)).cut nofun)

theorem moreExprs (h : (expr 0 e).IsPrinted) (hne : es ≠ []) (hes : (exprs es).IsPrinted) :
    (exprs (e :: es)).IsPrinted := by
  obtain ⟨ps, hps⟩ := h
  obtain ⟨qs, hqs⟩ := hes
  have htext : (exprs (e :: es)).render = e.render.toList ++ ([',', ' '] ++ (exprs es).render) := by
    obtain ⟨e', es, rfl⟩ := List.exists_cons_of_ne_nil hne
    simp [ExprPhrase.render, Expr.renderAll, String.intercalate_cons_cons]
  refine ⟨ps ++ ([⟨.comma, [',']⟩, ⟨.whitespace, [' ']⟩] ++ qs), ?_⟩
  rw [htext]
  refine hps.between hqs (fun {f b} hb hf => ?_) (fun _ _ => nofun) ?_
  · simp only [apart, Expr.apartAll, Bool.and_eq_true] at hb
    refine ⟨.of_head (by decide) (by decide), hb.1.1, ?_, cut_comma hf⟩
    simp only [apart, Bool.and_eq_true]
    exact ⟨hb.1.2, hb.2⟩
  · rintro o x y z ⟨e', he, hspelled⟩ ⟨es', hes, hspelled'⟩
    refine ⟨_, ?_, .moreExprs hspelled rfl hspelled'⟩
    rw [Expr.plainAll, Expr.plainAll, he, hes]

theorem lastArg (h : (arg a).IsPrinted) : (args [a]).IsPrinted := by
  obtain ⟨ps, hps⟩ := h
  have htext : (args [a]).render = (arg a).render := by simp [ExprPhrase.render, Arg.renderAll]
  refine ⟨ps, ?_⟩
  rw [htext]
  refine hps.imp (fun {b} hb => ?_) ?_
  · simp only [apart, Arg.apartAll, Bool.and_eq_true] at hb ⊢
    exact ⟨hb.1.1, hb.2⟩
  · rintro x y ⟨a', ha, hspelled⟩
    refine ⟨_, ?_, .lastArg hspelled⟩
    rw [Arg.plainAll, Arg.plainAll, ha]
    rfl

theorem moreArgs (h : (arg a).IsPrinted) (hne : as ≠ []) (has : (args as).IsPrinted) :
    (args (a :: as)).IsPrinted := by
  obtain ⟨ps, hps⟩ := h
  obtain ⟨qs, hqs⟩ := has
  have htext : (args (a :: as)).render = (arg a).render ++ ([',', ' '] ++ (args as).render) := by
    obtain ⟨a', as, rfl⟩ := List.exists_cons_of_ne_nil hne
    simp [ExprPhrase.render, Arg.renderAll, String.intercalate_cons_cons]
  refine ⟨ps ++ ([⟨.comma, [',']⟩, ⟨.whitespace, [' ']⟩] ++ qs), ?_⟩
  rw [htext]
  refine hps.between hqs (fun {f b} hb hf => ?_) (fun _ _ => nofun) ?_
  · simp only [apart, Arg.apartAll, Bool.and_eq_true] at hb
    refine ⟨.of_head (by decide) (by decide), ?_, ?_, cut_comma hf⟩
    · simp only [apart, Bool.and_eq_true]
      exact ⟨hb.1.1, rfl⟩
    · simp only [apart, Bool.and_eq_true]
      exact ⟨hb.1.2, hb.2⟩
  · rintro o x y z ⟨a', ha, hspelled⟩ ⟨as', has, hspelled'⟩
    refine ⟨_, ?_, .moreArgs hspelled rfl hspelled'⟩
    rw [Arg.plainAll, Arg.plainAll, ha, has]

end ExprPhrase.IsPrinted

/-! ## Arguments -/

/-- Behind a name and a `:=` or `=>` with blanks around it. -/
theorem Printed.behindParam {l : List Char} {ok ok' : Behind → Bool} {ps : List Piece}
    {R R' : List Lexeme → List Lexeme → Prop} (h : Printed l ok ps R) {p : Lexeme} {f : List Char}
    (hp : Scanned .ident p.text.toList f) {k : TokenKind} (hk : k = .assign ∨ k = .arrow)
    (hok : ∀ {b}, ok' b = true → p.name.ending.allows .other = true ∧ ok b = true)
    (hR : ∀ {s s' x y}, R x y → R' (⟨.ident, s, p.text⟩ :: ⟨k, s', k.spelling⟩ :: x) y) :
    Printed ((p.text.toList ++ ([' '] ++ (k.spelling.toList ++ [' ']))) ++ l) ok'
      ([⟨.ident, p.text.toList⟩, ⟨.whitespace, [' ']⟩, ⟨k, k.spelling.toList⟩, ⟨.whitespace, [' ']⟩] ++ ps) R' := by
  have hsymbol (f : List Char) : Scanned k k.spelling.toList f := by
    rcases hk with rfl | rfl
    · exact .two rfl rfl (by decide)
    · exact .two rfl rfl (by decide)
  refine h.prepend ?_ (fun {f b} hb hf => ⟨(hok hb).2, ?_⟩) fun hx => ?_
  · exact startsWith_append (startsWith_mono (hp.startsWith_isWordStart rfl) fun _ => isExprStart_of_isWordStart) _
  · refine .cons (hp.name [] (.of_head (by decide) (by decide)) (hok hb).1) nofun (.cons (.blank ?_) nofun ?_)
    · rcases hk with rfl | rfl <;> rfl
    · refine .cons (hsymbol _) ?_ ((Scanned.blank (startsWith_isBlank hf)).cut nofun)
      rcases hk with rfl | rfl <;> exact nofun
  · rcases hk with rfl | rfl
    · rw [placed_cons rfl, String.ofList_toList]
      exact hR hx
    · rw [placed_cons rfl, String.ofList_toList]
      exact hR hx

namespace ExprPhrase.IsPrinted

variable {e : Expr} {p : Lexeme} {f : List Char} {s : Span}

theorem positional (h : (expr 0 e).IsPrinted) : (arg (.positional e)).IsPrinted := by
  obtain ⟨ps, hps⟩ := h
  have htext : (arg (.positional e)).render = e.render.toList := by simp [ExprPhrase.render, Arg.render]
  refine ⟨ps, ?_⟩
  rw [htext]
  refine hps.imp (fun {b} hb => ?_) ?_
  · simp only [apart, Arg.apart, Bool.and_eq_true, decide_eq_true_eq] at hb
    rw [hb.2]
    exact hb.1
  · rintro x y ⟨e', he, hspelled⟩
    refine ⟨_, ?_, .positional hspelled⟩
    rw [Arg.plain, Arg.plain, he]

theorem input (hp : Scanned .ident p.text.toList f) (h : (expr 0 e).IsPrinted) :
    (arg (.input p.name e s)).IsPrinted := by
  obtain ⟨ps, hps⟩ := h
  have htext : (arg (.input p.name e s)).render =
      (p.text.toList ++ ([' '] ++ (TokenKind.assign.spelling.toList ++ [' ']))) ++ e.render.toList := by
    simp [ExprPhrase.render, Arg.render, Lexeme.name, show TokenKind.assign.spelling = ":=" from rfl]
  rw [IsPrinted, htext]
  refine ⟨_, hps.behindParam hp (.inl rfl) (fun {b} hb => ?_) ?_⟩
  · simp only [apart, Arg.apart, Bool.and_eq_true, decide_eq_true_eq] at hb
    rw [hb.2]
    exact hb.1
  · rintro s s' x y ⟨e', he, hspelled⟩
    refine ⟨_, ?_, Spelled.input (p := ⟨.ident, s, p.text⟩) rfl rfl hspelled⟩
    rw [Arg.plain, Arg.plain, he]
    rfl

theorem output (hp : Scanned .ident p.text.toList f) (h : (expr 0 e).IsPrinted) :
    (arg (.output p.name false e s)).IsPrinted := by
  obtain ⟨ps, hps⟩ := h
  have htext : (arg (.output p.name false e s)).render =
      (p.text.toList ++ ([' '] ++ (TokenKind.arrow.spelling.toList ++ [' ']))) ++ e.render.toList := by
    simp [ExprPhrase.render, Arg.render, Lexeme.name, show TokenKind.arrow.spelling = "=>" from rfl]
  rw [IsPrinted, htext]
  refine ⟨_, hps.behindParam hp (.inr rfl) (fun {b} hb => ?_) ?_⟩
  · simp only [apart, Arg.apart, Bool.and_eq_true, decide_eq_true_eq] at hb
    rw [hb.2]
    exact hb.1
  · rintro s s' x y ⟨e', he, hspelled⟩
    refine ⟨_, ?_, Spelled.output (p := ⟨.ident, s, p.text⟩) rfl rfl hspelled⟩
    rw [Arg.plain, Arg.plain, he]
    rfl

theorem negatedOutput (hp : Scanned .ident p.text.toList f) (h : (expr 0 e).IsPrinted) :
    (arg (.output p.name true e s)).IsPrinted := by
  obtain ⟨ps, hps⟩ := h
  have htext : (arg (.output p.name true e s)).render =
      "NOT ".toList ++
        ((p.text.toList ++ ([' '] ++ (TokenKind.arrow.spelling.toList ++ [' ']))) ++ e.render.toList) := by
    simp [ExprPhrase.render, Arg.render, Lexeme.name, show TokenKind.arrow.spelling = "=>" from rfl]
  have hparam : Printed ((p.text.toList ++ ([' '] ++ (TokenKind.arrow.spelling.toList ++ [' ']))) ++ e.render.toList)
      (fun b => p.name.ending.allows .other && e.apart b) _
      fun x y => ∃ s s' x', x = ⟨.ident, s, p.text⟩ :: ⟨.arrow, s', TokenKind.arrow.spelling⟩ :: x' ∧
        (expr 0 e).Respelled x' y :=
    hps.behindParam hp (.inr rfl) (fun hb => (Bool.and_eq_true _ _).mp hb) fun hx => ⟨_, _, _, rfl, hx⟩
  rw [IsPrinted, htext]
  refine ⟨_, hparam.prepend rfl (fun {f b} hb hf => ⟨?_, cut_not hf⟩) ?_⟩
  · simp only [apart, Arg.apart, Bool.and_eq_true, decide_eq_true_eq] at hb
    rw [hb.2]
    simp [hb.1]
  · rintro o x y ⟨s, s', x, rfl, e', he, hspelled⟩
    refine ⟨_, ?_, Spelled.negatedOutput (p := ⟨.ident, s, p.text⟩) rfl rfl rfl hspelled⟩
    rw [Arg.plain, Arg.plain, he]
    rfl

end ExprPhrase.IsPrinted

/-! ## Whole phrases -/

/-- A phrase that is spelled in a text is printed in its source form. -/
theorem ExprPhrase.Spelled.isPrinted {φ : ExprPhrase} {x y : List Lexeme} (h : φ.Spelled x y) (hx : Lexed x) :
    φ.IsPrinted := by
  induction h with
  | operand _ ih =>
    obtain ⟨ps, hps⟩ := ih hx
    exact ⟨ps, hps.imp id fun ⟨e', he, h⟩ => ⟨e', he, .operand h⟩⟩
  | binary hlevel _ hl _ ihl ihr => exact .binary hlevel (ihl hx) (ihr (hx.suffix hl.suffix).tail)
  | access _ ih =>
    obtain ⟨ps, hps⟩ := ih hx
    exact ⟨ps, hps.imp id fun ⟨e', he, h⟩ => ⟨e', he, .access h⟩⟩
  | unary _ _ ih => exact .unary (ih hx.tail)
  | primary _ ih =>
    obtain ⟨ps, hps⟩ := ih hx
    exact ⟨ps, hps.imp id fun ⟨e', he, h⟩ => ⟨e', he, .primary h⟩⟩
  | member h _ hn ih =>
    obtain ⟨f, hs⟩ := (hx.suffix h.suffix).tail.scanned_of_eq hn nofun nofun
    exact .member (ih hx) hs
  | part h _ hn ih =>
    obtain ⟨f, hs⟩ := (hx.suffix h.suffix).tail.scanned_of_eq hn nofun nofun
    exact .part (ih hx) hs
  | widePart h _ _ hn ih =>
    obtain ⟨f, hs⟩ := (hx.suffix h.suffix).tail.tail.scanned_of_eq hn nofun nofun
    exact .widePart (ih hx) hs
  | partAt h _ _ _ _ _ ih ihi => exact .partAt (ih hx) (ihi (hx.suffix h.suffix).tail.tail.tail)
  | index h _ _ _ ih ihes => exact .index (ih hx) (ihes (hx.suffix h.suffix).tail)
  | callEmpty _ he _ _ ih => exact .callEmpty (ih hx) he
  | call h he _ _ _ ih ihas => exact .call (ih hx) he (ihas (hx.suffix h.suffix).tail)
  | name h => exact .name h hx
  | this => exact .this
  | super => exact .super
  | paren _ _ _ ih => exact .paren (ih hx.tail)
  | enumerated hp htype hn =>
    obtain ⟨f, hs⟩ := hx.scanned_of_eq hp nofun nofun
    obtain ⟨g, hs'⟩ := hx.tail.scanned_of_eq hn nofun nofun
    exact .enumerated hs htype hs'
  | literal h => exact .literal h hx
  | lastExpr _ ih => exact .lastExpr (ih hx)
  | moreExprs h _ hes ih ihes =>
    refine .moreExprs (ih hx) ?_ (ihes (hx.suffix h.suffix).tail)
    rintro rfl
    cases hes
  | positional _ ih => exact .positional (ih hx)
  | input hp _ _ ih =>
    obtain ⟨f, hs⟩ := hx.scanned_of_eq hp nofun nofun
    exact .input hs (ih hx.tail.tail)
  | output hp _ _ ih =>
    obtain ⟨f, hs⟩ := hx.scanned_of_eq hp nofun nofun
    exact .output hs (ih hx.tail.tail)
  | negatedOutput _ hp _ _ ih =>
    obtain ⟨f, hs⟩ := hx.tail.scanned_of_eq hp nofun nofun
    exact .negatedOutput hs (ih hx.tail.tail.tail)
  | lastArg _ ih => exact .lastArg (ih hx)
  | moreArgs h _ has ih ihas =>
    refine .moreArgs (ih hx) ?_ (ihas (hx.suffix h.suffix).tail)
    rintro rfl
    cases has

end StructuredText
