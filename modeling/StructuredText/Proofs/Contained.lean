import StructuredText.Proofs.Grammar.Swapped
import StructuredText.Proofs.Sound.Expr
import StructuredText.Proofs.Spared

/-!
# What stands behind a `;`

The rules for expressions do not take a `;`, and they do not look behind it. With more tokens behind the `;` ahead, and
with more problems reported before, such a rule does the same (`Unmoved`), and it leaves the `;` where it is
(`Parser.Contained`, and `Parser.Containing` if this holds of every state). All ways to put rules together keep this; a
rule that takes its next token unseen is contained only where the token is known.
-/

namespace StructuredText

/-- The token is a `;`. -/
@[reducible] def TokenKind.isSemicolon : TokenKind → Bool
  | semicolon => true
  | _ => false

/-! ## More tokens behind the `;` -/

/-- A `;` is ahead, and nothing behind it. -/
def ParserState.Fenced (s : ParserState) : Prop := ∃ x t, s.rest = x ++ [t] ∧ t.kind = .semicolon

/-- What surrounds a part of a stream. -/
structure Surroundings where
  /-- Where the whole stream ends. -/
  stop : Nat
  /-- The tokens behind the part. -/
  behind : List Lexeme
  /-- The problems reported in front of it. -/
  before : List Report

/-- The state within a longer stream. -/
def ParserState.within (s : ParserState) (e : Surroundings) : ParserState :=
  ⟨s.source, e.stop, s.rest ++ e.behind, s.lastStop, s.reports ++ e.before⟩

/-- The outcome within a longer stream. -/
def Surroundings.outcome (e : Surroundings) : EStateM.Result Abort ParserState α → EStateM.Result Abort ParserState α
  | .ok a s => .ok a (s.within e)
  | .error a s => .error a (s.within e)

namespace ParserState

variable {s : ParserState} {e : Surroundings}

@[simp] theorem within_source : (s.within e).source = s.source := rfl

@[simp] theorem within_rest : (s.within e).rest = s.rest ++ e.behind := rfl

@[simp] theorem within_reports : (s.within e).reports = s.reports ++ e.before := rfl

@[simp] theorem within_spanFrom (start : Nat) : (s.within e).spanFrom start = s.spanFrom start := rfl

@[simp] theorem within_report (problem : Problem) (span : Span) :
    (s.within e).report problem span = (s.report problem span).within e := rfl

theorem within_kind (h : s.rest ≠ []) : (s.within e).kind = s.kind := by
  obtain ⟨t, ts, hr⟩ := List.exists_cons_of_ne_nil h
  simp [kind, hr]

theorem within_span (h : s.rest ≠ []) : (s.within e).span = s.span := by
  obtain ⟨t, ts, hr⟩ := List.exists_cons_of_ne_nil h
  simp [span, hr]

theorem within_text (h : s.rest ≠ []) : (s.within e).text = s.text := by
  obtain ⟨t, ts, hr⟩ := List.exists_cons_of_ne_nil h
  simp [text, hr]

theorem within_advance (h : s.rest ≠ []) : (s.within e).advance = s.advance.within e := by
  obtain ⟨t, ts, hr⟩ := List.exists_cons_of_ne_nil h
  simp [advance, within, hr]

namespace Fenced

theorem ne_nil (h : s.Fenced) : s.rest ≠ [] := by
  obtain ⟨x, t, hr, -⟩ := h
  simp [hr]

/-- A token in front of the `;` can be taken. -/
theorem advance (h : s.Fenced) (hk : s.kind ≠ .semicolon) : s.advance.Fenced := by
  obtain ⟨x, t, hr, ht⟩ := h
  cases x with
  | nil => exact absurd ((kind_of_cons hr).trans ht) hk
  | cons u x => exact ⟨x, t, by simp [hr], ht⟩

theorem report (h : s.Fenced) (problem : Problem) (span : Span) : (s.report problem span).Fenced := h

end Fenced

end ParserState

namespace Parser

variable {s s' : ParserState} {e : Surroundings}

/-- With more tokens behind and more reports before, the rule does the same. -/
def Unmoved (e : Surroundings) (p : Parser α) (s : ParserState) : Prop := p (s.within e) = e.outcome (p s)

theorem Unmoved.bind {p : Parser α} {q : α → Parser β} (h : Unmoved e p s)
    (hq : ∀ a s₁, p s = .ok a s₁ → Unmoved e (q a) s₁) : Unmoved e (p >>= q) s := by
  rw [Unmoved, bind_apply, bind_apply, h]
  cases hp : p s with
  | ok a s₁ => exact hq a s₁ hp
  | error a s₁ => rfl

/-! ## Contained rules -/

/-- At `s`, the rule `p` leaves the `;` where it is, and does what `p'` does within the surroundings. -/
structure Matched (p' : Surroundings → Parser α) (p : Parser α) (s : ParserState) : Prop where
  same : ∀ e, p' e (s.within e) = e.outcome (p s)
  ok : ∀ {a s'}, p s = .ok a s' → s'.Fenced
  error : ∀ {a s'}, p s = .error a s' → s'.Fenced

/-- At `s`, the rule leaves the `;` where it is, and does the same whatever stands behind. -/
def Contained (p : Parser α) (s : ParserState) : Prop := Matched (fun _ => p) p s

/-- Wherever a `;` is ahead, the rule leaves it there, and does the same whatever stands behind. -/
class Containing (p : Parser α) : Prop where
  contained : ∀ s, s.Fenced → Contained p s

theorem Contained.unmoved {p : Parser α} (h : Contained p s) (e : Surroundings) : Unmoved e p s := h.same e

theorem Matched.of_ok {p' : Surroundings → Parser α} {p : Parser α} {a : α} (hp : p s = .ok a s') (hs : s'.Fenced)
    (he : ∀ e, p' e (s.within e) = .ok a (s'.within e)) : Matched p' p s where
  same e := by rw [hp, he]; rfl
  ok h := by cases hp.symm.trans h; exact hs
  error h := by cases hp.symm.trans h

theorem Matched.of_error {p' : Surroundings → Parser α} {p : Parser α} {a : Abort} (hp : p s = .error a s')
    (hs : s'.Fenced) (he : ∀ e, p' e (s.within e) = .error a (s'.within e)) : Matched p' p s where
  same e := by rw [hp, he]; rfl
  ok h := by cases hp.symm.trans h
  error h := by cases hp.symm.trans h; exact hs

/-- What rules do that are matched, other rules do that do the same. -/
theorem Matched.of_eq {p' q' : Surroundings → Parser α} {p q : Parser α} (h : Matched q' q s) (hp : p s = q s)
    (he : ∀ e, p' e (s.within e) = q' e (s.within e)) : Matched p' p s where
  same e := by rw [he, hp]; exact h.same e
  ok hok := h.ok (hp.symm.trans hok)
  error herror := h.error (hp.symm.trans herror)

/-! ### Rules one after the other -/

theorem Matched.bind {p' : Surroundings → Parser α} {p : Parser α} {q' : Surroundings → α → Parser β}
    {q : α → Parser β} (h : Matched p' p s)
    (hq : ∀ a s₁, p s = .ok a s₁ → s₁.Fenced → Matched (fun e => q' e a) (q a) s₁) :
    Matched (fun e => p' e >>= q' e) (p >>= q) s := by
  have hsame := h.same
  cases hp : p s with
  | ok a s₁ =>
    simp only [hp, Surroundings.outcome] at hsame
    have hm := hq a s₁ hp (h.ok hp)
    constructor
    · intro e
      rw [bind_of_ok (hsame e), bind_of_ok hp]
      exact hm.same e
    · exact fun hok => hm.ok ((bind_of_ok hp).symm.trans hok)
    · exact fun herror => hm.error ((bind_of_ok hp).symm.trans herror)
  | error a s₁ =>
    simp only [hp, Surroundings.outcome] at hsame
    have hbind := bind_apply p q s
    rw [hp] at hbind
    exact .of_error hbind (h.error hp) fun e => by rw [bind_apply, hsame e]

theorem Contained.bind {p : Parser α} {q : α → Parser β} (h : Contained p s)
    (hq : ∀ a s₁, p s = .ok a s₁ → s₁.Fenced → Contained (q a) s₁) : Contained (p >>= q) s :=
  Matched.bind h hq

/-- A rule in front of containing ones. -/
theorem Contained.then {p : Parser α} {q : α → Parser β} [hq : ∀ a, Containing (q a)] (h : Contained p s) :
    Contained (p >>= q) s :=
  h.bind fun a s₁ _ hs => (hq a).contained s₁ hs

instance containing_bind {p : Parser α} {q : α → Parser β} [hp : Containing p] [∀ a, Containing (q a)] :
    Containing (p >>= q) :=
  ⟨fun s hs => (hp.contained s hs).then⟩

instance containing_pure (a : α) : Containing (pure a : Parser α) := ⟨fun _ hs => .of_ok rfl hs fun _ => rfl⟩

instance containing_ite {c : Prop} [Decidable c] {p q : Parser α} [hp : Containing p] [hq : Containing q] :
    Containing (if c then p else q) := by
  split <;> assumption

/-! ### Looking -/

section

variable {k : TokenKind}

/-- A rule may look at what is the same with more tokens behind. -/
theorem Contained.get {q : ParserState → Parser β} (h : Contained (q s) s) (he : ∀ e, q (s.within e) = q s) :
    Contained (MonadState.get >>= q) s :=
  h.of_eq rfl fun e => congrFun (he e) (s.within e)

theorem Contained.kind {q : TokenKind → Parser β} (hs : s.Fenced) (h : Contained (q s.kind) s) :
    Contained (Parser.kind >>= q) s :=
  h.of_eq rfl fun e => by rw [bind_of_ok (kind_apply _), ParserState.within_kind hs.ne_nil]

theorem Contained.offset {q : Nat → Parser β} (hs : s.Fenced) (h : Contained (q s.span.start) s) :
    Contained (Parser.offset >>= q) s :=
  h.of_eq rfl fun e => by rw [bind_of_ok (offset_apply _), ParserState.within_span hs.ne_nil]

/-- One of two rules, as the next token is of a kind or not. -/
theorem Contained.sees {p q : Parser β} (hs : s.Fenced) (hp : s.kind = k → Contained p s) (hq : Contained q s) :
    Contained (do if ← Parser.sees k then p else q) s := by
  have hpq : Contained (if (s.kind == k) = true then p else q) s := by
    split
    · next h => exact hp (eq_of_beq h)
    · exact hq
  exact hpq.of_eq rfl fun e => by rw [bind_of_ok (sees_apply k _), ParserState.within_kind hs.ne_nil]

instance containing_offset : Containing Parser.offset :=
  ⟨fun _ hs => .of_ok rfl hs fun _ => by rw [offset_apply, ParserState.within_span hs.ne_nil]⟩

instance containing_spanFrom (start : Nat) : Containing (spanFrom start) := ⟨fun _ hs => .of_ok rfl hs fun _ => rfl⟩

/-! ### Taking and reporting -/

theorem Contained.skip (hs : s.Fenced) (h : s.kind ≠ .semicolon) : Contained Parser.skip s :=
  .of_ok rfl (hs.advance h) fun e => by rw [skip_apply, ParserState.within_advance hs.ne_nil]

theorem Contained.take (hs : s.Fenced) (h : s.kind ≠ .semicolon) : Contained Parser.take s :=
  .of_ok rfl (hs.advance h) fun e => by
    rw [take_apply, ParserState.within_advance hs.ne_nil, ParserState.within_text hs.ne_nil,
      ParserState.within_span hs.ne_nil]

theorem Contained.skip_bind {q : PUnit → Parser β} (hs : s.Fenced) (h : s.kind ≠ .semicolon)
    (hq : s.advance.Fenced → Contained (q ⟨⟩) s.advance) : Contained (Parser.skip >>= q) s := by
  refine (Contained.skip hs h).bind fun _ _ h hs₁ => ?_
  cases h
  exact hq hs₁

theorem Contained.take_bind {q : Name → Parser β} (hs : s.Fenced) (h : s.kind ≠ .semicolon)
    (hq : s.advance.Fenced → ∀ name, Contained (q name) s.advance) : Contained (Parser.take >>= q) s := by
  refine (Contained.take hs h).bind fun name _ h hs₁ => ?_
  cases h
  exact hq hs₁ _

instance containing_reportAt (span : Span) (problem : Problem) : Containing (reportAt span problem) :=
  ⟨fun _ hs => .of_ok rfl hs fun _ => rfl⟩

instance containing_fail (what : String) : Containing (fail what : Parser α) := by
  constructor
  intro s hs
  obtain ⟨t, ts, hr⟩ := List.exists_cons_of_ne_nil hs.ne_nil
  refine .of_error (fail_of_cons hr what) (hs.report _ _) fun e => ?_
  have hre : (s.within e).rest = t :: (ts ++ e.behind) := by simp [hr]
  rw [fail_of_cons hre, ParserState.within_text hs.ne_nil, ParserState.within_span hs.ne_nil, ParserState.within_report]

theorem ne_semicolon_of_kind [hk : IsFalse k.isSemicolon] (h : s.kind = k) : s.kind ≠ .semicolon := by
  have hne := hk.eq_false
  rintro hsemi
  rw [← h, hsemi] at hne
  cases hne

instance containing_eat [IsFalse k.isSemicolon] : Containing (eat k) :=
  ⟨fun s hs => .sees hs (fun h => (Contained.skip hs (ne_semicolon_of_kind h)).then) (Containing.contained s hs)⟩

instance containing_expect [IsFalse k.isSemicolon] : Containing (expect k) :=
  ⟨fun s hs => .sees hs (fun h => .skip hs (ne_semicolon_of_kind h)) (Containing.contained s hs)⟩

end

theorem Contained.nested {what : String} {deeper : Option α} {rule : α → Parser β} (hs : s.Fenced)
    (h : ∀ level ∈ deeper, Contained (rule level) s) : Contained (Parser.nested what deeper rule) s := by
  cases deeper with
  | some level => exact h level rfl
  | none =>
    have hdeep : Parser.nested what none rule s = .error .tooDeep (s.report (.tooDeep what) s.span) := rfl
    refine .of_error hdeep (hs.report _ _) fun e => ?_
    rw [← ParserState.within_report, ← ParserState.within_span (e := e) hs.ne_nil]
    rfl

/-! ### Loops -/

/-- At `s`, the rule takes a token if it gives something. -/
def Paces (p : Parser (Option α)) (s : ParserState) : Prop :=
  ∀ a s', p s = .ok (some a) s' → s'.rest.length < s.rest.length

/-- A turn of a fold that goes on takes a token. -/
def Pacing (turn : α → Parser (Option α)) : Prop := ∀ a s, Paces (turn a) s

theorem Paces.kind {q : TokenKind → Parser (Option α)} (h : Paces (q s.kind) s) : Paces (Parser.kind >>= q) s := h

theorem paces_none : Paces (pure none : Parser (Option α)) s := nofun

/-- A rule behind a token that is taken leaves fewer tokens. -/
theorem length_lt_of_skip_ok {q : PUnit → Parser β} [∀ u, Lawful (q u)] {b : β} (hk : s.kind ≠ .eof)
    (h : (skip >>= q) s = .ok b s') : s'.rest.length < s.rest.length := by
  rw [bind_of_ok (skip_apply s)] at h
  have := ParserState.length_advance rfl hk
  have := Lawful.length_le h
  omega

theorem Paces.skip {k : TokenKind} {q : PUnit → Parser (Option α)} [∀ u, Lawful (q u)] (hk : s.kind = k)
    (hne : k ≠ .eof) : Paces (Parser.skip >>= q) s :=
  fun _ _ h => length_lt_of_skip_ok (by rwa [hk]) h

theorem matched_foldWithin {turn : α → Parser (Option α)} [ht : ∀ a, Containing (turn a)] (hp : Pacing turn)
    {left : List Lexeme} (hs : s.Fenced) (hle : s.rest.length ≤ left.length) (a : α) :
    Matched (fun e => foldWithin turn (left ++ e.behind) a) (foldWithin turn left a) s := by
  induction left generalizing s a with
  | nil => exact absurd (List.eq_nil_of_length_eq_zero (Nat.le_zero.1 hle)) hs.ne_nil
  | cons l left ih =>
    simp only [List.cons_append, foldWithin_cons]
    refine Matched.bind ((ht a).contained s hs) fun o s₁ hturn hs₁ => ?_
    cases o with
    | none => exact Containing.contained (p := pure a) s₁ hs₁
    | some a' =>
      have hlt := hp _ _ _ _ hturn
      rw [List.length_cons] at hle
      exact ih hs₁ (by omega) a'

theorem containing_fold {turn : α → Parser (Option α)} [∀ a, Containing (turn a)] (hp : Pacing turn) (a : α) :
    Containing (fold turn a) :=
  ⟨fun _ hs => (matched_foldWithin hp hs (Nat.le_refl _) a).of_eq rfl fun _ => rfl⟩

/-- Behind a comma, fewer tokens are left. -/
theorem length_lt_of_commaTurn {item : Parser α} [Lawful item] {items : List α}
    (h : commaTurn item s = .ok (.more items) s') : s'.rest.length < s.rest.length := by
  rw [commaTurn, bind_apply, eat_apply] at h
  by_cases hk : s.kind = .comma
  · rw [if_pos hk] at h
    obtain ⟨a, s₁, h₁, h⟩ := ok_bind_iff.1 h
    cases h
    have := ParserState.length_advance hk (by decide)
    have := Lawful.length_le h₁
    omega
  · rw [if_neg hk] at h
    cases h

instance containing_commaTurn {item : Parser α} [Containing item] : Containing (commaTurn item) := by
  unfold commaTurn
  infer_instance

theorem matched_collectWithin {item : Parser α} [Lawful item] [Containing item] {left : List Lexeme}
    (hs : s.Fenced) (hle : s.rest.length ≤ left.length) :
    Matched (fun e => collectWithin (commaTurn item) (left ++ e.behind)) (collectWithin (commaTurn item) left) s := by
  induction left generalizing s with
  | nil => exact absurd (List.eq_nil_of_length_eq_zero (Nat.le_zero.1 hle)) hs.ne_nil
  | cons l left ih =>
    simp only [List.cons_append, collectWithin_cons]
    refine Matched.bind (Containing.contained s hs) fun t s₁ hturn hs₁ => ?_
    cases t with
    | last items => exact Containing.contained (p := pure items) s₁ hs₁
    | more items =>
      have hlt := length_lt_of_commaTurn hturn
      rw [List.length_cons] at hle
      exact Matched.bind (ih hs₁ (by omega)) fun as s₂ _ hs₂ => Containing.contained (p := pure _) s₂ hs₂

instance containing_sepByComma {item : Parser α} [Lawful item] [Containing item] : Containing (sepByComma item) := by
  have : Containing (collect (commaTurn item)) :=
    ⟨fun _ hs => (matched_collectWithin hs (Nat.le_refl _)).of_eq rfl fun _ => rfl⟩
  rw [sepByComma_eq]
  infer_instance

/-! ## Literals -/

theorem ne_semicolon_of_literal {k : TokenKind} {kind : LiteralKind} (h : LiteralKind.ofToken? k = some kind) :
    k ≠ .semicolon := by
  rintro rfl
  cases h

theorem contained_tokenLiteral {kind : LiteralKind} (hs : s.Fenced) (h : s.kind ≠ .semicolon) :
    Contained (tokenLiteral kind) s :=
  (Contained.take hs h).then

theorem within_atTimeOfDay (hs : s.Fenced) : (s.within e).atTimeOfDay = s.atTimeOfDay := by
  obtain ⟨x, t, hr, ht⟩ := hs
  have hsettled : Settled s.rest := ⟨t, by simp [hr], by rw [ht]; rfl⟩
  rw [Bool.eq_iff_iff, atTimeOfDay_iff, atTimeOfDay_iff, ParserState.within_rest]
  exact ⟨fun h => h.of_append hsettled, fun h => h.append _⟩

/-- In front of the `;`, the next token but one is the same with more tokens behind. -/
theorem within_kind_advance (hs : s.Fenced) (h : s.kind ≠ .semicolon) :
    (s.within e).advance.kind = s.advance.kind := by
  rw [ParserState.within_advance hs.ne_nil, ParserState.within_kind (hs.advance h).ne_nil]

theorem contained_timeOfDay (hs : s.Fenced) (h : s.atTimeOfDay = true) : Contained timeOfDay s := by
  obtain ⟨a, b, c, d, f, x, hr, h⟩ := atTimeOfDay_iff.1 h
  have h₁ := ParserState.advance_rest_of_cons hr
  have h₂ := ParserState.advance_rest_of_cons h₁
  have h₃ := ParserState.advance_rest_of_cons h₂
  have h₄ := ParserState.advance_rest_of_cons h₃
  refine .take_bind hs (ne_semicolon_of_kind ((ParserState.kind_of_cons hr).trans h.hours)) fun hs _ => ?_
  refine .take_bind hs (ne_semicolon_of_kind ((ParserState.kind_of_cons h₁).trans h.colon)) fun hs _ => ?_
  refine .take_bind hs (ne_semicolon_of_kind ((ParserState.kind_of_cons h₂).trans h.minutes)) fun hs _ => ?_
  refine .take_bind hs (ne_semicolon_of_kind ((ParserState.kind_of_cons h₃).trans h.colon')) fun hs _ => ?_
  refine .take_bind hs ?_ fun hs _ => Containing.contained _ hs
  rw [ParserState.kind_of_cons h₄]
  rcases h.seconds with he | he <;> rw [he] <;> decide

instance containing_sign : Containing sign := by
  constructor
  intro s hs
  refine .kind hs ?_
  split
  iterate 2
    · next hk => exact (Contained.take hs (ne_semicolon_of_kind hk)).then
  · exact Containing.contained s hs

theorem contained_typedLiteral (hs : s.Fenced) (h : s.kind = .typedLiteralPrefix) : Contained typedLiteral s := by
  refine .take_bind hs (ne_semicolon_of_kind h) fun hs token => ?_
  refine Contained.bind (Containing.contained _ hs) fun sign s₁ _ hs => .kind hs ?_
  split
  · exact Containing.contained s₁ hs
  · next kind hk =>
    refine (contained_tokenLiteral hs (ne_semicolon_of_literal hk)).bind fun value s₂ _ hs => ?_
    dsimp only
    split
    · exact .get (Containing.contained s₂ hs) fun e => rfl
    · exact Containing.contained s₂ hs

instance containing_literal : Containing literal := by
  constructor
  intro s hs
  refine .get ?_ fun e => ?_
  · split
    · next hk => exact contained_typedLiteral hs hk
    · split
      · next h => exact contained_timeOfDay hs h
      · split
        · next hk => exact contained_tokenLiteral hs (ne_semicolon_of_literal hk)
        · exact Containing.contained s hs
  · rw [ParserState.within_kind hs.ne_nil, within_atTimeOfDay hs]

/-! ## Expressions -/

instance containing_ident (what : String) : Containing (ident what) :=
  ⟨fun s hs => .sees hs (fun h => .take hs (ne_semicolon_of_kind h)) (Containing.contained s hs)⟩

theorem pacing_nameTurn : Pacing nameTurn := by
  intro name s name' s' h
  rw [nameTurn, bind_apply, eat_apply] at h
  by_cases hk : s.kind = .colonColon
  · rw [if_pos hk] at h
    obtain ⟨part, s₁, h₁, h⟩ := ok_bind_iff.1 h
    cases h
    have := ParserState.length_advance hk (by decide)
    have := Lawful.length_le h₁
    omega
  · rw [if_neg hk] at h
    cases h

instance containing_qualifiedName (what : String) : Containing (qualifiedName what) := by
  have (name : Name) : Containing (nameTurn name) := by
    unfold nameTurn
    infer_instance
  have (name : Name) : Containing (fold nameTurn name) := containing_fold pacing_nameTurn name
  rw [qualifiedName_eq]
  infer_instance

theorem ne_semicolon_of_op {k : TokenKind} {op : BinaryOp} (h : BinaryOp.ofToken? k = some op) : k ≠ .semicolon := by
  rintro rfl
  cases h

theorem ne_eof_of_op {k : TokenKind} {op : BinaryOp} (h : BinaryOp.ofToken? k = some op) : k ≠ .eof := by
  rintro rfl
  cases h

section

variable (tier : BinaryTier) {operand : Parser Expr} [Lawful operand]

theorem pacing_tierTurn : Pacing (tierTurn tier operand) := by
  intro left s
  refine .kind ?_
  split
  · next op hop => exact .skip rfl (ne_eof_of_op (BinaryTier.op?_eq_some_iff.1 hop).1)
  · exact paces_none

instance containing_tierTurn [Containing operand] (left : Expr) : Containing (tierTurn tier operand left) := by
  constructor
  intro s hs
  refine .kind hs ?_
  split
  · next op hop => exact (Contained.skip hs (ne_semicolon_of_op (BinaryTier.op?_eq_some_iff.1 hop).1)).then
  · exact Containing.contained s hs

instance containing_binaryTier [Containing operand] : Containing (binaryTier tier operand) := by
  have (left : Expr) : Containing (fold (tierTurn tier operand) left) := containing_fold (pacing_tierTurn tier) left
  rw [binaryTier_eq]
  infer_instance

end

section

variable {unary : Parser Expr} [Lawful unary] [Containing unary]

instance containing_boundOf : Containing (boundOf unary) := by
  unfold boundOf
  infer_instance

instance containing_exprOf : Containing (exprOf unary) := by
  unfold exprOf
  infer_instance

theorem contained_parenthesized (hs : s.Fenced) (h : s.kind = .lParen) : Contained (parenthesized unary) s :=
  (Contained.skip hs (ne_semicolon_of_kind h)).then

theorem contained_indices (hs : s.Fenced) (h : s.kind = .lBracket) : Contained (indices unary) s :=
  (Contained.skip hs (ne_semicolon_of_kind h)).then

theorem contained_output {start : Nat} {negated : Bool} (hs : s.Fenced) (h : s.kind = .ident)
    (h₁ : s.advance.kind = .arrow) : Contained (arg.output unary start negated) s :=
  .take_bind hs (ne_semicolon_of_kind h) fun hs _ => (Contained.skip hs (ne_semicolon_of_kind h₁)).then

instance containing_arg : Containing (arg unary) := by
  constructor
  intro s hs
  refine .get ?_ fun e => ?_
  · dsimp only
    split
    · next h h₁ h₂ =>
      rw [ParserState.kindAt_one] at h₁
      rw [ParserState.kindAt_two] at h₂
      exact .skip_bind hs (ne_semicolon_of_kind h) fun hs => contained_output hs h₁ h₂
    · next h h₁ =>
      rw [ParserState.kindAt_one] at h₁
      exact contained_output hs h h₁
    · next h h₁ =>
      rw [ParserState.kindAt_one] at h₁
      exact .take_bind hs (ne_semicolon_of_kind h) fun hs _ => (Contained.skip hs (ne_semicolon_of_kind h₁)).then
    · exact Containing.contained s hs
  · -- What the rule looks at behind a `;` does not matter.
    by_cases hk : s.kind = .semicolon
    · simp [ParserState.within_kind hs.ne_nil, hk]
    · have h₁ := within_kind_advance (e := e) hs hk
      by_cases hk₁ : s.advance.kind = .semicolon
      · simp [ParserState.within_kind hs.ne_nil, h₁, hk₁]
      · have h₂ := within_kind_advance (e := e) (hs.advance hk) hk₁
        rw [← ParserState.within_advance hs.ne_nil] at h₂
        simp only [ParserState.within_kind hs.ne_nil, ParserState.within_span hs.ne_nil, ParserState.kindAt_one,
          ParserState.kindAt_two, h₁, h₂]

theorem contained_args (hs : s.Fenced) (h : s.kind = .lParen) : Contained (args unary) s :=
  (Contained.skip hs (ne_semicolon_of_kind h)).then

end

/-! ### Primaries and suffixes -/

/-- The rule one level deeper is lawful and containing, if there is one. -/
class ContainingDeeper (deeper : Option (Parser Expr)) : Prop where
  lawful : ∀ p ∈ deeper, Lawful p
  of_mem : ∀ p ∈ deeper, Containing p

section

variable {deeper : Option (Parser Expr)} [hd : ContainingDeeper deeper]

instance ContainingDeeper.lawfulDeeper : LawfulDeeper deeper := ⟨hd.lawful⟩

theorem contained_deeper {rule : Parser Expr → Parser β} (hs : s.Fenced)
    (h : ∀ p, Lawful p → Containing p → Contained (rule p) s) : Contained (nested "expression" deeper rule) s :=
  .nested hs fun p hp => h p (hd.lawful p hp) (hd.of_mem p hp)

instance containing_primary : Containing (primary deeper) := by
  constructor
  intro s hs
  refine .get ?_ fun e => ?_
  · dsimp only
    split
    · next h => exact contained_deeper hs fun _ _ _ => (contained_parenthesized hs h).then
    · exact Containing.contained s hs
    iterate 2
      · next h => exact (Contained.take hs (ne_semicolon_of_kind h)).then
    · next h =>
      split
      · next h₁ =>
        obtain ⟨h₁, -⟩ := h₁
        rw [ParserState.kindAt_one] at h₁
        exact .take_bind hs (ne_semicolon_of_kind h) fun hs _ => (Contained.take hs (ne_semicolon_of_kind h₁)).then
      · exact Containing.contained s hs
    · split <;> exact Containing.contained s hs
  · by_cases hk : s.kind = .semicolon
    · simp [ParserState.within_kind hs.ne_nil, hk]
    · simp only [ParserState.within_kind hs.ne_nil, ParserState.within_span hs.ne_nil, ParserState.kindAt_one,
        within_kind_advance hs hk, ParserState.atLiteralType, ParserState.within_text hs.ne_nil]

instance containing_selection (receiver : Expr) (start : Nat) : Containing (selection deeper receiver start) := by
  constructor
  intro s hs
  refine .kind hs ?_
  split
  iterate 2
    · next h => exact (Contained.take hs (ne_semicolon_of_kind h)).then
  · next h =>
    refine .skip_bind hs (by rw [h]; nofun) fun hs => .kind hs ?_
    split
    · next h => exact (Contained.take hs (ne_semicolon_of_kind h)).then
    · next h =>
      have hn : Contained (nested "expression" deeper parenthesized) s.advance :=
        contained_deeper hs fun _ _ _ => contained_parenthesized hs h
      exact hn.then
    · exact Containing.contained s.advance hs
  · exact Containing.contained s hs

instance containing_suffix? (start : Nat) (receiver : Expr) : Containing (suffix? deeper start receiver) := by
  constructor
  intro s hs
  refine .kind hs ?_
  split
  · next h => exact (Contained.skip hs (ne_semicolon_of_kind h)).then
  · next h =>
    have hn : Contained (nested "expression" deeper indices) s :=
      contained_deeper hs fun _ _ _ => contained_indices hs h
    exact hn.then
  · next h =>
    split
    · have hn : Contained (nested "expression" deeper args) s := contained_deeper hs fun _ _ _ => contained_args hs h
      exact hn.then
    · exact Containing.contained s hs
  · exact Containing.contained s hs

/-- What stands behind a bracket leaves fewer tokens. -/
theorem Paces.nested {k : TokenKind} {rule : Parser Expr → Parser α} {q : α → Parser (Option β)}
    [∀ a, Lawful (q a)] (hk : s.kind = k) (hne : k ≠ .eof)
    (hrule : ∀ p, Lawful p → ∃ r : PUnit → Parser α, (∀ u, Lawful (r u)) ∧ rule p = Parser.skip >>= r) :
    Paces (Parser.nested "expression" deeper rule >>= q) s := by
  intro b s' h
  obtain ⟨a, s₁, h₁, h⟩ := ok_bind_iff.1 h
  have hle := Lawful.length_le h
  cases hdeeper : deeper with
  | none =>
    rw [hdeeper] at h₁
    cases h₁
  | some p =>
    obtain ⟨r, hr, heq⟩ := hrule p (hd.lawful p hdeeper)
    rw [hdeeper] at h₁
    have h₁ : rule p s = .ok a s₁ := h₁
    rw [heq] at h₁
    exact Nat.lt_of_le_of_lt hle (length_lt_of_skip_ok (by rwa [hk]) h₁)

theorem pacing_suffix? (start : Nat) : Pacing (suffix? deeper start) := by
  intro e s
  refine .kind ?_
  split
  · next hk => exact .skip hk (by decide)
  · next hk => exact .nested hk (by decide) fun p _ => ⟨_, fun _ => inferInstance, rfl⟩
  · next hk =>
    split
    · exact .nested hk (by decide) fun p _ => ⟨_, fun _ => inferInstance, rfl⟩
    · exact paces_none
  · exact paces_none

instance containing_accessOf : Containing (accessOf deeper) := by
  have (start : Nat) (e : Expr) : Containing (fold (suffix? deeper start) e) := containing_fold (pacing_suffix? start) e
  unfold accessOf
  infer_instance

instance containing_unaryOf : Containing (unaryOf deeper) := by
  constructor
  intro s hs
  refine .kind hs ?_
  split
  · next op h =>
    have hk : s.kind ≠ .semicolon := by
      intro hk
      rw [hk] at h
      cases h
    refine .offset hs (.skip_bind hs hk fun hs => ?_)
    have hn : Contained (nested "expression" deeper id) s.advance := contained_deeper hs fun _ _ h => h.contained _ hs
    exact hn.then
  · exact Containing.contained s hs

end

instance containingDeeper_none : ContainingDeeper none := ⟨by simp, by simp⟩

instance containingDeeper_some {p : Parser Expr} [hl : Lawful p] [hp : Containing p] : ContainingDeeper (some p) :=
  ⟨by simpa using hl, by simpa using hp⟩

instance containing_unary (levels : Nat) : Containing (unary levels) := by
  induction levels with
  | zero => exact containing_unaryOf
  | succ levels ih => exact containing_unaryOf

instance containingDeeper_deeperUnary (levels : Nat) : ContainingDeeper (deeperUnary levels) := by
  cases levels with
  | zero => exact containingDeeper_none
  | succ levels => exact containingDeeper_some

end Parser

end StructuredText
