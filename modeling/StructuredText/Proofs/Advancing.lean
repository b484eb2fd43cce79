import StructuredText.Proofs.Nodes.Unit
import StructuredText.Proofs.Resuming

/-!
# Turns that take a token

A loop of the grammar goes on only behind a turn that took a token (`Parser.Advancing`). Where a part is broken, the
turn takes one in one of three ways: the part took it before it gave up (`Parser.length_lt_of_orRecover`), the token in
front does not stop the skip (`Parser.length_skipTo_lt`), or a token is taken where neither took one
(`Parser.length_lt_of_recovering`).
-/

namespace StructuredText.Parser

variable {s s' : ParserState}

/-- The rule takes a token wherever it gives something. -/
class Taking (p : Parser α) : Prop where
  length_lt : ∀ {s : ParserState} {a : α} {s' : ParserState}, p s = .ok a s' → s'.rest.length < s.rest.length

/-- A turn after which the loop goes on takes a token. -/
class Advancing (turn : Parser (Turn α)) : Prop where
  length_lt : ∀ {s : ParserState} {items : List α} {s' : ParserState}, turn s = .ok (.more items) s' →
    s'.rest.length < s.rest.length

/-! ## Taking the next token -/

theorem length_advance_of_ne_nil (hs : s.rest ≠ []) : s.advance.rest.length < s.rest.length := by
  rw [ParserState.advance_rest, List.length_tail]
  exact Nat.sub_lt (List.length_pos_iff.2 hs) Nat.one_pos

theorem ne_nil_of_kind {k : TokenKind} (hk : s.kind = k) (hne : k ≠ .eof) : s.rest ≠ [] :=
  fun hnil => hne (hk ▸ ParserState.kind_of_nil hnil)

/-- A rule that begins with a word takes it. -/
theorem length_lt_of_word {q : Nat → PUnit → Parser α} [∀ start u, Lawful (q start u)] {a : α} (hk : s.kind ≠ .eof)
    (h : (offset >>= fun start => skip >>= q start) s = .ok a s') : s'.rest.length < s.rest.length := by
  rw [bind_of_ok (offset_apply s)] at h
  exact length_lt_of_skip_ok hk h

/-! ## Skipping the rest of a broken part -/

theorem length_skipWhile_lt {p : TokenKind → Bool} {u : PUnit} (hs : s.rest ≠ []) (hp : p s.kind = true)
    (h : skipWhile (fun s => p s.kind) s = .ok u s') : s'.rest.length < s.rest.length := by
  obtain ⟨t, ts, hr⟩ := List.exists_cons_of_ne_nil hs
  rw [ParserState.kind_of_cons hr] at hp
  rw [rest_skipWhile h, hr, List.dropWhile_cons, if_pos hp, List.length_cons]
  exact Nat.lt_succ_of_le (List.dropWhile_suffix _).length_le

theorem rest_skipWhile_of_stops {p : TokenKind → Bool} {u : PUnit} (hs : s.rest ≠ []) (hp : p s.kind = false)
    (h : skipWhile (fun s => p s.kind) s = .ok u s') : s'.rest = s.rest := by
  obtain ⟨t, ts, hr⟩ := List.exists_cons_of_ne_nil hs
  rw [ParserState.kind_of_cons hr] at hp
  rw [rest_skipWhile h, hr, List.dropWhile_cons, if_neg (Bool.eq_false_iff.1 hp)]

/-- In front of a token that does not stop it, skipping takes a token. A `;` stops it, but is taken, too. -/
theorem length_skipTo_lt {stops : TokenKind → Bool} {u : PUnit} (hs : s.rest ≠ []) (hstop : stops s.kind = false)
    (h : skipTo stops s = .ok u s') : s'.rest.length < s.rest.length := by
  let p (k : TokenKind) : Bool := k != .semicolon && !stops k
  obtain ⟨_, s₁, hwhile, h⟩ := ok_bind_iff.1 h
  rw [bind_of_ok (sees_apply .semicolon s₁)] at h
  by_cases hk : s.kind = .semicolon
  · have hstay : s₁.rest = s.rest := rest_skipWhile_of_stops (p := p) hs (by simp [p, hk]) hwhile
    rw [ParserState.kind_eq_headKind, hstay, ← ParserState.kind_eq_headKind, hk] at h
    cases h
    exact hstay ▸ length_advance_of_ne_nil (hstay ▸ hs)
  · have hlt := length_skipWhile_lt (p := p) hs (by simp [p, hk, hstop]) hwhile
    split at h
    · cases h
      exact Nat.lt_of_le_of_lt (Lawful.length_le (skip_apply s₁)) hlt
    · cases h
      exact hlt

/-- What is recovered from, if anything, is a syntax error. -/
theorem ok_orRecover {rule recover : Parser α} {a : α} (h : orRecover rule recover s = .ok a s') :
    rule s = .ok a s' ∨ ∃ s₁, rule s = .error .syntaxError s₁ ∧ recover s₁ = .ok a s' := by
  rw [orRecover_apply] at h
  split at h
  · next s₁ herror => exact .inr ⟨s₁, herror, h⟩
  · exact .inl h

/-- Behind a broken part, one token is taken at least. -/
theorem length_lt_of_recovering {part : Parser α} {skipRest : Parser PUnit} [Lawful part] [Lawful skipRest]
    [hp : Taking part] {items : List α} (hs : s.rest ≠ []) (h : recovering part skipRest s = .ok (.more items) s') :
    s'.rest.length < s.rest.length := by
  rw [recovering, bind_of_ok (get_apply s)] at h
  rcases ok_orRecover h with h | ⟨s₁, herror, h⟩
  · obtain ⟨a, s₁, hpart, h⟩ := ok_bind_iff.1 h
    cases h
    exact hp.length_lt hpart
  · have hle := (Lawful.rest_suffix_of_error herror).length_le
    obtain ⟨_, s₂, hskip, h⟩ := ok_bind_iff.1 h
    have hle' := Lawful.length_le hskip
    rw [bind_of_ok (get_apply s₂)] at h
    by_cases hlen : s₂.rest.length = s.rest.length
    · rw [if_pos hlen] at h
      cases h
      have hs₂ : s₂.rest ≠ [] := fun hnil => hs (List.length_eq_zero_iff.1 (by rw [← hlen, hnil]; rfl))
      exact hlen ▸ length_advance_of_ne_nil hs₂
    · rw [if_neg hlen] at h
      cases h
      exact Nat.lt_of_le_of_ne (Nat.le_trans hle' hle) hlen

/-- The turn of a loop over parts that may be broken, which is over at the end of the stream at the latest. -/
theorem advancing_recovering {part : Parser α} {skipRest : Parser PUnit} [Lawful part] [Lawful skipRest] [Taking part]
    {isOver : ParserState → Bool} (hover : ∀ s, s.rest = [] → isOver s = true) :
    Advancing (do if isOver (← get) then return .last [] else recovering part skipRest) := by
  constructor
  intro s items s' h
  rw [bind_of_ok (get_apply s)] at h
  split at h
  · cases h
  · next hgoes => exact length_lt_of_recovering (fun hnil => hgoes (hover s hnil)) h

/-- A part that takes its first token takes it where it gives up, too. -/
theorem length_lt_of_orRecover {part : Parser α} {skipRest : Parser PUnit} [Lawful skipRest] {t : Turn α}
    (hp : TakesFirst part s) (hs : s.rest ≠ [])
    (h : orRecover (return .more [← part]) (do skipRest; return .more []) s = .ok t s') :
    s'.rest.length < s.rest.length := by
  obtain ⟨q, hq, heq⟩ := hp
  have hpart : (part >>= fun a => pure (Turn.more [a])) s =
      (q ⟨s.text, s.span⟩ >>= fun a => pure (Turn.more [a])) s.advance := by
    rw [bind_apply, bind_apply, show part s = q ⟨s.text, s.span⟩ s.advance from heq s.lastStop]
  have hlt := length_advance_of_ne_nil hs
  rcases ok_orRecover h with h | ⟨s₁, herror, h⟩
  · exact Nat.lt_of_le_of_lt (Lawful.length_le (hpart.symm.trans h)) hlt
  · have hle := (Lawful.rest_suffix_of_error (hpart.symm.trans herror)).length_le
    obtain ⟨_, s₂, hskip, h⟩ := ok_bind_iff.1 h
    cases h
    exact Nat.lt_of_le_of_lt (Nat.le_trans (Lawful.length_le hskip) hle) hlt

/-! ## Lists -/

instance advancing_commaTurn {item : Parser α} [Lawful item] : Advancing (commaTurn item) :=
  ⟨fun h => length_lt_of_commaTurn h⟩

/-! ## Statements -/

section

variable {deeper : Option Level} [hd : LawfulLevel deeper]

/-- The rule begins with a word, which it takes. -/
def OpensWithWord (p : Parser α) : Prop :=
  ∃ q : Nat → PUnit → Parser α, (∀ start u, Lawful (q start u)) ∧ p = offset >>= fun start => skip >>= q start

/-- A statement with a body takes the word that it begins with. -/
theorem length_lt_of_nested {rule : Level → Parser Stmt} {st : Stmt} (hk : s.kind ≠ .eof)
    (hrule : ∀ level : Level, level.Lawful → OpensWithWord (rule level))
    (h : nested "statement" deeper rule s = .ok st s') : s'.rest.length < s.rest.length := by
  cases hdeeper : deeper with
  | none =>
    rw [hdeeper] at h
    cases h
  | some level =>
    obtain ⟨q, hq, heq⟩ := hrule level (hd.of_mem level hdeeper)
    rw [hdeeper] at h
    have h : rule level s = .ok st s' := h
    rw [heq] at h
    exact length_lt_of_word hk h

set_option synthInstance.maxSize 512 in
instance taking_statementOf : Taking (statementOf deeper) := by
  constructor
  intro s st s' h
  rw [statementOf, bind_of_ok (kind_apply s)] at h
  generalize hk : s.kind = k at h
  split at h
  · exact length_lt_of_nested (by rw [hk]; decide) (fun _ _ => ⟨_, fun _ _ => inferInstance, rfl⟩) h
  · refine length_lt_of_nested (by rw [hk]; decide) (fun level _ => ?_) h
    exact ⟨_, fun _ _ => inferInstance, caseStatement_eq level⟩
  iterate 3 exact length_lt_of_nested (by rw [hk]; decide) (fun _ _ => ⟨_, fun _ _ => inferInstance, rfl⟩) h
  iterate 3 exact length_lt_of_word (by rw [hk]; decide) h
  · cases h
    exact length_advance_of_ne_nil (ne_nil_of_kind hk (by decide))
  iterate 3
    have hs : s.rest ≠ [] := ne_nil_of_kind hk (by decide)
    exact (takesFirst_assignmentOrCall hs (by rw [hk]; rfl)).length_lt hs h
  · exact absurd h not_ok_fail

end

instance taking_statement (levels : Nat) : Taking (statement levels) := by
  rw [statement_eq]
  infer_instance

instance advancing_statementTurn {statement : Parser Stmt} [Lawful statement] [Taking statement]
    (stops : ParserState → Bool) : Advancing (statementTurn statement stops) :=
  advancing_recovering fun s hnil => by
    rw [hnil]
    rfl

section

variable {level : Level} [hl : level.Lawful]

instance advancing_elsifTurn : Advancing (elsifTurn level) := by
  constructor
  intro s items s' h
  rw [elsifTurn, bind_of_ok (sees_apply _ s)] at h
  split at h
  · next hk => exact length_lt_of_word (by rw [eq_of_beq hk]; decide) h
  · cases h

/-- An arm takes the `:` behind its labels. -/
instance taking_caseArm : Taking (caseArm level) := by
  constructor
  intro s arm s' h
  rw [caseArm, bind_of_ok (offset_apply s), bind_of_ok (kind_apply s)] at h
  split at h
  · obtain ⟨labels, s₁, hlabels, h⟩ := ok_bind_iff.1 h
    obtain ⟨_, s₂, hcolon, h⟩ := ok_bind_iff.1 h
    have hle := Lawful.length_le hlabels
    have hle' := Lawful.length_le h
    rw [expect_apply] at hcolon
    split at hcolon
    · next hk =>
      have hlt := ParserState.length_advance hk (by decide)
      cases hcolon
      omega
    · exact absurd hcolon not_ok_fail
  · exact absurd h not_ok_fail

instance advancing_caseArmTurn : Advancing (caseArmTurn level) :=
  advancing_recovering fun s hnil => by
    rw [hnil]
    rfl

end

/-! ## Declarations -/

section

variable (levels : Nat)

theorem takesFirst_ident (what : String) (hk : s.kind = .ident) : TakesFirst (ident what) s := by
  refine ⟨pure, fun _ => inferInstance, fun last => ?_⟩
  rw [ident, bind_of_ok (sees_apply _ _), ParserState.since_kind, hk]
  rfl

/-- A declaration takes its name, also where it gives up behind it. -/
theorem takesFirst_varDecl (hk : s.kind = .ident) : TakesFirst (varDecl levels) s :=
  .offset (ne_nil_of_kind hk (by decide)) (takesFirst_ident _ hk).bind

instance advancing_varDeclTurn : Advancing (varDeclTurn levels) := by
  constructor
  intro s items s' h
  rw [varDeclTurn, bind_of_ok (get_apply s)] at h
  generalize hr : s.rest = r at h
  split at h
  · exact absurd h not_ok_fail
  · have hs : s.rest ≠ [] := by simp [hr]
    split at h
    · cases h
    · next hend =>
      split at h
      · next hk =>
        split at h
        · cases h
        · exact hr ▸ length_lt_of_orRecover (takesFirst_varDecl levels hk) hs h
      · split at h
        · cases h
        · next hblock =>
          rw [missing, bind_of_ok (report_apply _ s)] at h
          obtain ⟨_, s₁, hskip, h⟩ := ok_bind_iff.1 h
          cases h
          have hkind : (s.report (.missing "variable name") s.span).kind = s.kind := rfl
          have hlt := length_skipTo_lt (s := s.report _ _) hs (by simp [hkind, hend, hblock]) hskip
          exact hr ▸ hlt

end

/-! ## Units -/

section

variable (levels : Nat) (unit : UnitKind)

instance advancing_leadingBlockTurn : Advancing (leadingBlockTurn levels unit) := by
  constructor
  intro s items s' h
  rw [leadingBlockTurn, bind_of_ok (kind_apply s)] at h
  split at h
  · next hk =>
    obtain ⟨b, s₁, hb, h⟩ := ok_bind_iff.1 h
    cases h
    exact length_lt_of_varBlock rfl (ne_eof_of_isVarKeyword hk) hb
  · cases h

instance advancing_bodyTurn : Advancing (bodyTurn levels unit) := by
  constructor
  intro s items s' h
  rw [bodyTurn_eq] at h
  obtain ⟨sts, s₁, hsts, h⟩ := ok_bind_iff.1 h
  refine Nat.lt_of_lt_of_le ?_ (Lawful.length_le hsts)
  rw [bodyRest, bind_of_ok (get_apply s₁)] at h
  generalize hr : s₁.rest = r at h
  split at h
  · exact absurd h not_ok_fail
  · split at h
    · rw [bind_of_ok (skip_apply s₁)] at h
      obtain ⟨_, s₂, -, h⟩ := ok_bind_iff.1 h
      cases h
    · split at h
      · next hk =>
        rw [bind_of_ok (report_apply .lateBlock s₁)] at h
        obtain ⟨b, s₂, hb, h⟩ := ok_bind_iff.1 h
        have hkind : (s₁.report .lateBlock s₁.span).kind = s₁.kind := rfl
        have hlt := length_lt_of_varBlock hkind (ne_eof_of_isVarKeyword hk) hb
        cases h
        exact hr ▸ hlt
      · generalize s₁.kind = k at h
        split at h
        iterate 4 cases h
        · cases h
          simp [hr]

instance advancing_unitTurn : Advancing (unitTurn levels) := by
  constructor
  intro s items s' h
  rw [unitTurn, bind_of_ok (get_apply s)] at h
  generalize hr : s.rest = r at h
  split at h
  · cases h
  · have hs : s.rest ≠ [] := by simp [hr]
    rw [← hr]
    generalize hk : s.kind = k at h
    split at h
    iterate 2
      obtain ⟨u, s₁, hu, h⟩ := ok_bind_iff.1 h
      cases h
      exact length_lt_of_word (by rw [hk]; decide) hu
    · next ha hm =>
      rw [missing, bind_of_ok (report_apply _ s)] at h
      obtain ⟨_, s₁, hskip, h⟩ := ok_bind_iff.1 h
      cases h
      have hkind : (s.report (.missing "ALGORITHM or METHOD") s.span).kind = k := hk
      have hskips : (k != .kwAlgorithm && k != .kwMethod) = true := by simpa using ⟨ha, hm⟩
      exact length_skipWhile_lt (p := fun k => k != .kwAlgorithm && k != .kwMethod) (s := s.report _ _) hs
        (hkind ▸ hskips) hskip

instance advancing_statementsTurn : Advancing (statementsTurn levels) := by
  constructor
  intro s items s' h
  rw [statementsTurn_eq] at h
  obtain ⟨sts, s₁, hsts, h⟩ := ok_bind_iff.1 h
  refine Nat.lt_of_lt_of_le ?_ (Lawful.length_le hsts)
  rw [strayTurn, bind_of_ok (get_apply s₁)] at h
  generalize hr : s₁.rest = r at h ⊢
  split at h
  · cases h
  · cases h
    simp [hr]

end

end StructuredText.Parser
