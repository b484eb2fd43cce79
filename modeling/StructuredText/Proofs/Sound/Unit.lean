import StructuredText.Proofs.Grammar.Unit
import StructuredText.Proofs.Sound.Decl
import StructuredText.Proofs.Sound.Stmt

/-!
# What is read as a unit is spelled as one

If the rules for bodies and units read something without a report, the tokens that they took are a spelling of it, and
it is nested no deeper than the levels of the rule (`unitTurn_sound`).
-/

namespace StructuredText

theorem Body.ofParts_blocks (blocks : List VarBlock) (sts : List Stmt) :
    ofParts (blocks.map .block ++ [.statements sts]) = ⟨blocks, sts⟩ := by
  induction blocks with
  | nil => simp [ofParts]
  | cons b bs ih =>
    rw [List.map_cons, List.cons_append, ofParts, ih]

namespace Parser

variable {levels : Nat} {unit : UnitKind} {s s' : ParserState}

/-! ## Bodies -/

theorem leadingBlockTurn_sound {t : Turn BodyPart} (h : Reads (leadingBlockTurn levels unit) s t s') :
    (∃ b, t = .more [.block b] ∧ BlockSpelled unit b s.rest s'.rest ∧ b.nesting ≤ levels) ∨ t = .last [] ∧ s' = s := by
  rw [leadingBlockTurn, reads_kind_bind] at h
  split at h
  · obtain ⟨b, s₁, h₁, h⟩ := reads_bind_iff.1 h
    obtain ⟨rfl, rfl⟩ := reads_pure.1 h
    exact .inl ⟨b, rfl, varBlock_sound h₁⟩
  · exact .inr (reads_pure.1 h)

theorem turning_leadingBlockTurn : Turning (leadingBlockTurn levels unit) := by
  intro s items s' h
  rcases leadingBlockTurn_sound h with ⟨b, -, hb, -⟩ | ⟨h, -⟩
  · exact hb.length_lt
  · cases h

theorem leadingBlocks_sound {parts : List BodyPart} (h : Reads (collect (leadingBlockTurn levels unit)) s parts s') :
    ∃ blocks, parts = blocks.map .block ∧ Row (BlockSpelled unit) blocks s.rest s'.rest ∧
      deepest VarBlock.nesting blocks ≤ levels := by
  refine h.collect_induction turning_leadingBlockTurn (L := fun parts s s' =>
    ∃ blocks, parts = blocks.map .block ∧ Row (BlockSpelled unit) blocks s.rest s'.rest ∧
      deepest VarBlock.nesting blocks ≤ levels) ?_ ?_
  · intro parts s s' h
    rcases leadingBlockTurn_sound h with ⟨b, ht, -⟩ | ⟨ht, rfl⟩ <;> cases ht
    exact ⟨[], rfl, .nil, Nat.zero_le levels⟩
  · rintro items s s₁ parts s' h ⟨blocks, rfl, hrow, hns⟩
    rcases leadingBlockTurn_sound h with ⟨b, ht, hb, hn⟩ | ⟨ht, -⟩ <;> cases ht
    exact ⟨b :: blocks, rfl, .cons hb hrow, Nat.max_le.2 ⟨hn, hns⟩⟩

theorem bodyRest_sound {part : BodyPart} {t : Turn BodyPart} (h : Reads (bodyRest levels unit part) s t s') :
    BlockEnd unit.endKeyword s.rest s'.rest ∧ t = .last [part] := by
  rw [bodyRest, reads_get_bind] at h
  split at h
  · exact absurd h not_reads_fail
  · split at h
    · next hk =>
      obtain ⟨e, he, hek⟩ := ParserState.exists_of_kind hk (by cases unit <;> decide)
      rw [reads_skip_bind, reads_eat_bind] at h
      rw [he]
      split at h
      · next hsemi =>
        obtain ⟨rfl, rfl⟩ := reads_pure.1 h
        obtain ⟨u, hu, huk⟩ := ParserState.exists_of_kind hsemi (by decide)
        rw [hu]
        exact ⟨.semicolon hek huk, rfl⟩
      · next hsemi =>
        obtain ⟨rfl, rfl⟩ := reads_pure.1 h
        rw [ParserState.kind_eq_headKind] at hsemi
        exact ⟨.plain hek hsemi, rfl⟩
    · split at h
      · exact absurd h not_reads_report_bind
      · split at h
        iterate 4 exact absurd h not_reads_missing_bind
        exact absurd h not_reads_report_bind

/-- Without a report, a body has one part with statements, which is the last one. -/
theorem bodyTurn_sound {t : Turn BodyPart} (h : Reads (bodyTurn levels unit) s t s') :
    ∃ sts x, t = .last [.statements sts] ∧ (StmtPhrase.stmts sts).Spelled s.rest x ∧
      BlockEnd unit.endKeyword x s'.rest ∧ Stmt.nestingAll sts ≤ levels := by
  rw [bodyTurn_eq] at h
  obtain ⟨sts, s₁, h₁, h⟩ := reads_bind_iff.1 h
  obtain ⟨hend, rfl⟩ := bodyRest_sound h
  obtain ⟨hsts, hn⟩ := statements_sound h₁
  exact ⟨sts, s₁.rest, rfl, hsts, hend, hn⟩

theorem turning_bodyTurn : Turning (bodyTurn levels unit) := by
  intro s items s' h
  obtain ⟨sts, x, ht, -⟩ := bodyTurn_sound h
  cases ht

theorem body_sound {b : Body} (h : Reads (body levels unit) s b s') :
    BodySpelled unit b s.rest s'.rest ∧ b.nesting ≤ levels := by
  rw [body] at h
  obtain ⟨leading, s₁, h₁, h⟩ := reads_bind_iff.1 h
  obtain ⟨parts, s₂, h₂, h⟩ := reads_bind_iff.1 h
  obtain ⟨rfl, rfl⟩ := reads_pure.1 h
  obtain ⟨blocks, rfl, hblocks, hn⟩ := leadingBlocks_sound h₁
  rcases (reads_collect_iff turning_bodyTurn).1 h₂ with ⟨items, s₃, bs, h₂, -⟩ | h₂
  · obtain ⟨sts, x, ht, -⟩ := bodyTurn_sound h₂
    cases ht
  · obtain ⟨sts, x, ht, hsts, hend, hns⟩ := bodyTurn_sound h₂
    cases ht
    rw [Body.ofParts_blocks]
    exact ⟨.mk hblocks hsts hend, Nat.max_le.2 ⟨hn, hns⟩⟩

/-! ## Units -/

theorem unitName_sound {name : Name} (h : Reads unitName s name s') :
    ∃ t, s.rest = t :: s'.rest ∧ t.kind = .ident ∧ name = t.name := by
  rw [unitName, reads_sees_bind] at h
  split at h
  · next hk =>
    obtain ⟨rfl, rfl⟩ := reads_take.1 h
    obtain ⟨t, ht, htk⟩ := ParserState.exists_of_kind (eq_of_beq hk) (by decide)
    exact ⟨t, ht, htk, ParserState.name_of_cons ht⟩
  · obtain ⟨b, s₁, -, h⟩ := reads_bind_iff.1 h
    split at h
    · exact absurd h not_reads_fail
    · exact absurd h not_reads_missing_bind

/-- Without a report, a broken type does not matter. -/
theorem reads_returnType? {o : Option TypeRef} :
    Reads (returnType? levels) s o s' ↔ Reads (optional .colon (typeRef levels)) s o s' := by
  rw [returnType?, optional, reads_eat_bind, reads_eat_bind]
  split
  · exact reads_orRecover
  · exact Iff.rfl

theorem returnType?_sound {o : Option TypeRef} (h : Reads (returnType? levels) s o s') :
    Optionally TypeSpelled .colon o s.rest s'.rest ∧ depthOf TypeRef.nesting o ≤ levels :=
  optional_sound (by decide) (fun h => typeRef_sound levels h) (reads_returnType?.1 h)

theorem algorithm_sound {a : Algorithm} (hk : s.kind = .kwAlgorithm) (h : Reads (algorithm levels) s a s') :
    UnitSpelled (.algorithm a) s.rest s'.rest ∧ (ProgramUnit.algorithm a).nesting ≤ levels := by
  have hp := h.passed
  obtain ⟨w, hw, hwk⟩ := ParserState.exists_of_kind hk (by decide)
  rw [algorithm, reads_offset_bind, reads_skip_bind] at h
  have hlt := h.length_le
  obtain ⟨name, s₁, h₁, h⟩ := reads_bind_iff.1 h
  obtain ⟨b, s₂, h₂, h⟩ := reads_bind_iff.1 h
  rw [reads_spanFrom_bind] at h
  obtain ⟨rfl, rfl⟩ := reads_pure.1 h
  obtain ⟨n, hn, hnk, rfl⟩ := unitName_sound h₁
  obtain ⟨hbody, hnest⟩ := body_sound h₂
  rw [hp.spanFrom (by rw [hw, List.length_cons]; omega), hw, hn]
  exact ⟨.algorithm hwk hnk hbody, hnest⟩

theorem method_sound {m : Method} (hk : s.kind = .kwMethod) (h : Reads (method levels) s m s') :
    UnitSpelled (.method m) s.rest s'.rest ∧ (ProgramUnit.method m).nesting ≤ levels := by
  have hp := h.passed
  obtain ⟨w, hw, hwk⟩ := ParserState.exists_of_kind hk (by decide)
  rw [method, reads_offset_bind, reads_skip_bind] at h
  have hlt := h.length_le
  obtain ⟨name, s₁, h₁, h⟩ := reads_bind_iff.1 h
  obtain ⟨type, s₂, h₂, h⟩ := reads_bind_iff.1 h
  obtain ⟨b, s₃, h₃, h⟩ := reads_bind_iff.1 h
  rw [reads_spanFrom_bind] at h
  obtain ⟨rfl, rfl⟩ := reads_pure.1 h
  obtain ⟨n, hn, hnk, rfl⟩ := unitName_sound h₁
  obtain ⟨htype, hn₁⟩ := returnType?_sound h₂
  obtain ⟨hbody, hn₂⟩ := body_sound h₃
  rw [hp.spanFrom (by rw [hw, List.length_cons]; omega), hw, hn]
  exact ⟨.method hwk hnk htype hbody, Nat.max_le.2 ⟨hn₁, hn₂⟩⟩

/-- The end of the stream. -/
def AtEnd (x y : List Lexeme) : Prop := x = [] ∧ y = []

/-- What the rule for units reads is spelled as a unit, or the stream is over. -/
theorem unitTurn_sound : TurnsRow (unitTurn levels) UnitSpelled ProgramUnit.nesting levels AtEnd := by
  intro s t s' h
  rw [unitTurn, reads_get_bind] at h
  split at h
  · next hr =>
    obtain ⟨rfl, rfl⟩ := reads_pure.1 h
    exact .inr ⟨rfl, hr, hr⟩
  · split at h
    · next hk =>
      obtain ⟨a, s₁, h₁, h⟩ := reads_bind_iff.1 h
      obtain ⟨rfl, rfl⟩ := reads_pure.1 h
      exact .inl ⟨_, rfl, algorithm_sound hk h₁⟩
    · next hk =>
      obtain ⟨m, s₁, h₁, h⟩ := reads_bind_iff.1 h
      obtain ⟨rfl, rfl⟩ := reads_pure.1 h
      exact .inl ⟨_, rfl, method_sound hk h₁⟩
    · exact absurd h not_reads_missing_bind

end Parser

end StructuredText
