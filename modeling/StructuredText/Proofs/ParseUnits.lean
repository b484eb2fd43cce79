import StructuredText.Proofs.Complete.Unit
import StructuredText.Proofs.Roots

/-!
# Sources and initial values that stand alone

Reading a source succeeds just on the spellings of the grammar: a stream of tokens is read as a row of units without a
diagnostic if and only if it spells the row and nothing in it is nested too deeply. The same holds of an initial value
with or without a name in front.
-/

namespace StructuredText

/-- The tokens spell the units, and nothing else. -/
def SpellsUnits (x : List Lexeme) (us : List ProgramUnit) : Prop := Row UnitSpelled us x []

/-- `name :=`, or nothing. -/
inductive TargetSpelled : Option Name → List Lexeme → List Lexeme → Prop
  | none {x : List Lexeme} : TargetSpelled none x x
  | some {n a : Lexeme} {x : List Lexeme} :
      n.kind = .ident → a.kind = .assign → TargetSpelled (some n.name) (n :: a :: x) x

/-- The tokens spell an initial value, with or without a name in front, and at most a `;` behind it. -/
def SpellsInitializer (x : List Lexeme) (root : InitializerSource) : Prop :=
  ∃ x₁ y, TargetSpelled root.target x x₁ ∧ (InitPhrase.value root.value).Spelled x₁ y ∧ OptionalSemicolon y ∧
    root.span = spanBetween x y

theorem TargetSpelled.length_le {target : Option Name} {x y : List Lexeme} (h : TargetSpelled target x y) :
    y.length ≤ x.length := by
  cases h with
  | none => exact Nat.le_refl _
  | some _ _ =>
    simp only [List.length_cons]
    omega

theorem OptionalSemicolon.endsValue {y : List Lexeme} (h : OptionalSemicolon y) : (headKind y).endsValue = true := by
  rcases h.headKind_cases with hy | hy <;> rw [hy] <;> rfl

/-- An initial value that stands alone does not begin with a name and `:=`. -/
theorem InitPhrase.Spelled.not_target {v : Initializer} {x y : List Lexeme} (h : (InitPhrase.value v).Spelled x y)
    (hy : (headKind y).endsValue = true) {s : ParserState} (hs : s.rest = x) :
    ¬(s.kind = .ident ∧ s.kindAt 1 = .assign) := by
  rintro ⟨hk₀, hk₁⟩
  rw [ParserState.kindAt_one, ParserState.kind_eq_headKind] at hk₁
  obtain ⟨t, ht, htk⟩ := ParserState.exists_of_kind hk₀ (by decide)
  rw [hs] at ht
  cases h with
  | expr h =>
    have hbehind : behindOpening x = t :: s.advance.rest := by
      rw [ht, behindOpening_of_opensNothing (by rw [htk]; rfl)]
    rcases h.not_namesParam rfl hbehind htk with heq | h
    · rw [← heq, hk₁] at hy
      cases hy
    · rw [hk₁] at h
      cases h
  | array hl _ _ | record hl _ _ =>
    cases ht
    rw [hl] at htk
    cases htk

namespace Parser

variable {levels : Nat} {s s' : ParserState} {x y : List Lexeme}

/-! ## Sources -/

theorem units_complete {us : List ProgramUnit} (h : SpellsUnits x us) (hn : deepest ProgramUnit.nesting us ≤ levels) :
    Gives (collect (unitTurn levels)) x us [] :=
  row_complete turning_unitTurn h (fun u hu _ _ h => unitTurn_more h (deepest_le_iff.1 hn u hu)) unitTurn_last

theorem exists_reads_sourceFile_iff {stream : Stream} {file : SourceFile} :
    (∃ s', Reads (sourceFile levels) (.start stream) file s') ↔
      SpellsUnits stream.significant file.units ∧ deepest ProgramUnit.nesting file.units ≤ levels ∧
        file.span = stream.span := by
  rw [sourceFile]
  constructor
  · rintro ⟨s', h⟩
    rw [reads_offset_bind] at h
    obtain ⟨us, s₁, h₁, h⟩ := reads_bind_iff.1 h
    rw [reads_spanFrom_bind] at h
    obtain ⟨rfl, rfl⟩ := reads_pure.1 h
    obtain ⟨y, hus, ⟨rfl, hr⟩, hn⟩ := unitTurn_sound.row UnitSpelled.length_lt h₁
    exact ⟨hus, hn, spanFrom_of_passed h₁.passed hr⟩
  · rintro ⟨h, hn, hspan⟩
    obtain ⟨s₁, h₁, hr⟩ := units_complete h hn (.start stream) rfl
    refine ⟨s₁, reads_offset_bind.2 (h₁.bind (reads_spanFrom_bind.2 ?_))⟩
    rw [spanFrom_of_passed h₁.passed hr, ← hspan]
    exact reads_pure.2 ⟨rfl, rfl⟩

/-! ## Single units -/

/-- A root that reads what begins with a word of the kind `k`, and nothing behind it. -/
theorem reads_single {k : TokenKind} {rule : Parser α} [Lawful rule] {a : α} (h : Reads (do
    if ← sees k then
      let a ← rule
      expectEndOfInput
      return a
    else fail k.spelling) s a s') : s.kind = k ∧ ∃ s₁, Reads rule s a s₁ ∧ s₁.rest = [] := by
  rw [reads_sees_bind] at h
  split at h
  · next hk =>
    obtain ⟨a, s₁, h₁, h⟩ := reads_bind_iff.1 h
    obtain ⟨_, s₂, h₂, h⟩ := reads_bind_iff.1 h
    obtain ⟨rfl, rfl⟩ := reads_pure.1 h
    exact ⟨eq_of_beq hk, s₁, h₁, (reads_expectEndOfInput.1 h₂).1⟩
  · exact absurd h not_reads_fail

theorem algorithmRoot_spelled {a : Algorithm} (h : Reads (algorithmRoot levels) s a s') :
    UnitSpelled (.algorithm a) s.rest [] ∧ (ProgramUnit.algorithm a).nesting ≤ levels := by
  obtain ⟨hk, s₁, h, hr⟩ := reads_single h
  exact hr ▸ algorithm_sound hk h

theorem methodRoot_spelled {m : Method} (h : Reads (methodRoot levels) s m s') :
    UnitSpelled (.method m) s.rest [] ∧ (ProgramUnit.method m).nesting ≤ levels := by
  obtain ⟨hk, s₁, h, hr⟩ := reads_single h
  exact hr ▸ method_sound hk h

/-! ## Initial values -/

instance lawful_target? : Lawful target? := by
  unfold target?
  infer_instance

theorem target?_sound {target : Option Name} (h : Reads target? s target s') :
    TargetSpelled target s.rest s'.rest := by
  rw [target?, reads_get_bind] at h
  split at h
  · next hk =>
    have hk₁ := hk.2
    rw [ParserState.kindAt_one] at hk₁
    obtain ⟨n, hn, hnk⟩ := ParserState.exists_of_kind hk.1 (by decide)
    obtain ⟨a, ha, hak⟩ := ParserState.exists_of_kind hk₁ (by decide)
    rw [reads_take_bind_of_cons hn, reads_skip_bind] at h
    obtain ⟨rfl, rfl⟩ := reads_pure.1 h
    rw [hn, ha]
    exact .some hnk hak
  · obtain ⟨rfl, rfl⟩ := reads_pure.1 h
    exact .none

theorem target?_complete {target : Option Name} (h : TargetSpelled target x y)
    (hy : ∀ s : ParserState, s.rest = y → ¬(s.kind = .ident ∧ s.kindAt 1 = .assign)) : Gives target? x target y := by
  refine GivesFrom.gives (.get fun s hs => ?_)
  cases h with
  | none =>
    rw [if_neg (hy s hs)]
    exact .pure
  | some hn ha =>
    have hk₁ : s.kindAt 1 = .assign := by
      rw [ParserState.kindAt_one, ParserState.kind_of_cons (ParserState.advance_rest_of_cons hs), ha]
    rw [if_pos ⟨(ParserState.kind_of_cons hs).trans hn, hk₁⟩]
    exact .take (.skip .pure)

theorem exists_reads_initializerRoot_iff {root : InitializerSource} :
    (∃ s', Reads (initializerRoot levels) s root s') ↔
      SpellsInitializer s.rest root ∧ root.value.nesting ≤ levels := by
  rw [initializerRoot]
  constructor
  · rintro ⟨s', h⟩
    rw [reads_offset_bind] at h
    obtain ⟨target, s₁, h₁, h⟩ := reads_bind_iff.1 h
    obtain ⟨v, s₂, h₂, h⟩ := reads_bind_iff.1 h
    rw [reads_spanFrom_bind] at h
    obtain ⟨hend, rfl⟩ := exists_reads_end_iff.1 ⟨s', h⟩
    have htarget := target?_sound h₁
    obtain ⟨hv, hn⟩ := initializer_sound levels h₂
    refine ⟨⟨s₁.rest, s₂.rest, htarget, hv, hend, ?_⟩, hn⟩
    have := htarget.length_le
    have := hv.length_lt
    exact (h₁.passed.trans h₂.passed).spanFrom (by omega)
  · rintro ⟨⟨x₁, y, htarget, hv, hend, hspan⟩, hn⟩
    obtain ⟨s₁, h₁, rfl⟩ := target?_complete htarget (fun s hs => hv.not_target hend.endsValue hs) s rfl
    obtain ⟨s₂, h₂, rfl⟩ := initializer_complete hv hn (TokenKind.endsInitializer_of_endsValue hend.endsValue) s₁ rfl
    have := htarget.length_le
    have := hv.length_lt
    rw [← (h₁.passed.trans h₂.passed).spanFrom (by omega)] at hspan
    have hroot : root = ⟨root.target, root.value, s₂.spanFrom s.span.start⟩ := by rw [← hspan]
    obtain ⟨s', h⟩ := exists_reads_end_iff.2 ⟨hend, hroot⟩
    exact ⟨s', reads_offset_bind.2 (h₁.bind (h₂.bind (reads_spanFrom_bind.2 h)))⟩

end Parser

/-! ## No stream spells two trees -/

/-- Enough levels for both rows read one row only. -/
theorem SpellsUnits.unique {x : List Lexeme} {us us' : List ProgramUnit} (h : SpellsUnits x us)
    (h' : SpellsUnits x us') : us' = us :=
  (Parser.units_complete h' (Nat.le_max_right (deepest ProgramUnit.nesting us) _)).eq
    (Parser.units_complete h (Nat.le_max_left _ (deepest ProgramUnit.nesting us')))

theorem SpellsInitializer.unique {x : List Lexeme} {root root' : InitializerSource} (h : SpellsInitializer x root)
    (h' : SpellsInitializer x root') : root' = root := by
  let s : ParserState := ⟨[], 0, x, 0, []⟩
  obtain ⟨s₁, h₁⟩ := (Parser.exists_reads_initializerRoot_iff (s := s)).2
    ⟨h, Nat.le_max_left root.value.nesting root'.value.nesting⟩
  obtain ⟨s₂, h₂⟩ := (Parser.exists_reads_initializerRoot_iff (s := s)).2
    ⟨h', Nat.le_max_right root.value.nesting root'.value.nesting⟩
  exact (h₂.eq h₁).1

/-- The parsers of sources and of initial values are their grammars: each gives a tree without a diagnostic just if the
tokens spell the tree and nothing in it is nested deeper than allowed, and the tokens spell no other tree. -/
theorem parseSource_parseInitializer_clean_iff (s : Stream) :
    (∀ file, ((parseSource s).tree = some file ∧ (parseSource s).diagnostics = []) ↔
      SpellsUnits s.significant file.units ∧ deepest ProgramUnit.nesting file.units ≤ maxNesting ∧
        file.span = s.span) ∧
    (∀ us us', SpellsUnits s.significant us → SpellsUnits s.significant us' → us' = us) ∧
    (∀ root, ((parseInitializer s).tree = some root ∧ (parseInitializer s).diagnostics = []) ↔
      SpellsInitializer s.significant root ∧ root.value.nesting ≤ maxNesting) ∧
    ∀ root root', SpellsInitializer s.significant root → SpellsInitializer s.significant root' → root' = root :=
  ⟨fun _ => Parser.run_clean_iff.trans Parser.exists_reads_sourceFile_iff, fun _ _ => SpellsUnits.unique,
    fun _ => Parser.run_clean_iff.trans Parser.exists_reads_initializerRoot_iff, fun _ _ => SpellsInitializer.unique⟩

end StructuredText
