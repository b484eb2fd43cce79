import StructuredText.Proofs.Nodes.Decl
import StructuredText.Proofs.Nodes.Stmt

/-!
# The nodes of units

A body reads its blocks and statements in the order of the text, whatever is wrong with them, and a unit reads the one
node that they are put in (`stands_unit`). A missing name stands at the next token. If the body takes that token, the
name lies in the unit; if not, a word stands there that opens another unit (`exists_body`), and the unit is cut off.
-/

namespace StructuredText

/-- The nodes of a part of a body. -/
def BodyPart.nodes : BodyPart → List Node
  | block b => [.block b]
  | statements sts => sts.map .stmt

namespace Body

/-- The blocks of a body stand among its parts, in their order. -/
theorem blocks_sublist (parts : List BodyPart) :
    ((ofParts parts).blocks.map Node.block).Sublist (parts.flatMap BodyPart.nodes) := by
  induction parts with
  | nil => exact List.Sublist.slnil
  | cons part parts ih =>
    cases part with
    | block b => exact ih.cons_cons _
    | statements sts => exact ih.trans (List.sublist_append_right _ _)

/-- The statements of a body stand among its parts, in their order. -/
theorem statements_sublist (parts : List BodyPart) :
    ((ofParts parts).statements.map Node.stmt).Sublist (parts.flatMap BodyPart.nodes) := by
  induction parts with
  | nil => exact List.Sublist.slnil
  | cons part parts ih =>
    cases part with
    | block b => exact ih.cons _
    | statements sts =>
      rw [ofParts, List.map_append]
      exact (List.Sublist.refl _).append ih

end Body

namespace Parser

variable {levels : Nat} {unit : UnitKind} {s₀ s s₁ s' : ParserState} {acc : List Node}

/-! ## Bodies -/

theorem ne_eof_of_isVarKeyword {k : TokenKind} (h : k.isVarKeyword = true) : k ≠ .eof := by
  rintro rfl
  cases h

theorem yields_leadingBlockTurn (levels : Nat) (unit : UnitKind) :
    Yields (leadingBlockTurn levels unit) fun t => t.items.flatMap BodyPart.nodes := by
  intro s t s' h
  rw [leadingBlockTurn, bind_of_ok (kind_apply s)] at h
  split at h
  · next hk =>
    obtain ⟨b, s₁, hb, h⟩ := ok_bind_iff.1 h
    cases h
    exact stands_varBlock rfl (ne_eof_of_isVarKeyword hk) hb
  · cases h
    exact .refl s

theorem stands_bodyRest {part : BodyPart} {t : Turn BodyPart} (hs : Stands s₀ part.nodes s)
    (h : bodyRest levels unit part s = .ok t s') : Stands s₀ (t.items.flatMap BodyPart.nodes) s' := by
  have hpart : [part].flatMap BodyPart.nodes = part.nodes := by simp
  rw [bodyRest, bind_of_ok (get_apply s)] at h
  generalize s.rest = r at h
  split at h
  · exact absurd h not_ok_fail
  · split at h
    · rw [bind_of_ok (skip_apply s)] at h
      obtain ⟨_, s₁, -, hs, h⟩ := hs.skip.pass h
      cases h
      rwa [Turn.items, hpart]
    · split at h
      · next hk =>
        have hreport : Lawful (report .lateBlock) := lawful_report rfl
        obtain ⟨_, s₁, hs₁, hs, h⟩ := hs.pass h
        obtain ⟨b, s₂, hb, h⟩ := ok_bind_iff.1 h
        have hkind : s₁.kind = s.kind := by
          cases hs₁
          rfl
        cases h
        exact List.flatMap_cons ▸ hs.trans (stands_varBlock hkind (ne_eof_of_isVarKeyword hk) hb)
      · generalize s.kind = k at h
        split at h
        · obtain ⟨_, s₁, -, hs, h⟩ := hs.pass h
          cases h
          rw [Turn.items, hpart]
          exact hs.skip
        · obtain ⟨_, s₁, -, hs, h⟩ := hs.pass h
          cases h
          rw [Turn.items, hpart]
          exact hs.skip
        · obtain ⟨_, s₁, -, hs, h⟩ := hs.pass h
          cases h
          rwa [Turn.items, hpart]
        · obtain ⟨_, s₁, -, hs, h⟩ := hs.pass h
          cases h
          rwa [Turn.items, hpart]
        · have hreport : Lawful (report (.stray s.text)) := lawful_report rfl
          obtain ⟨_, s₁, -, hs, h⟩ := hs.pass h
          cases h
          rw [Turn.items, hpart]
          exact hs.skip

theorem yields_bodyTurn (levels : Nat) (unit : UnitKind) :
    Yields (bodyTurn levels unit) fun t => t.items.flatMap BodyPart.nodes := by
  intro s t s' h
  rw [bodyTurn_eq] at h
  obtain ⟨sts, s₁, -, hs, h⟩ := (Stands.refl s).bind (yields_statements levels) h
  have hs : Stands s (BodyPart.statements sts).nodes s₁ := hs
  exact stands_bodyRest hs h

/-- What stands behind statements and takes no token is a word that opens a unit. -/
theorem opensUnit_of_bodyRest {part : BodyPart} {t : Turn BodyPart} (h : bodyRest levels unit part s = .ok t s')
    (hlen : s'.rest.length = s.rest.length) : s.kind.opensUnit = true := by
  have hcontra {P : Prop} (hlt : s'.rest.length < s.rest.length) : P := absurd hlen (Nat.ne_of_lt hlt)
  rw [bodyRest, bind_of_ok (get_apply s)] at h
  generalize hr : s.rest = r at h
  split at h
  · exact absurd h not_ok_fail
  · split at h
    · rw [bind_of_ok (skip_apply s)] at h
      obtain ⟨_, s₁, heat, h⟩ := ok_bind_iff.1 h
      have hle := Lawful.length_le heat
      cases h
      exact hcontra (Nat.lt_of_le_of_lt hle (by simp [hr]))
    · split at h
      · next hk =>
        rw [bind_of_ok (report_apply .lateBlock s)] at h
        obtain ⟨b, s₁, hb, h⟩ := ok_bind_iff.1 h
        have hkind : (s.report .lateBlock s.span).kind = s.kind := rfl
        have hlt := length_lt_of_varBlock hkind (ne_eof_of_isVarKeyword hk) hb
        cases h
        exact hcontra hlt
      · generalize s.kind = k at h ⊢
        split at h
        · cases h
          exact hcontra (by simp [hr])
        · cases h
          exact hcontra (by simp [hr])
        · rfl
        · rfl
        · cases h
          exact hcontra (by simp [hr])

/-- A loop that ends takes a first turn, which leaves at least the tokens that the loop leaves. -/
theorem exists_first_turn {s s' : ParserState} {turn : Parser (Turn α)} [Lawful turn] {as : List α}
    (h : collect turn s = .ok as s') : ∃ t s₁, turn s = .ok t s₁ ∧ s'.rest.length ≤ s₁.rest.length := by
  have h : collectWithin turn s.rest s = .ok as s' := h
  cases hr : s.rest with
  | nil =>
    rw [hr, collectWithin_nil] at h
    obtain ⟨t, s₁, ht, h⟩ := ok_bind_iff.1 h
    cases h
    exact ⟨t, _, ht, Nat.le_refl _⟩
  | cons u left =>
    rw [hr, collectWithin_cons] at h
    obtain ⟨t, s₁, ht, h⟩ := ok_bind_iff.1 h
    have hlaw : Lawful (collectWithin turn left) := lawful_collectWithin left
    have := closed_lawful.collectAfter hlaw t
    exact ⟨t, s₁, ht, Lawful.length_le h⟩

/-- A body is put together from parts that were read one behind the other. One that takes no token stands in front of a
word that opens a unit. -/
theorem exists_body {b : Body} (h : body levels unit s = .ok b s') :
    ∃ parts, b = .ofParts parts ∧ Stands s (parts.flatMap BodyPart.nodes) s' ∧
      (s'.rest.length = s.rest.length → s.kind.opensUnit = true) := by
  obtain ⟨leading, s₁, -, hs, h⟩ :=
    (Stands.refl s).bind (.collect (fun _ _ => List.flatMap_append) (yields_leadingBlockTurn levels unit)) h
  obtain ⟨parts, s₂, hparts, hs', h⟩ :=
    hs.bind (.collect (fun _ _ => List.flatMap_append) (yields_bodyTurn levels unit)) h
  cases h
  refine ⟨leading ++ parts, rfl, by simpa using hs', fun hlen => ?_⟩
  obtain ⟨t, s₃, ht, hle⟩ := exists_first_turn hparts
  rw [bodyTurn_eq] at ht
  obtain ⟨sts, s₄, hsts, hrest⟩ := ok_bind_iff.1 ht
  have hs₁ := hs.length_le
  have hs₄ := Lawful.length_le hsts
  have hs₃ := Lawful.length_le hrest
  have hkind : s₄.kind = s.kind := by
    obtain ⟨ts, hrun⟩ := (hs.trans (yields_statements levels hsts)).run
    obtain rfl := hrun.eq_nil (by omega)
    rw [ParserState.kind_eq_headKind, ParserState.kind_eq_headKind, hrun.rest_eq, List.nil_append]
  rw [← hkind]
  exact opensUnit_of_bodyRest hrest (by omega)

/-! ## Units -/

/-- The name of a unit is the next token, or stands in front of it. -/
theorem unitName_cases {name : Name} (h : unitName s = .ok name s') :
    Stands s [.name name] s' ∨ name = ⟨"", .empty s'.span.start⟩ ∧ Run s [] s' := by
  rw [unitName, bind_of_ok (sees_apply .ident s)] at h
  split at h
  · next hk =>
    cases h
    exact .inl ((Stands.refl s).take (eq_of_beq hk) (by decide))
  · rw [bind_of_ok (atEnd_apply s)] at h
    split at h
    · exact absurd h not_ok_fail
    · cases h
      exact .inr ⟨rfl, Run.stay.report rfl .here⟩

/-- What a unit is put together from: its name, the parts of its header and its body behind the name, and its span. -/
structure MadeOf (u : ProgramUnit) (type : List Node) (parts : List BodyPart) (span : Span) : Prop where
  header : u.header = .name u.name :: type
  body : u.body = .ofParts parts
  span : u.span = span

namespace MadeOf

variable {u : ProgramUnit} {type : List Node} {parts : List BodyPart} {span : Span} (h : MadeOf u type parts span)

include h

theorem rows_sublist : ∀ row ∈ (Node.unit u).rows,
    ∃ row', row = .name u.name :: row' ∧ row'.Sublist (type ++ parts.flatMap BodyPart.nodes) := by
  have hblocks := (List.Sublist.refl type).append (Body.blocks_sublist parts)
  have hstatements := (List.Sublist.refl type).append (Body.statements_sublist parts)
  simp only [Node.rows, h.header, h.body, List.cons_append, List.mem_cons, List.not_mem_nil, or_false, forall_eq_or_imp,
    forall_eq]
  exact ⟨⟨_, rfl, hblocks⟩, ⟨_, rfl, hstatements⟩⟩

theorem children_subset : (Node.unit u).children ⊆ .name u.name :: (type ++ parts.flatMap BodyPart.nodes) := by
  have hblocks := (Body.blocks_sublist parts).subset
  have hstatements := (Body.statements_sublist parts).subset
  simp only [Node.children, h.header, h.body, List.cons_append]
  refine List.cons_subset_cons _ (List.append_subset.2 ⟨List.append_subset.2 ⟨?_, ?_⟩, ?_⟩)
  · exact List.subset_append_left _ _
  · exact fun n hn => List.mem_append_right _ (hblocks hn)
  · exact fun n hn => List.mem_append_right _ (hstatements hn)

theorem children_of_nil (hnil : type ++ parts.flatMap BodyPart.nodes = []) :
    (Node.unit u).children = [.name u.name] := by
  obtain ⟨rfl, hparts⟩ := List.append_eq_nil_iff.1 hnil
  have hblocks := Body.blocks_sublist parts
  have hstatements := Body.statements_sublist parts
  rw [hparts, List.sublist_nil] at hblocks hstatements
  rw [Node.children, h.header, h.body, hblocks, hstatements]
  rfl

end MadeOf

section

variable {u : ProgramUnit} {type : List Node} {parts : List BodyPart}

theorem ne_eof_of_opensUnit {k : TokenKind} (h : k.opensUnit = true) : k ≠ .eof := by
  rintro rfl
  cases h

/-- A unit whose missing name stands in front of tokens that its body takes is nested. -/
theorem nested_of_unnamed (hin : s.InOrder) {ts : List Lexeme} (hrun : Run s ts s₁)
    (hname : u.name = ⟨"", .empty s₁.span.start⟩) (hs : Stands s₁ (type ++ parts.flatMap BodyPart.nodes) s')
    (hu : MadeOf u type parts (s'.spanFrom s.span.start)) (hlt : s'.rest.length < s₁.rest.length) :
    (Node.unit u).Nested := by
  have hin₁ := hrun.inOrder hin
  have hstart := hrun.start_mono hin
  have hend := hs.start_lt hin₁ hlt
  have hspan : (Node.unit u).span = ⟨s.span.start, s'.lastStop⟩ :=
    hu.span.trans (ParserState.spanFrom_of_le (by omega))
  have hnameSpan : (Node.name u.name).span = .empty s₁.span.start := by rw [hname]; rfl
  refine ⟨fun c hc => ?_, fun row hrow => ?_⟩
  · rw [Node.Within, hspan]
    rcases List.mem_cons.1 (hu.children_subset hc) with rfl | hc
    · rw [hnameSpan]
      exact ⟨hstart, Nat.le_of_lt hend⟩
    · obtain ⟨hc₁, -, hc₂⟩ := hs.between hin₁ c hc
      exact ⟨Nat.le_trans hstart hc₁, hc₂⟩
  · obtain ⟨row', rfl, hsub⟩ := hu.rows_sublist row hrow
    refine List.pairwise_cons.2 ⟨fun c hc => ?_, (hs.before hin₁).sublist hsub⟩
    rw [Node.Before, hnameSpan]
    exact (hs.between hin₁ c (hsub.subset hc)).start_le

/-- A unit without a name whose body takes no token is cut off. -/
theorem cutOff_of_unnamed (hin : s.InOrder) (hk : s.kind.opensUnit = true) (hrun : Run s.advance [] s₁)
    (hname : u.name = ⟨"", .empty s₁.span.start⟩) (hs : Stands s₁ (type ++ parts.flatMap BodyPart.nodes) s')
    (hu : MadeOf u type parts (s'.spanFrom s.span.start)) (hlen : s'.rest.length = s₁.rest.length)
    (hk₁ : s₁.kind.opensUnit = true) : u.CutOff s.rest := by
  obtain ⟨w, hw, hwk⟩ := ParserState.exists_of_kind (rfl : s.kind = s.kind) (ne_eof_of_opensUnit hk)
  obtain ⟨k, hkr, hkk⟩ := ParserState.exists_of_kind (rfl : s₁.kind = s₁.kind) (ne_eof_of_opensUnit hk₁)
  have hrest : s.rest = [w, k] ++ s₁.advance.rest := by rw [hw, hrun.rest_eq, hkr]; rfl
  have hrunw : Run s [w] s₁ := (Run.stay.take hw).trans hrun
  obtain ⟨ts, hrun'⟩ := hs.run
  obtain rfl := hrun'.eq_nil hlen
  have hlast : s'.lastStop = w.span.stop := by
    rw [hrun'.lastStop_eq, hrunw.lastStop_eq]
    rfl
  refine .mk ⟨[], _, hrest.symm⟩ (by rwa [hwk]) (by rwa [hkk]) ?_ ?_
  · have hcovers := hin.covers (t := w) (by rw [hw]; exact List.mem_cons_self)
    have hle : s.span.start ≤ s'.lastStop := by
      rw [ParserState.span_of_cons hw, hlast]
      exact Nat.le_of_lt hcovers.lt
    rw [hu.span, ParserState.spanFrom_of_le hle, hlast, ParserState.span_of_cons hw]
  · rw [hu.children_of_nil (hs.eq_nil (hrunw.inOrder hin) hlen), hname, ParserState.span_of_cons hkr]

/-- A unit without a name is nested if its body takes a token, and cut off if not. -/
theorem stands_unnamed (hk : s.kind.opensUnit = true) (hrun : Run s.advance [] s₁)
    (hname : u.name = ⟨"", .empty s₁.span.start⟩) (hs : Stands s₁ (type ++ parts.flatMap BodyPart.nodes) s')
    (hu : MadeOf u type parts (s'.spanFrom s.span.start))
    (hcut : s'.rest.length = s₁.rest.length → s₁.kind.opensUnit = true) : Stands s [.unit u] s' := by
  have hrun₁ : Run s (s.rest.take 1) s₁ := by simpa using (Run.advance s).trans hrun
  have hall := (Stands.of_run hrun₁).trans hs
  have hlt : s'.rest.length < s.rest.length := by
    have hle := hs.length_le
    have hrest := hrun.length_le
    have hadvance := ParserState.length_advance (rfl : s.kind = s.kind) (ne_eof_of_opensUnit hk)
    omega
  have hchildren {P : Node → Prop} (hname : P (.name u.name))
      (hparts : ∀ n ∈ type ++ parts.flatMap BodyPart.nodes, n.Every P) : ∀ c ∈ (Node.unit u).children, c.Every P := by
    intro c hc
    rcases List.mem_cons.1 (hu.children_subset hc) with rfl | hc
    · exact Node.every_iff.2 ⟨hname, nofun⟩
    · exact hparts c hc
  refine ⟨hall.run, ?_, fun hin => ?_, fun hin => ?_, fun _ => List.pairwise_singleton _ _⟩
  · exact List.forall_mem_singleton.2 (Node.every_iff.2 ⟨trivial, hchildren trivial hs.shaped⟩)
  · have hfits : (Node.unit u).Fits s.rest := by
      by_cases hlen : s'.rest.length = s₁.rest.length
      · exact .inr ⟨u, rfl, cutOff_of_unnamed hin hk hrun hname hs hu hlen (hcut hlen)⟩
      · have hle := hs.length_le
        exact .inl (nested_of_unnamed hin hrun₁ hname hs hu (by omega))
    have hleaf : (Node.name u.name).Fits s.rest := .inl ⟨nofun, List.forall_mem_singleton.2 .nil⟩
    exact List.forall_mem_singleton.2 (Node.every_iff.2 ⟨hfits, hchildren hleaf (hall.fits hin)⟩)
  · have hend := hall.start_lt hin hlt
    have hspan : (Node.unit u).span = ⟨s.span.start, s'.lastStop⟩ :=
      hu.span.trans (ParserState.spanFrom_of_le (Nat.le_of_lt hend))
    refine List.forall_mem_singleton.2 ⟨?_, ?_, ?_⟩
    · rw [hspan]
    · rwa [hspan]
    · rw [hspan]

end

theorem stands_unit {u : ProgramUnit} {type : List Node} {parts : List BodyPart} (hk : s.kind.opensUnit = true)
    (hname : unitName s.advance = .ok u.name s₁) (hs : Stands s₁ (type ++ parts.flatMap BodyPart.nodes) s')
    (hu : MadeOf u type parts (s'.spanFrom s.span.start))
    (hcut : s'.rest.length = s₁.rest.length → s₁.kind.opensUnit = true) : Stands s [.unit u] s' := by
  rcases unitName_cases hname with h | ⟨hname, hrun⟩
  · have hs := ((Stands.refl s).skip.trans h).trans hs
    refine hs.close_of_lt (fun hin => hs.start_lt_of_mem hin List.mem_cons_self) hu.span trivial hu.children_subset ?_
    intro row hrow
    obtain ⟨row', rfl, hsub⟩ := hu.rows_sublist row hrow
    exact hsub.cons_cons _
  · exact stands_unnamed hk hrun hname hs hu hcut

theorem stands_algorithm {a : Algorithm} (hk : s.kind = .kwAlgorithm) (h : algorithm levels s = .ok a s') :
    Stands s [.unit (.algorithm a)] s' := by
  rw [algorithm_apply] at h
  obtain ⟨name, s₁, hname, h⟩ := ok_bind_iff.1 h
  obtain ⟨body, s₂, hbody, h⟩ := ok_bind_iff.1 h
  obtain ⟨parts, rfl, hs, hcut⟩ := exists_body hbody
  cases h
  have hu : MadeOf (.algorithm ⟨name, .ofParts parts, s'.spanFrom s.span.start⟩) [] parts _ := ⟨rfl, rfl, rfl⟩
  exact stands_unit (by rw [hk]) hname hs hu hcut

theorem yields_returnType? (levels : Nat) : Yields (returnType? levels) fun o => o.toList.map .type := by
  refine .pass fun more => ?_
  split
  · exact .orRecover (Yields.then (f := some) (yields_typeRef levels)) (.pure rfl)
  · exact .pure rfl

theorem stands_method {m : Method} (hk : s.kind = .kwMethod) (h : method levels s = .ok m s') :
    Stands s [.unit (.method m)] s' := by
  rw [method_apply] at h
  obtain ⟨name, s₁, hname, h⟩ := ok_bind_iff.1 h
  obtain ⟨type, s₂, htype, h⟩ := ok_bind_iff.1 h
  obtain ⟨body, s₃, hbody, h⟩ := ok_bind_iff.1 h
  obtain ⟨parts, rfl, hs, hcut⟩ := exists_body hbody
  have htype := yields_returnType? levels htype
  have hle := htype.length_le
  have hle' := hs.length_le
  cases h
  refine stands_unit (by rw [hk]) hname (htype.trans hs) ⟨rfl, rfl, rfl⟩ fun hlen => ?_
  obtain ⟨ts, hrun⟩ := htype.run
  obtain rfl := hrun.eq_nil (by omega)
  have hopens := hcut (by omega)
  rwa [ParserState.kind_eq_headKind, hrun.rest_eq, List.nil_append, ← ParserState.kind_eq_headKind]

/-! ## Whole streams -/

theorem yields_unitTurn (levels : Nat) : Yields (unitTurn levels) fun t => t.items.map .unit := by
  intro s t s' h
  rw [unitTurn, bind_of_ok (get_apply s)] at h
  generalize s.rest = r at h
  split at h
  · cases h
    exact .refl s
  · generalize hk : s.kind = k at h
    split at h
    · obtain ⟨a, s₁, ha, h⟩ := ok_bind_iff.1 h
      cases h
      exact stands_algorithm hk ha
    · obtain ⟨m, s₁, hm, h⟩ := ok_bind_iff.1 h
      cases h
      exact stands_method hk hm
    · obtain ⟨_, s₁, -, hs, h⟩ := (Stands.refl s).pass h
      obtain ⟨_, s₂, -, hs, h⟩ := hs.pass h
      cases h
      exact hs

theorem yields_statementsTurn (levels : Nat) : Yields (statementsTurn levels) fun t => t.items.map .stmt := by
  intro s t s' h
  obtain ⟨sts, s₁, -, hs, h⟩ := (Stands.refl s).bind (yields_statements levels) h
  rw [bind_of_ok (get_apply s₁)] at h
  generalize s₁.rest = r at h
  split at h
  · cases h
    exact hs
  · have hreport : Lawful (report (.strayOutside s₁.text)) := lawful_report rfl
    obtain ⟨_, s₂, -, hs, h⟩ := hs.pass h
    cases h
    exact hs.skip

/-! ## Roots -/

/-- What holds of a tree: its nodes are well shaped, and if the tokens stand in order, they are nested but for units
that are cut off. -/
structure Rooted (s : ParserState) (n : Node) : Prop where
  shaped : n.Every Node.WellShaped
  fits : s.InOrder → n.Every (Node.Fits s.rest)

theorem Rooted.of_stands {n : Node} (h : Stands s [n] s') : Rooted s n where
  shaped := h.shaped n (List.mem_singleton_self n)
  fits hs := h.fits hs n (List.mem_singleton_self n)

/-- A root may be empty, but it spans the nodes below it. -/
theorem Rooted.close {n : Node} (h : Stands s n.children s') (hspan : n.span = s'.spanFrom s.span.start)
    (hrows : n.rows = [n.children]) (hshape : n.WellShaped) : Rooted s n where
  shaped := Node.every_iff.2 ⟨hshape, h.shaped⟩
  fits hs := by
    refine Node.every_iff.2 ⟨.inl ⟨fun c hc => ?_, ?_⟩, h.fits hs⟩
    · obtain ⟨h₁, -, h₂⟩ := h.between hs c hc
      rw [Node.Within, hspan]
      exact ⟨h₁, Nat.le_trans h₂ (Nat.le_max_left _ _)⟩
    · simpa [hrows] using h.before hs

theorem rooted_sourceFile {file : SourceFile} (h : sourceFile levels s = .ok file s') : Rooted s (.source file) := by
  rw [sourceFile, bind_of_ok (offset_apply s)] at h
  obtain ⟨units, s₁, -, hs, h⟩ := (Stands.refl s).bind (.collect_map (yields_unitTurn levels)) h
  cases h
  exact .close hs rfl rfl trivial

theorem rooted_algorithmRoot {a : Algorithm} (h : algorithmRoot levels s = .ok a s') :
    Rooted s (.unit (.algorithm a)) := by
  rw [algorithmRoot, bind_of_ok (sees_apply .kwAlgorithm s)] at h
  split at h
  · next hk =>
    obtain ⟨a, s₁, ha, h⟩ := ok_bind_iff.1 h
    obtain ⟨_, s₂, -, h⟩ := ok_bind_iff.1 h
    cases h
    exact .of_stands (stands_algorithm (eq_of_beq hk) ha)
  · exact absurd h not_ok_fail

theorem rooted_methodRoot {m : Method} (h : methodRoot levels s = .ok m s') : Rooted s (.unit (.method m)) := by
  rw [methodRoot, bind_of_ok (sees_apply .kwMethod s)] at h
  split at h
  · next hk =>
    obtain ⟨m, s₁, hm, h⟩ := ok_bind_iff.1 h
    obtain ⟨_, s₂, -, h⟩ := ok_bind_iff.1 h
    cases h
    exact .of_stands (stands_method (eq_of_beq hk) hm)
  · exact absurd h not_ok_fail

theorem rooted_statementRoot {list : StatementList} (h : statementRoot levels s = .ok list s') :
    Rooted s (.statements list) := by
  rw [statementRoot, bind_of_ok (offset_apply s)] at h
  obtain ⟨sts, s₁, -, hs, h⟩ := (Stands.refl s).bind (.collect_map (yields_statementsTurn levels)) h
  cases h
  exact .close hs rfl rfl trivial

theorem rooted_expressionRoot {e : Expr} (h : expressionRoot levels s = .ok e s') : Rooted s (.expr e) := by
  obtain ⟨e, s₁, -, hs, h⟩ := (Stands.refl s).bind (yields_expr levels) h
  obtain ⟨_, s₂, -, h⟩ := ok_bind_iff.1 h
  obtain ⟨_, s₃, -, h⟩ := ok_bind_iff.1 h
  cases h
  exact .of_stands hs

theorem yields_target? : Yields target? fun o => o.toList.map .name := by
  intro s o s' h
  rw [target?, bind_of_ok (get_apply s)] at h
  split at h
  · next hk =>
    cases h
    exact ((Stands.refl s).take hk.1 (by decide)).skip
  · cases h
    exact .refl s

theorem rooted_initializerRoot {i : InitializerSource} (h : initializerRoot levels s = .ok i s') :
    Rooted s (.initializer i) := by
  rw [initializerRoot, bind_of_ok (offset_apply s)] at h
  obtain ⟨target, s₁, -, hs, h⟩ := (Stands.refl s).bind yields_target? h
  obtain ⟨value, s₂, -, hs, h⟩ := hs.bind (yields_initializer levels) h
  rw [bind_of_ok (spanFrom_apply _ _)] at h
  obtain ⟨_, s₃, -, h⟩ := ok_bind_iff.1 h
  obtain ⟨_, s₄, -, h⟩ := ok_bind_iff.1 h
  cases h
  exact .close hs rfl rfl trivial

end Parser

/-- Whatever the stream is read as, the tree has the shape the grammar asks for, and is nested if the tokens stand in
order. -/
theorem parse_rooted {entry : Entry} {stream : Stream} {tree : Tree} (h : (parse entry stream).tree = some tree) :
    Parser.Rooted (.start stream) tree.root := by
  have hroot {α : Type} {rule : Parser α} {f : α → Tree} (hrule : ∀ {a s'}, rule (.start stream) = .ok a s' →
      Parser.Rooted (.start stream) (f a).root) (h : ((rule.run stream).map f).tree = some tree) :
      Parser.Rooted (.start stream) tree.root := by
    cases hr : rule (.start stream) with
    | ok a s' =>
      rw [Parser.run_of_ok hr] at h
      cases h
      exact hrule hr
    | error e s' =>
      rw [Parser.run_of_error hr] at h
      cases h
  cases entry with
  | source => exact hroot Parser.rooted_sourceFile h
  | algorithm => exact hroot Parser.rooted_algorithmRoot h
  | method => exact hroot Parser.rooted_methodRoot h
  | statements => exact hroot Parser.rooted_statementRoot h
  | expression => exact hroot Parser.rooted_expressionRoot h
  | initializer => exact hroot Parser.rooted_initializerRoot h

end StructuredText
