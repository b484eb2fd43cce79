import StructuredText.Proofs.ParseExpression
import StructuredText.Proofs.Spans.Decl

/-!
# Spans of trees without errors

If a text is read without a diagnostic, every node of the tree spans the tokens that spell it, from the beginning of the
first one to the end of the last one. So the nodes below a node lie inside it, one behind the other (`parse_precise`).
-/

namespace StructuredText

variable {text : String} {x y : List Lexeme}

/-! ## Roots -/

/-- A root that is spelled by all tokens of the text. It may be empty. -/
theorem Laid.root {n : Node} (h : Laid text n.children (Stream.ofText text).significant [])
    (hspelled : n.Spelled (Stream.ofText text).significant []) (hspan : n.span = (Stream.ofText text).span) :
    n.Every (Node.Precise text) := by
  rw [Stream.span] at hspan
  cases hr : (Stream.ofText text).significant with
  | nil =>
    rw [hr] at h hspelled hspan
    have hchildren : n.children = [] := by
      refine List.eq_nil_iff_forall_not_mem.2 fun c hc => ?_
      exact Nat.lt_irrefl 0 (h.encloses c hc).1
    have hexact : n.Exact text := by
      refine .empty hr hspelled ?_
      rw [hspan, Stream.stop_ofText]
    exact Node.every_iff.2 ⟨⟨hexact, by simp [hchildren], h.before⟩, h.precise⟩
  | cons t ts =>
    rw [hr] at h hspelled hspan
    have hbetween := spanBetween_append (t :: ts) []
    rw [List.append_nil] at hbetween
    have hfills := h.node rfl hspelled (hspan.trans hbetween.symm) (Nat.zero_lt_succ _)
    exact hfills.laid.precise n (List.mem_singleton_self n)

theorem TargetSpelled.laid {target : Option Name} (h : TargetSpelled target x y) (hx : EndsText text x) :
    Laid text (target.toList.map .name) x y := by
  cases h with
  | none => exact .refl hx
  | some hn _ => exact (Fills.ident hx hn).laid.token

namespace Parser

variable {levels : Nat} {s s' : ParserState}

theorem algorithmRoot_sound {a : Algorithm} (h : Reads (algorithmRoot levels) s a s') :
    ∃ y, UnitSpelled (.algorithm a) s.rest y := ⟨[], (algorithmRoot_spelled h).1⟩

theorem methodRoot_sound {m : Method} (h : Reads (methodRoot levels) s m s') :
    ∃ y, UnitSpelled (.method m) s.rest y := ⟨[], (methodRoot_spelled h).1⟩

end Parser

/-! ## Parses -/

/-- A text that is read without a diagnostic has a tree whose nodes span exactly the tokens that spell them. -/
theorem parse_precise {entry : Entry} {text : String} {tree : Tree}
    (htree : (parse entry (.ofText text)).tree = some tree) (hclean : (parse entry (.ofText text)).diagnostics = []) :
    ∀ n : Node, n.Inside tree.root → n.Precise text := by
  have hx : EndsText text (Stream.ofText text).significant := List.suffix_rfl
  have hroot {α : Type} {rule : Parser α} {f : α → Tree}
      (hrule : ∀ {a s'}, Parser.Reads rule (.start (.ofText text)) a s' → (f a).root.Every (Node.Precise text))
      (htree : ((rule.run (.ofText text)).map f).tree = some tree)
      (hclean : ((rule.run (.ofText text)).map f).diagnostics = []) : tree.root.Every (Node.Precise text) := by
    obtain ⟨a, ha, rfl⟩ := Option.map_eq_some_iff.1 htree
    obtain ⟨s', h⟩ := Parser.run_clean_iff.1 ⟨ha, hclean⟩
    exact hrule h
  cases entry with
  | source =>
    refine hroot (fun h => ?_) htree hclean
    obtain ⟨hunits, -, hspan⟩ := Parser.exists_reads_sourceFile_iff.1 ⟨_, h⟩
    refine Laid.root ?_ ⟨hunits, rfl⟩ hspan
    rw [Tree.root, Node.children, List.map_eq_flatMap]
    exact hunits.laid (fun h hx => (h.fills hx).laid) hx
  | algorithm =>
    refine hroot (fun h => ?_) htree hclean
    obtain ⟨y, hunit⟩ := Parser.algorithmRoot_sound h
    exact (hunit.fills hx).laid.precise _ (List.mem_singleton_self _)
  | method =>
    refine hroot (fun h => ?_) htree hclean
    obtain ⟨y, hunit⟩ := Parser.methodRoot_sound h
    exact (hunit.fills hx).laid.precise _ (List.mem_singleton_self _)
  | statements =>
    refine hroot (fun h => ?_) htree hclean
    obtain ⟨hsts, -, hspan⟩ := Parser.exists_reads_statementRoot_iff.1 ⟨_, h⟩
    exact Laid.root (StmtPhrase.Spelled.laid hsts hx) ⟨hsts, rfl⟩ hspan
  | expression =>
    refine hroot (fun h => ?_) htree hclean
    obtain ⟨⟨y, he, -⟩, -⟩ := Parser.exists_reads_expressionRoot_iff.1 ⟨_, h⟩
    exact (he.laid hx).precise _ (List.mem_singleton_self _)
  | initializer =>
    refine hroot (fun h => ?_) htree hclean
    obtain ⟨⟨x₁, y, htarget, hvalue, hend, hspan⟩, -⟩ := Parser.exists_reads_initializerRoot_iff.1 ⟨_, h⟩
    have hlt := Nat.lt_of_lt_of_le hvalue.length_lt htarget.length_le
    have hlaid := (htarget.laid hx).andThen hvalue.laid
    have hfills := hlaid.node (n := .initializer _) rfl ⟨x₁, htarget, hvalue, hend⟩ hspan hlt
    exact hfills.laid.precise _ (List.mem_singleton_self _)

/-- An assignment with a typed literal, and an empty block with a `;` behind it. -/
def typedText : String := "x := INT#-1 * y; IF x THEN END_IF;"

/-- The tree of the assignment and the block. -/
def typedTree : Tree :=
  .statements ⟨[
    .assign (.name ⟨"x", ⟨0, 1⟩⟩)
      (.binary .mul (.literal ⟨.integer, some ⟨"INT", ⟨5, 8⟩⟩, "-1", ⟨5, 11⟩⟩) (.name ⟨"y", ⟨14, 15⟩⟩) ⟨5, 15⟩) ⟨0, 16⟩,
    .ifThen (.name ⟨"x", ⟨20, 21⟩⟩) [] [] none ⟨17, 34⟩], ⟨0, 34⟩⟩

theorem parse_precise_typed :
    (parse .statements (.ofText typedText)).tree = some typedTree ∧
    (parse .statements (.ofText typedText)).diagnostics = [] ∧
    ∀ n : Node, n.Inside typedTree.root → n.Precise typedText := by
  have htree : (parse .statements (.ofText typedText)).tree = some typedTree := rfl
  have hclean : (parse .statements (.ofText typedText)).diagnostics = [] := rfl
  exact ⟨htree, hclean, parse_precise htree hclean⟩

end StructuredText
