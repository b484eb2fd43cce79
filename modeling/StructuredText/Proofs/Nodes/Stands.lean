import StructuredText.Proofs.Nodes
import StructuredText.Proofs.Order

/-!
# Nodes between two states

`Stands s ns s'` says that a run from `s` to `s'` read the nodes `ns`, one behind the other: all nodes inside them have
the shape the grammar asks for, and if the tokens stand in order, so do the nodes, between the beginning of the first
token taken and the end of the last one, and their nodes inside them.

Two rules one after the other read the nodes of both (`Stands.trans`, `Stands.bind`). Where a rule makes one node of
what it has read, the node takes the place of the nodes below it (`Stands.close`, `Stands.cover`).
-/

namespace StructuredText

/-- The node covers something, and lies between two offsets. -/
structure Node.Between (start stop : Nat) (n : Node) : Prop where
  start_le : start ≤ n.span.start
  lt : n.span.start < n.span.stop
  stop_le : n.span.stop ≤ stop

/-- A run reads the nodes, well shaped and one behind the other. -/
structure Stands (s : ParserState) (ns : List Node) (s' : ParserState) : Prop where
  run : ∃ ts, Run s ts s'
  shaped : ∀ n ∈ ns, n.Every Node.WellShaped
  fits : s.InOrder → ∀ n ∈ ns, n.Every (Node.Fits s.rest)
  between : s.InOrder → ∀ n ∈ ns, n.Between s.span.start s'.lastStop
  before : s.InOrder → ns.Pairwise Node.Before

namespace Stands

variable {s₀ s s₁ s' : ParserState} {ns ms acc : List Node}

theorem of_run {ts : List Lexeme} (h : Run s ts s') : Stands s [] s' :=
  ⟨⟨ts, h⟩, nofun, fun _ => nofun, fun _ => nofun, fun _ => .nil⟩

theorem refl (s : ParserState) : Stands s [] s := of_run .stay

theorem length_le (h : Stands s ns s') : s'.rest.length ≤ s.rest.length := h.run.choose_spec.length_le

/-- A run that takes a token leaves its beginning behind. -/
theorem start_lt (h : Stands s ns s') (hs : s.InOrder) (hlt : s'.rest.length < s.rest.length) :
    s.span.start < s'.lastStop := by
  obtain ⟨ts, hrun⟩ := h.run
  refine hrun.start_lt hs ?_
  rintro rfl
  rw [hrun.rest_eq] at hlt
  exact Nat.lt_irrefl _ hlt

/-- A run that reads a node leaves its beginning behind. -/
theorem start_lt_of_mem {n : Node} (h : Stands s ns s') (hs : s.InOrder) (hn : n ∈ ns) :
    s.span.start < s'.lastStop := by
  obtain ⟨hstart, hlt, hstop⟩ := h.between hs n hn
  omega

/-- A run that takes no token reads no node. -/
theorem eq_nil (h : Stands s ns s') (hs : s.InOrder) (hlen : s'.rest.length = s.rest.length) : ns = [] := by
  obtain ⟨ts, hrun⟩ := h.run
  obtain rfl := hrun.eq_nil hlen
  have hlast : s'.lastStop = s.lastStop := hrun.lastStop_eq
  have hle := hs.lastStop_le
  refine List.eq_nil_iff_forall_not_mem.2 fun n hn => ?_
  have := h.start_lt_of_mem hs hn
  omega

theorem trans (h : Stands s ns s₁) (h' : Stands s₁ ms s') : Stands s (ns ++ ms) s' := by
  obtain ⟨ts, hrun⟩ := h.run
  obtain ⟨us, hrun'⟩ := h'.run
  refine ⟨⟨_, hrun.trans hrun'⟩, ?_, fun hs => ?_, fun hs => ?_, fun hs => ?_⟩
  · exact List.forall_mem_append.2 ⟨h.shaped, h'.shaped⟩
  · have hfits := h'.fits (hrun.inOrder hs)
    exact List.forall_mem_append.2 ⟨h.fits hs, fun n hn => (hfits n hn).mono fun _ h => h.mono hrun.rest_suffix⟩
  · have hle := hrun'.lastStop_mono (hrun.inOrder hs)
    have hstart := hrun.start_mono hs
    refine List.forall_mem_append.2 ⟨fun n hn => ?_, fun n hn => ?_⟩
    · obtain ⟨h₁, h₂, h₃⟩ := h.between hs n hn
      exact ⟨h₁, h₂, Nat.le_trans h₃ hle⟩
    · obtain ⟨h₁, h₂, h₃⟩ := h'.between (hrun.inOrder hs) n hn
      exact ⟨Nat.le_trans hstart h₁, h₂, h₃⟩
  · have hs₁ := hrun.inOrder hs
    refine List.pairwise_append.2 ⟨h.before hs, h'.before hs₁, fun n hn m hm => ?_⟩
    exact Nat.le_trans (h.between hs n hn).stop_le (Nat.le_trans hs₁.lastStop_le (h'.between hs₁ m hm).start_le)

/-- A report changes nothing of it. -/
theorem report {problem : Problem} {span : Span} (h : Stands s ns s') (hrun : ∃ ts, Run s ts (s'.report problem span)) :
    Stands s ns (s'.report problem span) :=
  ⟨hrun, h.shaped, h.fits, h.between, h.before⟩

/-! ## One node -/

/-- A node takes the place of those below it if it lies where they do, and they lie in it. -/
theorem enclose {n : Node} (h : Stands s₀ acc s) (hshape : n.WellShaped) (hchildren : n.children ⊆ acc)
    (hrows : ∀ row ∈ n.rows, row.Sublist acc)
    (hspan : s₀.InOrder → n.Between s₀.span.start s.lastStop ∧ ∀ c ∈ n.children, c.Within n) : Stands s₀ [n] s where
  run := h.run
  shaped := by
    rintro m hm
    rw [List.mem_singleton.1 hm]
    exact Node.every_iff.2 ⟨hshape, fun c hc => h.shaped c (hchildren hc)⟩
  fits hs := by
    rintro m hm
    rw [List.mem_singleton.1 hm]
    refine Node.every_iff.2 ⟨.inl ⟨(hspan hs).2, ?_⟩, fun c hc => h.fits hs c (hchildren hc)⟩
    exact fun row hrow => (h.before hs).sublist (hrows row hrow)
  between hs := by
    rintro m hm
    rw [List.mem_singleton.1 hm]
    exact (hspan hs).1
  before _ := List.pairwise_singleton _ _

/-- A node that spans everything read since `s₀` takes the place of the nodes below it. -/
theorem close_of_lt {n : Node} (h : Stands s₀ acc s) (hlt : s₀.InOrder → s₀.span.start < s.lastStop)
    (hspan : n.span = s.spanFrom s₀.span.start) (hshape : n.WellShaped) (hchildren : n.children ⊆ acc)
    (hrows : ∀ row ∈ n.rows, row.Sublist acc) : Stands s₀ [n] s := by
  refine h.enclose hshape hchildren hrows fun hs => ?_
  have hlt := hlt hs
  have hspan : n.span = ⟨s₀.span.start, s.lastStop⟩ := by
    rw [hspan, ParserState.spanFrom_of_le (Nat.le_of_lt hlt)]
  refine ⟨⟨?_, ?_, ?_⟩, fun c hc => ?_⟩
  · rw [hspan]
  · rwa [hspan]
  · rw [hspan]
  · obtain ⟨hstart, -, hstop⟩ := h.between hs c (hchildren hc)
    rw [Node.Within, hspan]
    exact ⟨hstart, hstop⟩

/-- A node that spans all the nodes that were read. -/
theorem close {n : Node} (h : Stands s₀ acc s) (hne : acc ≠ []) (hspan : n.span = s.spanFrom s₀.span.start)
    (hchildren : n.children = acc) (hrows : n.rows = [n.children]) (hshape : n.WellShaped) : Stands s₀ [n] s := by
  obtain ⟨m, hm⟩ := List.exists_mem_of_ne_nil _ hne
  refine h.close_of_lt (fun hs => h.start_lt_of_mem hs hm) hspan hshape (hchildren ▸ List.Subset.refl _) ?_
  simp [hrows, hchildren]

/-- A node that spans the tokens that were taken. -/
theorem close_taken {n : Node} (h : Stands s₀ acc s) (hlt : s.rest.length < s₀.rest.length)
    (hspan : n.span = s.spanFrom s₀.span.start) (hchildren : n.children = acc) (hrows : n.rows = [n.children])
    (hshape : n.WellShaped) : Stands s₀ [n] s := by
  refine h.close_of_lt (fun hs => h.start_lt hs hlt) hspan hshape (hchildren ▸ List.Subset.refl _) ?_
  simp [hrows, hchildren]

/-- A node with the span of the one node below it. -/
theorem wrap {n m : Node} (h : Stands s₀ [m] s) (hspan : n.span = m.span) (hchildren : n.children = [m])
    (hrows : n.rows = [n.children]) (hshape : n.WellShaped) : Stands s₀ [n] s := by
  refine h.enclose hshape (by simp [hchildren]) (by simp [hrows, hchildren]) fun hs => ?_
  obtain ⟨h₁, h₂, h₃⟩ := h.between hs m (List.mem_singleton_self m)
  refine ⟨⟨?_, ?_, ?_⟩, fun c hc => ?_⟩
  · rwa [hspan]
  · rwa [hspan]
  · rwa [hspan]
  · rw [hchildren, List.mem_singleton] at hc
    rw [Node.Within, hspan, hc]
    exact ⟨Nat.le_refl _, Nat.le_refl _⟩

/-- A node with no nodes below it that covers two nodes, or with these two below it. -/
theorem cover {n a b : Node} (h : Stands s₀ [a, b] s) (hspan : n.span = a.span.cover b.span)
    (hchildren : n.children = [] ∨ n.children = [a, b]) (hrows : n.rows = [n.children]) (hshape : n.WellShaped) :
    Stands s₀ [n] s := by
  have hsub : n.children.Sublist [a, b] := by rcases hchildren with h | h <;> simp [h]
  refine h.enclose hshape hsub.subset (by simpa [hrows] using hsub) fun hs => ?_
  have hbefore : a.span.stop ≤ b.span.start := (List.pairwise_cons.1 (h.before hs)).1 b (by simp)
  obtain ⟨ha, ha', -⟩ := h.between hs a (by simp)
  obtain ⟨-, hb, hb'⟩ := h.between hs b (by simp)
  have hspan : n.span = ⟨a.span.start, b.span.stop⟩ := by
    rw [hspan, Span.cover, Nat.min_eq_left (by omega), Nat.max_eq_right (by omega)]
  refine ⟨⟨?_, ?_, ?_⟩, fun c hc => ?_⟩
  · rwa [hspan]
  · rw [hspan]
    exact Nat.lt_trans ha' (Nat.lt_of_le_of_lt hbefore hb)
  · rwa [hspan]
  · rw [Node.Within, hspan]
    rcases List.mem_pair.1 (hsub.subset hc) with rfl | rfl
    · exact ⟨Nat.le_refl _, Nat.le_trans hbefore (Nat.le_of_lt hb)⟩
    · exact ⟨Nat.le_trans (Nat.le_of_lt ha') hbefore, Nat.le_refl _⟩

/-- A node that is the next token. -/
theorem token {n : Node} {k : TokenKind} (hk : s.kind = k) (hne : k ≠ .eof) (hspan : n.span = s.span)
    (hchildren : n.children = []) (hrows : n.rows = [n.children]) (hshape : n.WellShaped) : Stands s [n] s.advance := by
  obtain ⟨t, hr, -⟩ := ParserState.exists_of_kind hk hne
  have hrun := Run.stay.take hr
  refine (of_run hrun).enclose hshape (by simp [hchildren]) (by simp [hrows, hchildren]) fun hs => ?_
  have hlast : s.advance.lastStop = t.span.stop := by rw [hrun.lastStop_eq]; rfl
  refine ⟨⟨?_, ?_, ?_⟩, by simp [hchildren]⟩
  · rw [hspan]
  · have hmem : t ∈ s.rest := by rw [hr]; exact List.mem_cons_self
    rw [hspan, ParserState.span_of_cons hr]
    exact (hs.covers hmem).lt
  · rw [hspan, hlast, ParserState.span_of_cons hr]

theorem skip (h : Stands s₀ acc s) : Stands s₀ acc s.advance := by
  obtain ⟨ts, hrun⟩ := h.run
  exact List.append_nil acc ▸ h.trans (of_run (Run.advance s))

/-- The next token is a name. -/
theorem take {k : TokenKind} (h : Stands s₀ acc s) (hk : s.kind = k) (hne : k ≠ .eof) :
    Stands s₀ (acc ++ [.name ⟨s.text, s.span⟩]) s.advance :=
  h.trans (token hk hne rfl rfl rfl trivial)

end Stands

/-! ## Rules -/

namespace Parser

/-- Where the rule gives something, it has read these nodes. -/
def Yields (p : Parser α) (nodes : α → List Node) : Prop :=
  ∀ ⦃s a s'⦄, p s = .ok a s' → Stands s (nodes a) s'

/-- What the rule gives has the property. -/
def Ensures (p : Parser α) (Q : α → Prop) : Prop :=
  ∀ ⦃s a s'⦄, p s = .ok a s' → Q a

end Parser

namespace Stands

open StructuredText.Parser

variable {s₀ s s' : ParserState} {acc : List Node} {p : Parser α} {q : α → Parser β} {b : β}

/-- A rule adds its nodes. -/
theorem bind {nodes : α → List Node} (hs : Stands s₀ acc s) (hp : Yields p nodes) (h : (p >>= q) s = .ok b s') :
    ∃ a s₁, p s = .ok a s₁ ∧ Stands s₀ (acc ++ nodes a) s₁ ∧ q a s₁ = .ok b s' := by
  obtain ⟨a, s₁, ha, h⟩ := ok_bind_iff.1 h
  exact ⟨a, s₁, ha, hs.trans (hp ha), h⟩

/-- A rule that reads no nodes. -/
theorem pass [Lawful p] (hs : Stands s₀ acc s) (h : (p >>= q) s = .ok b s') :
    ∃ a s₁, p s = .ok a s₁ ∧ Stands s₀ acc s₁ ∧ q a s₁ = .ok b s' := by
  obtain ⟨a, s₁, ha, h⟩ := ok_bind_iff.1 h
  obtain ⟨ts, hrun⟩ := Lawful.run ha
  exact ⟨a, s₁, ha, List.append_nil acc ▸ hs.trans (of_run hrun), h⟩

end Stands

namespace Parser

variable {s s' : ParserState}

theorem Yields.pure {a : α} {nodes : α → List Node} (h : nodes a = []) : Yields (pure a) nodes := by
  intro s b s' hb
  cases hb
  rw [h]
  exact .refl s

/-- A rule that reads no nodes, and a rule behind it. -/
theorem Yields.pass {p : Parser α} [Lawful p] {q : α → Parser β} {nodes : β → List Node} (h : ∀ a, Yields (q a) nodes) :
    Yields (p >>= q) nodes := by
  intro s b s' hb
  obtain ⟨a, s₁, -, hs, hb⟩ := (Stands.refl s).pass hb
  exact hs.trans (h a hb)

theorem Yields.then {p : Parser α} {f : α → β} {nodes : β → List Node} (h : Yields p fun a => nodes (f a)) :
    Yields (do return f (← p)) nodes := by
  intro s b s' hb
  obtain ⟨a, s₁, ha, hb⟩ := ok_bind_iff.1 hb
  cases hb
  exact h ha

theorem not_ok_fail {what : String} {a : α} : ¬(fail what : Parser α) s = .ok a s' := by
  intro h
  cases hr : s.rest with
  | nil =>
    rw [fail_of_nil hr] at h
    cases h
  | cons t ts =>
    rw [fail_of_cons hr] at h
    cases h

theorem ok_nested {what : String} {deeper : Option α} {rule : α → Parser β} {b : β}
    (h : nested what deeper rule s = .ok b s') : ∃ level, deeper = some level ∧ rule level s = .ok b s' := by
  cases deeper with
  | some level => exact ⟨level, rfl, h⟩
  | none =>
    rw [nested, bind_of_ok (report_apply _ s)] at h
    cases h

theorem Yields.nested {what : String} {deeper : Option α} {rule : α → Parser β} {nodes : β → List Node}
    (h : ∀ level ∈ deeper, Yields (rule level) nodes) : Yields (nested what deeper rule) nodes := by
  intro s b s' hb
  obtain ⟨level, hlevel, hb⟩ := ok_nested hb
  exact h level hlevel hb

theorem Yields.orRecover {rule recover : Parser α} [Lawful rule] {nodes : α → List Node} (h : Yields rule nodes)
    (h' : Yields recover nodes) : Yields (orRecover rule recover) nodes := by
  intro s a s' ha
  rw [orRecover_apply] at ha
  split at ha
  · next s₁ heq =>
    have hreached := Lawful.reached (p := rule) s
    rw [heq] at hreached
    obtain ⟨ts, s₂, hrun, hg⟩ := hreached
    cases hg with
    | syntaxError what _ => exact (Stands.of_run (hrun.report rfl .here)).trans (h' ha)
  · exact h ha

/-! ## Loops -/

theorem Yields.collect {turn : Parser (Turn α)} {nodes : List α → List Node}
    (happend : ∀ as bs, nodes (as ++ bs) = nodes as ++ nodes bs) (h : Yields turn fun t => nodes t.items) :
    Yields (collect turn) nodes := by
  intro s as s' has
  refine collect_induction (L := fun as s s' => Stands s (nodes as) s') has (fun t s s' ht => h ht) ?_
  intro as bs s s₁ s' has hbs
  rw [happend]
  exact has.trans hbs

theorem Yields.collect_map {turn : Parser (Turn α)} {f : α → Node} (h : Yields turn fun t => t.items.map f) :
    Yields (Parser.collect turn) fun as => as.map f :=
  Yields.collect (fun _ _ => List.map_append) h

/-- A fold yields its value if a turn puts a new node in the place of the old one. -/
theorem Yields.fold {turn : α → Parser (Option α)} [∀ a, Lawful (turn a)] (node : α → List Node)
    (h : ∀ {s₀ s a a' s'}, Stands s₀ (node a) s → turn a s = .ok (some a') s' → Stands s₀ (node a') s')
    {s₀ : ParserState} {a b : α} (hs : Stands s₀ (node a) s) (hb : fold turn a s = .ok b s') :
    Stands s₀ (node b) s' := by
  refine fold_invariant (I := fun a s => Stands s₀ (node a) s) hb hs (fun a s a' s' hs ha => h hs ha) ?_
  intro a s s' hs ha
  obtain ⟨ts, hrun⟩ := Lawful.run ha
  exact List.append_nil (node a) ▸ hs.trans (.of_run hrun)

theorem Yields.recovering {part : Parser α} {skipRest : Parser PUnit} [Lawful part] [Lawful skipRest] {f : α → Node}
    (h : Yields part fun a => [f a]) : Yields (recovering part skipRest) fun t => t.items.map f := by
  refine .pass fun s => .orRecover (Yields.then (f := fun a => Turn.more [a]) h) ?_
  refine .pass fun _ => .pass fun s' => ?_
  dsimp only
  split
  · exact .pass fun _ => .pure rfl
  · exact .pure rfl

theorem Yields.sepByComma {item : Parser α} [Lawful item] {f : α → Node} (h : Yields item fun a => [f a]) :
    Yields (sepByComma item) fun as => as.map f := by
  have hturn : Yields (commaTurn item) fun t => t.items.map f := by
    refine .pass fun more => ?_
    split
    · exact Yields.then (f := fun a => Turn.more [a]) h
    · exact .pure rfl
  intro s as s' has
  rw [sepByComma_eq] at has
  obtain ⟨a, s₁, -, hs, has⟩ := (Stands.refl s).bind h has
  obtain ⟨as, s₂, -, hs, has⟩ := hs.bind (.collect_map hturn) has
  cases has
  exact hs

theorem ensures_sepByComma (item : Parser α) : Ensures (sepByComma item) (· ≠ []) := by
  intro s as s' has
  obtain ⟨a, s₁, -, h⟩ := ok_bind_iff.1 has
  obtain ⟨bs, s₂, -, h⟩ := ok_bind_iff.1 h
  cases h
  exact List.cons_ne_nil a bs

end Parser

end StructuredText
