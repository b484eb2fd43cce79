import StructuredText.Proofs.Checked.Grammar
import StructuredText.Proofs.Loops

/-!
# Checks that hold

Where the tokens to come have spans of 32 bits that do not end before they start (`ParserState.Valid`), the checks of a
rule hold and it does what the rule without checks does (`Passes`). Spans made on the way are valid again, and this is
all that later checks ask for.
-/

namespace StructuredText

/-! ## Cuts -/

namespace Text

theorem splitAt?_append_add (l r : List Char) (n : Nat) :
    splitAt? (l ++ r) (byteLength l + n) = (splitAt? r n).map fun (a, b) => (l ++ a, b) := by
  induction l with
  | nil => simp
  | cons c l ih =>
    have hpos := Char.utf8Size_pos c
    obtain ⟨m, hm⟩ : ∃ m, byteLength (c :: l) + n = m + 1 := ⟨byteLength (c :: l) + n - 1, by simp; omega⟩
    have hrest : m + 1 - c.utf8Size = byteLength l + n := by simp at hm; omega
    rw [hm, List.cons_append, splitAt?, if_pos (by simp at hm; omega), hrest, ih, Option.map_map]
    rfl

/-- A text can be cut out between two cuts. -/
theorem isSome_slice?_iff {cs : List Char} {start stop : Nat} :
    (slice? cs start stop).isSome ↔ start ≤ stop ∧ IsBoundary cs start ∧ IsBoundary cs stop := by
  by_cases hle : start ≤ stop
  · cases hcut : splitAt? cs start with
    | none => simp [slice?, IsBoundary, hcut]
    | some parts =>
      obtain ⟨l, r⟩ := parts
      obtain ⟨rfl, rfl⟩ := eq_append_of_splitAt? hcut
      have hstop := splitAt?_append_add l r (stop - byteLength l)
      rw [Nat.add_sub_cancel' hle] at hstop
      cases hr : splitAt? r (stop - byteLength l) <;> simp [slice?, IsBoundary, hcut, hle, hstop, hr]
  · simp [slice?, hle]

theorem eq_singleton_of_byteLength {cs : List Char} (h : byteLength cs = 1) : ∃ c, cs = [c] ∧ c.utf8Size = 1 := by
  cases cs with
  | nil => cases h
  | cons c cs =>
    have hpos := Char.utf8Size_pos c
    rw [byteLength_cons] at h
    cases cs with
    | nil => exact ⟨c, rfl, by simpa using h⟩
    | cons d cs =>
      have hpos' := Char.utf8Size_pos d
      rw [byteLength_cons] at h
      omega

end Text

/-- The text between the quotes is what can be cut out behind its first byte and in front of its last one. -/
theorem Quote.inner_eq (text : List Char) :
    inner text = (Text.slice? text 1 (Text.byteLength text - 1)).getD [] := by
  cases hs : Text.slice? text 1 (Text.byteLength text - 1) with
  | some cs =>
    obtain ⟨before, after, rfl, hbefore, hstop⟩ := Text.slice?_eq_some hs
    rw [Text.byteLength_append (before ++ cs)] at hstop
    have hlen : Text.byteLength (before ++ cs) = Text.byteLength cs + 1 := by
      rw [Text.byteLength_append, hbefore, Nat.add_comm]
    obtain ⟨c, rfl, hc⟩ := Text.eq_singleton_of_byteLength hbefore
    obtain ⟨d, rfl, hd⟩ := Text.eq_singleton_of_byteLength (show Text.byteLength after = 1 by omega)
    simp [inner, hc, hd]
  | none =>
    show inner text = []
    cases text with
    | nil => rfl
    | cons c cs =>
      rcases List.eq_nil_or_concat cs with rfl | ⟨ds, d, rfl⟩
      · rfl
      · by_cases hsizes : c.utf8Size = 1 ∧ d.utf8Size = 1
        · have hslice := Text.slice?_append [c] ds [d]
          simp [hsizes.1, hsizes.2, Nat.add_comm] at hslice hs
          rw [hs] at hslice
          cases hslice
        · simp [inner]
          intro hc hd
          exact absurd ⟨hc, hd⟩ hsizes

/-! ## What is valid -/

/-- The span has 32 bits and does not end before it starts. -/
def Span.Valid (s : Span) : Prop := s.start ≤ s.stop ∧ s.stop < UInt32.size

/-- All offsets in the state have 32 bits, and the tokens to come stand for their parts of the text. -/
structure ParserState.Valid (s : ParserState) : Prop where
  stop : s.stop < UInt32.size
  lastStop : s.lastStop < UInt32.size
  span : ∀ t ∈ s.rest, t.span.Valid
  text : ∀ t ∈ s.rest, t.text = t.span.textIn s.source

/-- Things that checks ask about. -/
class Sized (α : Type) where
  /-- The offsets in it have 32 bits, and no span ends before it starts. -/
  Valid : α → Prop

/-- The checks ask for nothing in other things. -/
instance (priority := low) Sized.plain (α : Type) : Sized α := ⟨fun _ => True⟩

instance : Sized Nat := ⟨(· < UInt32.size)⟩

instance : Sized Span := ⟨Span.Valid⟩

instance : Sized Name := ⟨fun n => n.span.Valid⟩

instance : Sized Literal := ⟨fun l => l.span.Valid⟩

instance : Sized Expr := ⟨fun e => e.span.Valid⟩

instance : Sized ParserState := ⟨ParserState.Valid⟩

instance [Sized α] : Sized (Option α) := ⟨fun o => ∀ a ∈ o, Sized.Valid a⟩

class Valid [Sized α] (a : α) : Prop where
  valid : Sized.Valid a

/-- Nothing can be wrong with things of this type. -/
class Plain (α : Type) [Sized α] : Prop where
  valid (a : α) : Sized.Valid a

instance (priority := low) plain_plain (α : Type) : @Plain α (.plain α) := @Plain.mk α (.plain α) fun _ => trivial

instance (priority := low) valid_of_plain [Sized α] [hα : Plain α] (a : α) : Valid a := ⟨hα.valid a⟩

section

variable {span span' : Span} {n : Name} {l : Literal} {e : Expr} {s : ParserState}

instance valid_start [h : Valid span] : Valid span.start := ⟨Nat.lt_of_le_of_lt h.valid.1 h.valid.2⟩

instance valid_empty {offset : Nat} [h : Valid offset] : Valid (Span.empty offset) := ⟨Nat.le_refl _, h.valid⟩

instance valid_cover [h : Valid span] [h' : Valid span'] : Valid (span.cover span') :=
  ⟨Span.Ordered.cover h.valid.1, Nat.max_lt.2 ⟨h.valid.2, h'.valid.2⟩⟩

instance valid_name {text : String} [h : Valid span] : Valid (Name.mk text span) := ⟨h.valid⟩

instance valid_nameSpan [h : Valid n] : Valid n.span := ⟨h.valid⟩

instance valid_literal {kind : LiteralKind} {typeName : Option Name} {value : String} [h : Valid span] :
    Valid (Literal.mk kind typeName value span) :=
  ⟨h.valid⟩

instance valid_literalSpan [h : Valid l] : Valid l.span := ⟨h.valid⟩

instance valid_exprSpan [h : Valid e] : Valid e.span := ⟨h.valid⟩

instance valid_some [Sized α] {a : α} [h : Valid a] : Valid (some a) := ⟨by simpa [Sized.Valid] using h.valid⟩

instance valid_none [Sized α] : Valid (none : Option α) := ⟨by simp [Sized.Valid]⟩

/-! ### Expressions -/

variable {receiver left right : Expr}

instance valid_nameExpr [h : Valid n] : Valid (Expr.name n) := ⟨h.valid⟩

instance valid_literalExpr [h : Valid l] : Valid (Expr.literal l) := ⟨h.valid⟩

instance valid_this [h : Valid span] : Valid (Expr.this span) := ⟨h.valid⟩

instance valid_super [h : Valid span] : Valid (Expr.super span) := ⟨h.valid⟩

instance valid_paren [h : Valid span] : Valid (Expr.paren e span) := ⟨h.valid⟩

instance valid_member [h : Valid span] : Valid (Expr.member receiver n span) := ⟨h.valid⟩

instance valid_part {width : Option AccessWidth} {selector : Selector} [h : Valid span] :
    Valid (Expr.part receiver width selector span) :=
  ⟨h.valid⟩

instance valid_partAt {width : AccessWidth} [h : Valid span] : Valid (Expr.partAt receiver width e span) := ⟨h.valid⟩

instance valid_index {indices : List Expr} [h : Valid span] : Valid (Expr.index receiver indices span) := ⟨h.valid⟩

instance valid_call {args : List Arg} [h : Valid span] : Valid (Expr.call receiver args span) := ⟨h.valid⟩

instance valid_unary {op : UnaryOp} [h : Valid span] : Valid (Expr.unary op e span) := ⟨h.valid⟩

instance valid_binary {op : BinaryOp} [h : Valid span] : Valid (Expr.binary op left right span) := ⟨h.valid⟩

/-! ### States -/

instance valid_stateSpan [h : Valid s] : Valid s.span := by
  constructor
  unfold ParserState.span
  split
  · next hr => exact h.valid.span _ (hr ▸ List.mem_cons_self)
  · exact ⟨Nat.le_refl _, Nat.max_lt.2 ⟨h.valid.stop, h.valid.lastStop⟩⟩

instance valid_report {problem : Problem} [h : Valid s] : Valid (s.report problem span) :=
  ⟨h.valid.stop, h.valid.lastStop, h.valid.span, h.valid.text⟩

instance valid_advance [h : Valid s] : Valid s.advance := by
  constructor
  unfold ParserState.advance
  split
  · next hr =>
    have hrest := hr ▸ h.valid.span
    have htext := hr ▸ h.valid.text
    exact ⟨h.valid.stop, (hrest _ List.mem_cons_self).2, fun u hu => hrest u (List.mem_cons_of_mem _ hu),
      fun u hu => htext u (List.mem_cons_of_mem _ hu)⟩
  · exact h.valid

end

/-! ## Rules whose checks hold -/

/-- The rule with checks has the outcome of the rule without, and what it leaves is valid. -/
inductive SameOutcome [Sized α] : EStateM.Result Halt ParserState α → EStateM.Result Abort ParserState α → Prop
  | ok {a : α} {s : ParserState} : Valid a → Valid s → SameOutcome (.ok a s) (.ok a s)
  | error {e : Abort} {s : ParserState} : Valid s → SameOutcome (.error (.abort e) s) (.error e s)

namespace Checked

/-- On valid states, `g` does what `p` does. -/
class Passes [Sized α] (g : Checked α) (p : Parser α) : Prop where
  outcome (s : ParserState) [Valid s] : SameOutcome (g s) (p s)

/-- The checks of `g` hold, and all it does is give `a`. -/
class Grants (g : Checked α) (a : outParam α) : Prop where
  eq : g = pure a

/-- A valid thing. -/
structure Sound (α : Type) [Sized α] where
  it : α
  valid : Valid it

instance valid_it [Sized α] (x : Sound α) : Valid x.it := x.valid

theorem bind_apply (g : Checked α) (k : α → Checked β) (s : ParserState) :
    (g >>= k) s = match g s with
      | .ok a s' => k a s'
      | .error e s' => .error e s' := by
  show EStateM.bind g k s = _
  unfold EStateM.bind
  cases g s <;> rfl

section

variable [Sized α] [Sized β]

instance passes_pure {a : α} [Valid a] : Passes (pure a) (pure a) := ⟨fun _ _ => .ok inferInstance inferInstance⟩

instance passes_bind {g : Checked α} {p : Parser α} {k : α → Checked β} {q : α → Parser β} [hg : Passes g p]
    [hk : ∀ x : Sound α, Passes (k x.it) (q x.it)] : Passes (g >>= k) (p >>= q) := by
  constructor
  intro s _
  have h := hg.outcome s
  rw [bind_apply, Parser.bind_apply]
  revert h
  generalize g s = r
  generalize p s = r'
  rintro (⟨ha, hs⟩ | hs)
  · exact (hk ⟨_, ha⟩).outcome _
  · exact .error hs

instance (priority := high) passes_bind_plain [Plain α] {g : Checked α} {p : Parser α} {k : α → Checked β}
    {q : α → Parser β} [Passes g p] [hk : ∀ a, Passes (k a) (q a)] : Passes (g >>= k) (p >>= q) :=
  passes_bind

/-- A check that holds is no step. -/
instance (priority := high) passes_granted {g : Checked α} {a : α} {k : α → Checked β} {q : Parser β}
    [hg : Grants g a] [hk : Passes (k a) q] : Passes (g >>= k) q := by
  rwa [hg.eq, pure_bind]

end

instance grants_pure (a : α) : Grants (pure a) a := ⟨rfl⟩

instance grants_bind {g : Checked α} {a : α} {k : α → Checked β} {b : β} [hg : Grants g a] [hk : Grants (k a) b] :
    Grants (g >>= k) b := by
  rwa [hg.eq, pure_bind]

/-! ### Checks -/

theorem grants_check {c : Prop} [Decidable c] (h : c) : Grants (check c) ⟨⟩ := by
  rw [check, if_pos h]
  infer_instance

theorem grants_range {start stop : Nat} (h : Span.Valid ⟨start, stop⟩) : Grants (range start stop) ⟨start, stop⟩ := by
  have : Grants (check (start ≤ stop ∧ stop < UInt32.size)) ⟨⟩ := grants_check h
  unfold range
  infer_instance

instance grants_empty {offset : Nat} [h : Valid offset] : Grants (empty offset) (.empty offset) :=
  grants_range ⟨Nat.le_refl _, h.valid⟩

instance grants_cover {a b : Span} [Valid a] [Valid b] : Grants (cover a b) (a.cover b) :=
  have h : Valid (a.cover b) := inferInstance
  grants_range h.valid

/-- A span as long as a text is valid where it lies in a valid one. -/
theorem grants_rangeAt {span : Span} [h : Valid span] {text : List Char}
    (hle : span.start + Text.byteLength text ≤ span.stop) :
    Grants (rangeAt span.start text) ⟨span.start, span.start + Text.byteLength text⟩ := by
  have hstop := Nat.lt_of_le_of_lt hle h.valid.2
  have := grants_check (Nat.lt_of_le_of_lt (Nat.le_add_left _ span.start) hstop)
  have hspan : Span.Valid ⟨span.start, span.start + Text.byteLength text⟩ := ⟨Nat.le_add_right _ _, hstop⟩
  have := grants_range hspan
  unfold rangeAt
  infer_instance

/-- A cut is made only where it can be made. -/
instance grants_cutOut (text : List Char) (start stop : Nat) :
    Grants (cutOut text start stop) ((Text.slice? text start stop).getD []) := by
  unfold cutOut
  split
  · next h =>
    obtain ⟨inner, hinner⟩ := Option.isSome_iff_exists.1 (Text.isSome_slice?_iff.2 h)
    rw [slice, hinner]
    infer_instance
  · next h =>
    rw [← Text.isSome_slice?_iff, Option.not_isSome_iff_eq_none] at h
    rw [h]
    infer_instance

instance grants_textIn (span : Span) (source : List Char) : Grants (textIn span source) (span.textIn source) := by
  have htext : span.textIn source = String.ofList ((Text.slice? source span.start span.stop).getD []) := by
    rw [Span.textIn]
    cases Text.slice? source span.start span.stop <;> rfl
  rw [htext]
  unfold textIn
  infer_instance

instance grants_spanOf {s : ParserState} [h : Valid s] : Grants (spanOf s) s.span := by
  have : Valid (max s.stop s.lastStop) := ⟨Nat.max_lt.2 ⟨h.valid.stop, h.valid.lastStop⟩⟩
  rw [spanOf, ParserState.span]
  cases s.rest <;> exact inferInstance

instance grants_textOf {s : ParserState} [h : Valid s] : Grants (textOf s) s.text := by
  rw [textOf, ParserState.text]
  cases hr : s.rest with
  | nil => exact inferInstance
  | cons t ts =>
    show Grants (textIn t.span s.source) t.text
    rw [h.valid.text t (hr ▸ List.mem_cons_self)]
    infer_instance

/-! ### Looking and taking -/

instance passes_get : Passes get get := ⟨fun _ h => .ok h h⟩

instance passes_kind : Passes kind Parser.kind := ⟨fun _ h => .ok inferInstance h⟩

instance passes_sees (k : TokenKind) : Passes (sees k) (Parser.sees k) := ⟨fun _ h => .ok inferInstance h⟩

instance passes_atEnd : Passes atEnd Parser.atEnd := ⟨fun _ h => .ok inferInstance h⟩

instance passes_set {s : ParserState} [h : Valid s] : Passes (set s) (set s) := ⟨fun _ _ => .ok inferInstance h⟩

instance passes_offset : Passes offset Parser.offset := by
  unfold offset Parser.offset
  infer_instance

instance passes_spanFrom {start : Nat} [hn : Valid start] : Passes (spanFrom start) (Parser.spanFrom start) := by
  constructor
  intro s hs
  have hvalid : (s.spanFrom start).Valid := ⟨Nat.le_max_right _ _, Nat.max_lt.2 ⟨hs.valid.lastStop, hn.valid⟩⟩
  show SameOutcome (range start (max s.lastStop start) s) (.ok (s.spanFrom start) s)
  rw [(grants_range hvalid).eq]
  exact .ok ⟨hvalid⟩ hs

instance passes_skip : Passes skip Parser.skip := by
  have h : Parser.skip = (do set (← get).advance) := rfl
  rw [h]
  unfold skip
  infer_instance

/-- The text that a span covers is not longer than the span. -/
theorem byteLength_textIn_le {span : Span} (h : span.start ≤ span.stop) (source : List Char) :
    span.start + Text.byteLength (span.textIn source).toList ≤ span.stop := by
  rw [Span.textIn]
  cases hs : Text.slice? source span.start span.stop with
  | none => exact h
  | some inner =>
    obtain ⟨before, after, -, hbefore, hstop⟩ := Text.slice?_eq_some hs
    rw [String.toList_ofList, ← hbefore, ← Text.byteLength_append]
    exact Nat.le_of_eq hstop

theorem textIn_empty (offset : Nat) (source : List Char) : (Span.empty offset).textIn source = "" := by
  cases hcut : Text.splitAt? source offset <;> simp [Span.textIn, Span.empty, Text.slice?, hcut, Text.splitAt?]

theorem textIn_span (s : ParserState) [h : Valid s] : s.span.textIn s.source = s.text := by
  cases hr : s.rest with
  | nil => simp [ParserState.span, ParserState.text, hr, textIn_empty]
  | cons t ts =>
    rw [ParserState.span_of_cons hr, ParserState.text_of_cons hr, h.valid.text t (hr ▸ List.mem_cons_self)]

theorem take_apply (s : ParserState) [Valid s] : take s = .ok ⟨s.text, s.span⟩ s.advance := by
  let behind (span : Span) : Checked Name := do
    set s.advance
    return ⟨← textIn span s.source, span⟩
  show (spanOf s >>= behind) s = _
  rw [grants_spanOf.eq, pure_bind]
  show (textIn s.span s.source >>= fun text => pure (Name.mk text s.span)) s.advance = _
  rw [(grants_textIn s.span s.source).eq, textIn_span]
  rfl

/-- The text of a token that is taken is not longer than its span. -/
theorem passes_take_bind [Sized β] {k : Name → Checked β} {q : Name → Parser β}
    (h : ∀ n : Name, Valid n → n.span.start + Text.byteLength n.text.toList ≤ n.span.stop → Passes (k n) (q n)) :
    Passes (take >>= k) (Parser.take >>= q) := by
  constructor
  intro s hs
  rw [bind_apply, take_apply, Parser.bind_of_ok (Parser.take_apply s)]
  refine (h _ inferInstance ?_).outcome s.advance
  show s.span.start + Text.byteLength s.text.toList ≤ s.span.stop
  rw [← textIn_span]
  exact byteLength_textIn_le (valid_stateSpan (s := s)).valid.1 s.source

instance passes_take : Passes take Parser.take := by
  constructor
  intro s hs
  rw [take_apply, Parser.take_apply]
  exact .ok inferInstance inferInstance

instance passes_ite [Sized α] {c : Prop} [Decidable c] {g g' : Checked α} {p p' : Parser α} [Passes g p]
    [Passes g' p'] : Passes (if c then g else g') (if c then p else p') := by
  split <;> infer_instance

instance passes_eat (k : TokenKind) : Passes (eat k) (Parser.eat k) := by
  unfold eat Parser.eat
  infer_instance

/-! ### Reporting and giving up -/

instance passes_reportAt {span : Span} {problem : Problem} :
    Passes (reportAt span problem) (Parser.reportAt span problem) :=
  ⟨fun _ _ => .ok inferInstance inferInstance⟩

instance passes_report {problem : Problem} : Passes (report problem) (Parser.report problem) := by
  have h : Parser.report problem = (do Parser.reportAt (← get).span problem) := rfl
  rw [h]
  unfold report
  infer_instance

instance passes_missing (what : String) : Passes (missing what) (Parser.missing what) := passes_report

section

variable [Sized α] [Sized β]

instance passes_throw (e : Abort) : Passes (throw (.abort e) : Checked α) (throw e) := ⟨fun _ hs => .error hs⟩

instance passes_fail (what : String) : Passes (fail what : Checked α) (Parser.fail what) := by
  refine @passes_bind _ _ _ _ _ _ _ _ passes_get fun s => ?_
  cases s.it.rest <;> exact inferInstance

end

instance passes_expect (k : TokenKind) : Passes (expect k) (Parser.expect k) := by
  unfold expect Parser.expect
  infer_instance

instance passes_expectEnd (k : TokenKind) : Passes (expectEnd k) (Parser.expectEnd k) := by
  unfold expectEnd Parser.expectEnd
  infer_instance

section

variable [Sized α] [Sized β]

/-- The rules one level deeper pass, or there are none on both sides. -/
class PassesDeeper (deeper : Option (Checked α)) (deeper' : Option (Parser α)) : Prop where
  rel : Option.Rel Passes deeper deeper'

instance passesDeeper_none : PassesDeeper (none : Option (Checked α)) none := ⟨.none⟩

instance passesDeeper_some {g : Checked α} {p : Parser α} [hg : Passes g p] : PassesDeeper (some g) (some p) :=
  ⟨.some hg⟩

theorem passes_nested {γ δ : Type} {R : γ → δ → Prop} {what : String} {deeper : Option γ} {deeper' : Option δ}
    {rule : γ → Checked β} {rule' : δ → Parser β} (hd : Option.Rel R deeper deeper')
    (h : ∀ c d, R c d → Passes (rule c) (rule' d)) :
    Passes (nested what deeper rule) (Parser.nested what deeper' rule') := by
  cases hd with
  | some hr => exact h _ _ hr
  | none =>
    unfold nested Parser.nested
    exact inferInstance

instance passes_orRecover {g g' : Checked α} {p p' : Parser α} [hg : Passes g p] [hg' : Passes g' p'] :
    Passes (orRecover g g') (Parser.orRecover p p') := by
  constructor
  intro s _
  have h := hg.outcome s
  rw [orRecover, Parser.orRecover]
  revert h
  generalize g s = r
  generalize p s = r'
  rintro (⟨ha, hs⟩ | @⟨e, t, hs⟩)
  · exact .ok ha hs
  · cases e with
    | syntaxError => exact hg'.outcome t
    | endOfStream | tooDeep => exact .error hs

/-! ### Loops -/

theorem passes_foldWithin {turn : α → Checked (Option α)} {turn' : α → Parser (Option α)}
    [ht : ∀ x : Sound α, Passes (turn x.it) (turn' x.it)] (left : List Lexeme) (x : Sound α) :
    Passes (foldWithin turn left x.it) (Parser.foldWithin turn' left x.it) := by
  induction left generalizing x with
  | nil =>
    refine @passes_bind _ _ _ _ _ _ _ _ (ht x) fun ⟨o, ho⟩ => ?_
    cases o with
    | none => exact passes_pure (a := x.it)
    | some b =>
      have : Valid b := ⟨ho.valid b rfl⟩
      exact passes_pure (a := b)
  | cons t left ih =>
    refine @passes_bind _ _ _ _ _ _ _ _ (ht x) fun ⟨o, ho⟩ => ?_
    cases o with
    | none => exact inferInstance
    | some b => exact ih ⟨b, ⟨ho.valid b rfl⟩⟩

instance passes_fold {turn : α → Checked (Option α)} {turn' : α → Parser (Option α)}
    [∀ x : Sound α, Passes (turn x.it) (turn' x.it)] {a : α} [h : Valid a] :
    Passes (fold turn a) (Parser.fold turn' a) := by
  have (left : List Lexeme) : Passes (foldWithin turn left a) (Parser.foldWithin turn' left a) :=
    passes_foldWithin left ⟨a, h⟩
  unfold fold Parser.fold
  infer_instance

omit [Sized α] in
theorem passes_collectWithin {turn : Checked (Parser.Turn α)} {turn' : Parser (Parser.Turn α)} [ht : Passes turn turn']
    (left : List Lexeme) : Passes (collectWithin turn left) (Parser.collectWithin turn' left) := by
  induction left with
  | nil =>
    refine @passes_bind_plain _ _ _ _ _ _ _ _ _ ht fun t => ?_
    cases t <;> exact inferInstance
  | cons t left ih =>
    refine @passes_bind_plain _ _ _ _ _ _ _ _ _ ht fun t => ?_
    cases t <;> exact inferInstance

instance passes_collect {turn : Checked (Parser.Turn α)} {turn' : Parser (Parser.Turn α)} [Passes turn turn'] :
    Passes (collect turn) (Parser.collect turn') := by
  have (left : List Lexeme) : Passes (collectWithin turn left) (Parser.collectWithin turn' left) :=
    passes_collectWithin left
  unfold collect Parser.collect
  infer_instance

instance passes_sepByComma {item : Checked α} {item' : Parser α} [Passes item item'] :
    Passes (sepByComma item) (Parser.sepByComma item') := by
  unfold sepByComma Parser.sepByComma
  infer_instance

end

/-! ### Going on after an error -/

instance passes_skipWhile (p : ParserState → Bool) : Passes (skipWhile p) (Parser.skipWhile p) := by
  have hgo (left : List Lexeme) (s : ParserState) [hs : Valid s] : Valid (Parser.skipWhile.go p left s) := by
    induction left generalizing s with
    | nil => exact hs
    | cons t left ih =>
      rw [Parser.skipWhile.go]
      split
      · exact ih s.advance
      · exact hs
  exact ⟨fun s _ => .ok inferInstance (hgo s.rest s)⟩

instance passes_skipTo (stops : TokenKind → Bool) : Passes (skipTo stops) (Parser.skipTo stops) := by
  unfold skipTo Parser.skipTo
  infer_instance

instance passes_skipStatement : Passes skipStatement Parser.skipStatement := passes_skipTo _

instance passes_expectSemicolon : Passes expectSemicolon Parser.expectSemicolon := by
  unfold expectSemicolon Parser.expectSemicolon
  infer_instance

instance passes_expectEndOfInput : Passes expectEndOfInput Parser.expectEndOfInput := by
  refine @passes_bind _ _ _ _ _ _ _ _ passes_get fun s => ?_
  cases s.it.rest <;> exact inferInstance

instance passes_recovering [Sized α] {part : Checked α} {part' : Parser α} {skipRest : Checked PUnit}
    {skipRest' : Parser PUnit} [Passes part part'] [Passes skipRest skipRest'] :
    Passes (recovering part skipRest) (Parser.recovering part' skipRest') := by
  unfold recovering Parser.recovering
  infer_instance

end Checked

end StructuredText
