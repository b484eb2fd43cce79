import StructuredText.Proofs.Advancing
import StructuredText.Proofs.Counted.Grammar

/-!
# A cursor that does not go back

A rule with a cursor has the outcome of the rule of the grammar for as many levels as the depth leaves
(`Counted.Follows`). On the way to it the depth comes back to what it was, the cursor stands still or goes on, all that
is noted is fine, and problems are reported at the next token unless they look back (`Machine.Leads`). As long as there
is a token to come, the cursor tells whether one was taken.

A loop comes back since what bounds the turns of the grammar bounds these turns, too: a turn after which the loop goes
on leaves fewer tokens (`Parser.Advancing`), and so it has moved the cursor.
-/

namespace StructuredText

open StructuredText.Parser (Turn Advancing Pacing)

/-! ## Further on -/

namespace ParserState

/-- The second state stands behind some tokens that the first one has to come, whatever was reported in between. -/
structure Behind (s s' : ParserState) : Prop where
  stop : s'.stop = s.stop
  taken : ∃ ts, s.rest = ts ++ s'.rest ∧ s'.lastStop = stopAfter s.lastStop ts

namespace Behind

variable {s s' s'' : ParserState}

theorem of_eq (hstop : s'.stop = s.stop) (hrest : s'.rest = s.rest) (hlast : s'.lastStop = s.lastStop) :
    s.Behind s' :=
  ⟨hstop, [], hrest.symm, hlast⟩

theorem refl (s : ParserState) : s.Behind s := .of_eq rfl rfl rfl

theorem trans (h : s.Behind s') (h' : s'.Behind s'') : s.Behind s'' := by
  obtain ⟨hstop, ts, hrest, hlast⟩ := h
  obtain ⟨hstop', us, hrest', hlast'⟩ := h'
  refine ⟨hstop'.trans hstop, ts ++ us, by rw [hrest, hrest', List.append_assoc], ?_⟩
  rw [hlast', hlast, stopAfter_append]

theorem advance (s : ParserState) : s.Behind s.advance := by
  obtain ⟨ts, h⟩ := Passed.advance s
  exact ⟨ParserState.advance_stop s, ts, h.rest, congrArg ParserState.lastStop h.eq⟩

theorem length_le (h : s.Behind s') : s'.rest.length ≤ s.rest.length := by
  obtain ⟨-, ts, hrest, -⟩ := h
  rw [hrest, List.length_append]
  exact Nat.le_add_left _ _

/-- Tokens that stand in order do so further on. -/
theorem inOrder (h : s.Behind s') (hs : s.InOrder) : s'.InOrder := by
  obtain ⟨hstop, ts, hrest, hlast⟩ := h
  obtain ⟨hstand, hle⟩ := hs
  rw [hrest] at hstand hle
  refine ⟨?_, ?_⟩
  · rw [hlast]
    exact (StandFrom.append_iff.1 hstand).2
  · rwa [hlast, hstop, ← stopAfter_append]

end Behind

end ParserState

/-- The problem was reported further on, at what was next there unless it looks back. -/
structure Raised.Fine (s : ParserState) (x : Raised) : Prop where
  behind : s.Behind x.state
  span_eq : ¬x.report.problem.LooksBack → x.report.span = x.state.span

theorem Raised.Fine.after {s s' : ParserState} {x : Raised} (h : x.Fine s') (hs : s.Behind s') : x.Fine s :=
  ⟨hs.trans h.behind, h.span_eq⟩

namespace Machine

variable {m m' m'' : Machine}

/-! ## What a rule looks at -/

theorem rest_of_drop_cons {t : Token} {ts : List Token} (h : m.tokens.drop m.cursor = t :: ts) : m.view.rest =
    if t.kind = .eof then [] else if t.kind.isTrivia then Stream.significant ⟨ts, m.source⟩
    else t.lexeme m.source :: Stream.significant ⟨ts, m.source⟩ := by
  show Stream.significant ⟨m.tokens.drop m.cursor, m.source⟩ = _
  rw [h, Stream.significant_cons]

theorem view_pass (ts : List Token) (h : m.tokens.drop m.cursor = ts) : (m.pass ts).view = m.view.advance := by
  induction ts generalizing m with
  | nil =>
    have hnil : m.view.rest = [] := by
      show Stream.significant ⟨m.tokens.drop m.cursor, m.source⟩ = _
      rw [h]
      rfl
    rw [pass, ParserState.advance_of_nil hnil]
  | cons t ts ih =>
    have hrest := rest_of_drop_cons h
    have htail : m.tokens.drop (m.cursor + 1) = ts := by rw [← List.tail_drop, h, List.tail_cons]
    rw [pass]
    split
    · next heof => rw [ParserState.advance_of_nil (by rw [hrest, if_pos heof])]
    · next heof =>
      rw [if_neg heof] at hrest
      split
      · next htrivia =>
        have hview : { m with cursor := m.cursor + 1 }.view = m.view := by
          rw [if_pos htrivia, ← htail] at hrest
          show ParserState.mk _ _ (Stream.significant ⟨m.tokens.drop (m.cursor + 1), m.source⟩) _ _ = m.view
          rw [← hrest]
          rfl
        rw [ih htail, hview]
      · next htrivia =>
        rw [if_neg htrivia, ← htail] at hrest
        rw [ParserState.advance, hrest]
        rfl

theorem view_advance (m : Machine) : m.advance.view = m.view.advance := view_pass _ rfl

/-- Nothing but the cursor and the end of the last token changes. -/
theorem pass_eq (m : Machine) (ts : List Token) : ∃ cursor lastStop, m.cursor ≤ cursor ∧
    m.pass ts = { m with cursor := cursor, lastStop := lastStop } := by
  induction ts generalizing m with
  | nil => exact ⟨m.cursor, m.lastStop, Nat.le_refl _, rfl⟩
  | cons t ts ih =>
    rw [pass]
    split
    · exact ⟨m.cursor, m.lastStop, Nat.le_refl _, rfl⟩
    · split
      · obtain ⟨cursor, lastStop, hle, heq⟩ := ih { m with cursor := m.cursor + 1 }
        exact ⟨cursor, lastStop, Nat.le_of_succ_le hle, heq⟩
      · exact ⟨m.cursor + 1, t.span.stop, Nat.le_succ _, rfl⟩

/-! ## What steps keep -/

/-- From one machine to the other, the depth is what it was, the cursor does not go back, it has moved only if a token
was taken or none was left, what is looked at is further on, and all that was noted and reported on the way is fine. -/
structure Leads (m m' : Machine) : Prop where
  tokens : m'.tokens = m.tokens
  source : m'.source = m.source
  depth : m'.depth = m.depth
  cursor : m.cursor ≤ m'.cursor
  behind : m.view.Behind m'.view
  stands : m'.view.rest.length = m.view.rest.length → m.view.rest ≠ [] → m'.cursor = m.cursor
  log : ∀ e ∈ m'.log, e ∈ m.log ∨ e.Fine
  raised : ∀ x ∈ m'.raised, x ∈ m.raised ∨ x.Fine m.view

namespace Leads

theorem refl (m : Machine) : Leads m m :=
  ⟨rfl, rfl, rfl, Nat.le_refl _, .refl _, fun _ _ => rfl, fun _ => .inl, fun _ => .inl⟩

theorem length_le (h : Leads m m') : m'.view.rest.length ≤ m.view.rest.length := h.behind.length_le

theorem trans (h : Leads m m') (h' : Leads m' m'') : Leads m m'' where
  tokens := h'.tokens.trans h.tokens
  source := h'.source.trans h.source
  depth := h'.depth.trans h.depth
  cursor := Nat.le_trans h.cursor h'.cursor
  behind := h.behind.trans h'.behind
  stands hlen hne := by
    have hle := h.length_le
    have hle' := h'.length_le
    have hlen' : m'.view.rest.length = m.view.rest.length := by omega
    have hne' : m'.view.rest ≠ [] := fun hnil => hne (List.length_eq_zero_iff.1 (by rw [← hlen', hnil]; rfl))
    rw [h'.stands (by omega) hne', h.stands hlen' hne]
  log e he := (h'.log e he).elim (h.log e) .inr
  raised x hx := (h'.raised x hx).elim (h.raised x) fun hf => .inr (hf.after h.behind)

/-- What is looked at goes by the cursor. -/
theorem rest_eq (h : Leads m m') (hc : m'.cursor = m.cursor) : m'.view.rest = m.view.rest := by
  show Stream.significant ⟨m'.tokens.drop m'.cursor, m'.source⟩ = _
  rw [h.tokens, h.source, hc]
  rfl

/-- With fewer tokens to come, the cursor has moved on. -/
theorem cursor_lt (h : Leads m m') (hlt : m'.view.rest.length < m.view.rest.length) : m.cursor < m'.cursor :=
  Nat.lt_of_le_of_ne h.cursor fun hc => Nat.lt_irrefl _ (h.rest_eq hc.symm ▸ hlt)

theorem note {e : Event} (h : Leads m m') (he : e.Fine) : Leads m (m'.note e) :=
  { h with log := List.forall_mem_cons.2 ⟨.inr he, h.log⟩ }

/-- A problem is reported at the next token, unless it looks back. -/
theorem report (m : Machine) {problem : Problem} {span : Span} (h : ¬problem.LooksBack → span = m.view.span) :
    Leads m (m.report problem span) where
  tokens := rfl
  source := rfl
  depth := rfl
  cursor := Nat.le_refl _
  behind := .of_eq rfl rfl rfl
  stands _ _ := rfl
  log _ := .inl
  raised := List.forall_mem_cons.2 ⟨.inr ⟨.refl _, h⟩, fun _ => .inl⟩

theorem advance (m : Machine) : Leads m m.advance := by
  obtain ⟨cursor, lastStop, hle, heq⟩ := pass_eq m (m.tokens.drop m.cursor)
  have hadvance : m.advance = { m with cursor := cursor, lastStop := lastStop }.note (.taken m.cursor cursor) := by
    rw [Machine.advance, heq]
  have hview := view_advance m
  rw [hadvance] at hview ⊢
  refine ⟨rfl, rfl, rfl, hle, ?_, fun hlen hne => ?_, List.forall_mem_cons.2 ⟨.inr hle, fun _ => .inl⟩, fun _ => .inl⟩
  · rw [hview]
    exact .advance _
  · rw [hview] at hlen
    exact absurd hlen (Nat.ne_of_lt (Parser.length_advance_of_ne_nil hne))

/-- A construct that may be entered is left on the depth it was entered from. -/
theorem nested (hm : m.depth < maxNesting) (h : Leads m.enter m') : Leads m (m'.leave m.depth) where
  tokens := h.tokens
  source := h.source
  depth := Nat.sub_eq_of_eq_add h.depth
  cursor := h.cursor
  behind := h.behind
  stands := h.stands
  raised := h.raised
  log := by
    refine List.forall_mem_cons.2 ⟨.inr (Nat.sub_eq_of_eq_add h.depth), fun e he => ?_⟩
    rcases h.log e he with he | he
    · rcases List.mem_cons.1 he with rfl | he
      · exact .inr hm
      · exact .inl he
    · exact .inr he

end Leads

end Machine

namespace Counted

open Machine (Leads)

/-! ## Rules with one outcome -/

/-- The rule with a cursor comes back with the outcome of the rule without. -/
inductive Outcome (m : Machine) : Option (Except Abort α × Machine) → EStateM.Result Abort ParserState α → Prop
  | ok {a : α} {m' : Machine} : Leads m m' → Outcome m (some (.ok a, m')) (.ok a m'.view)
  | error {e : Abort} {m' : Machine} : Leads m m' → Outcome m (some (.error e, m')) (.error e m'.view)

theorem Outcome.after {m m' : Machine} {r : Option (Except Abort α × Machine)}
    {r' : EStateM.Result Abort ParserState α} (hl : Leads m m') (h : Outcome m' r r') : Outcome m r r' := by
  cases h with
  | ok h => exact .ok (hl.trans h)
  | error h => exact .error (hl.trans h)

/-- Where the depth leaves so many levels, the rule with a cursor does what the rule without does. -/
class Follows (levels : Nat) (q : Counted α) (p : Parser α) : Prop where
  outcome (m : Machine) : m.depth + levels = maxNesting → Outcome m (q m) (p m.view)

theorem bind_apply (q : Counted α) (k : α → Counted β) (m : Machine) :
    (q >>= k) m = match q m with
      | some (.ok a, m') => k a m'
      | some (.error e, m') => some (.error e, m')
      | none => none := by
  have h : (q >>= k) m = (q m).bind fun r => ExceptT.bindCont k r.1 r.2 := rfl
  rw [h]
  rcases q m with _ | ⟨_ | _, _⟩ <;> rfl

/-- What a rule leaves is where the next one begins. -/
theorem Outcome.bind {m : Machine} {q : Counted α} {p : Parser α} {k : α → Counted β} {f : α → Parser β}
    (h : Outcome m (q m) (p m.view)) (hk : ∀ a m', Leads m m' → p m.view = .ok a m'.view →
      Outcome m' (k a m') (f a m'.view)) : Outcome m ((q >>= k) m) ((p >>= f) m.view) := by
  rw [bind_apply, Parser.bind_apply]
  revert h
  generalize q m = r
  generalize hp : p m.view = r'
  rintro (hl | hl)
  · exact (hk _ _ hl hp).after hl
  · exact .error hl

section

variable {levels : Nat}

instance follows_pure (a : α) : Follows levels (pure a) (pure a) := ⟨fun m _ => .ok (.refl m)⟩

instance follows_bind {q : Counted α} {p : Parser α} {k : α → Counted β} {f : α → Parser β} [hq : Follows levels q p]
    [hk : ∀ a, Follows levels (k a) (f a)] : Follows levels (q >>= k) (p >>= f) :=
  ⟨fun m hm => (hq.outcome m hm).bind fun a m' hl _ => (hk a).outcome m' (hl.depth.symm ▸ hm)⟩

instance follows_ite {c : Prop} [Decidable c] {q q' : Counted α} {p p' : Parser α} [Follows levels q p]
    [Follows levels q' p'] : Follows levels (if c then q else q') (if c then p else p') := by
  split <;> infer_instance

/-! ### Looking and taking -/

instance follows_view : Follows levels view get := ⟨fun m _ => .ok (.refl m)⟩

instance follows_kind : Follows levels kind Parser.kind := ⟨fun m _ => .ok (.refl m)⟩

instance follows_sees (k : TokenKind) : Follows levels (sees k) (Parser.sees k) := ⟨fun m _ => .ok (.refl m)⟩

instance follows_atEnd : Follows levels atEnd Parser.atEnd := ⟨fun m _ => .ok (.refl m)⟩

instance follows_offset : Follows levels offset Parser.offset := ⟨fun m _ => .ok (.refl m)⟩

instance follows_spanFrom (start : Nat) : Follows levels (spanFrom start) (Parser.spanFrom start) :=
  ⟨fun m _ => .ok (.refl m)⟩

instance follows_skip : Follows levels skip Parser.skip := by
  constructor
  intro m _
  rw [Parser.skip_apply, ← m.view_advance]
  exact .ok (.advance m)

instance follows_take : Follows levels take Parser.take := by
  have h : Parser.take = (do let s ← get; Parser.skip; return ⟨s.text, s.span⟩) := rfl
  rw [h]
  unfold take
  infer_instance

instance follows_eat (k : TokenKind) : Follows levels (eat k) (Parser.eat k) := by
  unfold eat Parser.eat
  infer_instance

/-! ### Reporting and giving up -/

instance follows_report (problem : Problem) : Follows levels (report problem) (Parser.report problem) :=
  ⟨fun m _ => .ok (.report m fun _ => rfl)⟩

/-- Where a problem is reported that looks back is up to the rule. -/
theorem follows_reportAt {span : Span} {problem : Problem} (h : problem.LooksBack) :
    Follows levels (reportAt span problem) (Parser.reportAt span problem) :=
  ⟨fun m _ => .ok (.report m fun hn => absurd h hn)⟩

instance follows_malformedLiteral {span : Span} {text : String} {fault : LiteralFault} :
    Follows levels (reportAt span (.malformedLiteral text fault))
      (Parser.reportAt span (.malformedLiteral text fault)) := follows_reportAt trivial

instance follows_plainBlock {span : Span} :
    Follows levels (reportAt span .plainBlock) (Parser.reportAt span .plainBlock) := follows_reportAt trivial

instance follows_blockInAlgorithm {span : Span} {kind : BlockKind} :
    Follows levels (reportAt span (.blockInAlgorithm kind)) (Parser.reportAt span (.blockInAlgorithm kind)) :=
  follows_reportAt trivial

instance follows_trailing {span : Span} {found : String} :
    Follows levels (reportAt span (.unexpected "end of input" found))
      (Parser.reportAt span (.unexpected "end of input" found)) := follows_reportAt rfl

instance follows_missing (what : String) : Follows levels (missing what) (Parser.missing what) := follows_report _

instance follows_throw (e : Abort) : Follows levels (throw e : Counted α) (throw e) := ⟨fun m _ => .error (.refl m)⟩

instance follows_fail (what : String) : Follows levels (fail what : Counted α) (Parser.fail what) := by
  refine @follows_bind _ _ _ _ _ _ _ follows_view fun s => ?_
  cases s.rest <;> exact inferInstance

instance follows_expect (k : TokenKind) : Follows levels (expect k) (Parser.expect k) := by
  unfold expect Parser.expect
  infer_instance

instance follows_expectEnd (k : TokenKind) : Follows levels (expectEnd k) (Parser.expectEnd k) := by
  unfold expectEnd Parser.expectEnd
  infer_instance

/-- What a rule calls inside of a construct follows what the grammar has one level deeper. On the last level there is
nothing to call. -/
inductive Beneath (R : Nat → γ → δ → Prop) (c : γ) : (levels : Nat) → Option δ → Prop
  | none : Beneath R c 0 none
  | some {levels : Nat} {d : δ} : R levels c d → Beneath R c (levels + 1) (some d)

theorem follows_nested {R : Nat → γ → δ → Prop} {c : γ} {deeper : Option δ} {what : String} {q : Counted β}
    {rule : δ → Parser β} (hd : Beneath R c levels deeper) (h : ∀ levels d, R levels c d → Follows levels q (rule d)) :
    Follows levels (nested what q) (Parser.nested what deeper rule) := by
  constructor
  intro m hm
  cases hd with
  | none =>
    rw [nested, if_neg (by omega)]
    have hdeep : Follows 0 (tooDeep what : Counted β) (do Parser.report (.tooDeep what); throw .tooDeep) := by
      unfold tooDeep
      infer_instance
    exact hdeep.outcome m hm
  | @some levels d hr =>
    have hlt : m.depth < maxNesting := by omega
    have hin := (h levels d hr).outcome m.enter (by rw [← hm]; show m.depth + 1 + levels = _; omega)
    rw [nested, if_pos hlt, Parser.nested]
    show Outcome m _ (rule d m.enter.view)
    revert hin
    generalize q m.enter = r
    generalize rule d m.enter.view = r'
    rintro (hl | hl)
    · exact .ok (hl.nested hlt)
    · exact .error (hl.nested hlt)

instance follows_orRecover {q q' : Counted α} {p p' : Parser α} [hq : Follows levels q p] [hq' : Follows levels q' p'] :
    Follows levels (orRecover q q') (Parser.orRecover p p') := by
  constructor
  intro m hm
  have h := hq.outcome m hm
  rw [orRecover, Parser.orRecover]
  revert h
  generalize q m = r
  generalize p m.view = r'
  rintro (hl | @⟨e, m', hl⟩)
  · exact .ok hl
  · cases e with
    | syntaxError => exact (hq'.outcome m' (hl.depth.symm ▸ hm)).after hl
    | endOfStream | tooDeep => exact .error hl

/-! ### Loops -/

noncomputable section

/-- How a loop goes on behind a turn that began at a place. -/
def loopAfter (turn : α → Counted (β ⊕ α)) (before : Nat) : β ⊕ α → Counted β
  | .inl b => pure b
  | .inr a => fun m => loop turn a (m.note (.turned before m.cursor))

/-- How a fold goes on behind a turn that began at a place. -/
def foldAfter (turn : α → Counted (Option α)) (before : Nat) (a : α) : Option α → Counted α
  | some a' => fun m => fold turn a' (m.note (.turned before m.cursor))
  | none => pure a

/-- How what the turns give is collected behind a turn that began at a place. -/
def collectAfter (turn : Counted (Turn α)) (before : Nat) (items : List α) : Turn α → Counted (List α)
  | .more more => fun m => collectFrom turn (items ++ more) (m.note (.turned before m.cursor))
  | .last more => pure (items ++ more)

end

theorem loop_apply (turn : α → Counted (β ⊕ α)) (a : α) (m : Machine) :
    loop turn a m = (turn a >>= loopAfter turn m.cursor) m := by
  rw [loop, iterate_eq, bind_apply, turnFrom]
  rcases turn a m with _ | ⟨_ | _ | _, _⟩ <;> rfl

theorem fold_apply (turn : α → Counted (Option α)) (a : α) (m : Machine) :
    fold turn a m = (turn a >>= foldAfter turn m.cursor a) m := by
  rw [fold, loop_apply, bind_apply, bind_apply, bind_apply]
  rcases turn a m with _ | ⟨_ | _ | _, _⟩ <;> rfl

theorem collectFrom_apply (turn : Counted (Turn α)) (items : List α) (m : Machine) :
    collectFrom turn items m = (turn >>= collectAfter turn m.cursor items) m := by
  rw [collectFrom, loop_apply, bind_apply, bind_apply, bind_apply]
  rcases turn m with _ | ⟨_ | _ | _, _⟩ <;> rfl

/-- A turn that leaves fewer tokens has moved the cursor. -/
theorem leads_turned {m m' : Machine} (hl : Leads m m') (hlt : m'.view.rest.length < m.view.rest.length) :
    Leads m' (m'.note (.turned m.cursor m'.cursor)) :=
  (Leads.refl m').note (hl.cursor_lt hlt)

section

variable {left : List Lexeme} {m : Machine}

/-- A fold comes back, since a turn that gives something leaves fewer tokens. -/
theorem outcome_fold {turn : α → Counted (Option α)} {turn' : α → Parser (Option α)}
    [ht : ∀ a, Follows levels (turn a) (turn' a)] (hp : Pacing turn') (hm : m.depth + levels = maxNesting)
    (hle : m.view.rest.length ≤ left.length) (a : α) :
    Outcome m (fold turn a m) (Parser.foldWithin turn' left a m.view) := by
  induction left generalizing m a with
  | nil =>
    rw [fold_apply]
    refine ((ht a).outcome m hm).bind fun o m' hl hturn => ?_
    cases o with
    | none => exact .ok (.refl m')
    | some a' => exact absurd (Nat.lt_of_lt_of_le (hp a _ a' _ hturn) hle) (Nat.not_lt_zero _)
  | cons t left ih =>
    rw [fold_apply, Parser.foldWithin_cons]
    refine ((ht a).outcome m hm).bind fun o m' hl hturn => ?_
    cases o with
    | none => exact .ok (.refl m')
    | some a' =>
      have hlt := hp a _ a' _ hturn
      rw [List.length_cons] at hle
      have hbehind := ih (m := m'.note (.turned m.cursor m'.cursor)) (hl.depth.symm ▸ hm)
        (show m'.view.rest.length ≤ left.length by omega) a'
      exact hbehind.after (leads_turned hl hlt)

theorem follows_fold {turn : α → Counted (Option α)} {turn' : α → Parser (Option α)}
    [∀ a, Follows levels (turn a) (turn' a)] (hp : Pacing turn') (a : α) :
    Follows levels (fold turn a) (Parser.fold turn' a) :=
  ⟨fun _ hm => outcome_fold hp hm (Nat.le_refl _) a⟩

/-- A loop comes back, since a turn after which it goes on leaves fewer tokens. -/
theorem outcome_collectFrom (turn : Counted (Turn α)) (turn' : Parser (Turn α)) [ht : Follows levels turn turn']
    [ha : Advancing turn'] (hm : m.depth + levels = maxNesting) (hle : m.view.rest.length ≤ left.length)
    (items : List α) : Outcome m (collectFrom turn items m)
      ((Parser.collectWithin turn' left >>= fun all => pure (items ++ all)) m.view) := by
  induction left generalizing m items with
  | nil =>
    rw [collectFrom_apply, Parser.collectWithin_nil, bind_assoc]
    refine (ht.outcome m hm).bind fun t m' hl hturn => ?_
    cases t with
    | last more => exact .ok (.refl m')
    | more more => exact absurd (Nat.lt_of_lt_of_le (ha.length_lt hturn) hle) (Nat.not_lt_zero _)
  | cons t left ih =>
    rw [collectFrom_apply, Parser.collectWithin_cons, bind_assoc]
    refine (ht.outcome m hm).bind fun t m' hl hturn => ?_
    cases t with
    | last more => exact .ok (.refl m')
    | more more =>
      have hlt := ha.length_lt hturn
      rw [List.length_cons] at hle
      have hbehind := ih (m := m'.note (.turned m.cursor m'.cursor)) (hl.depth.symm ▸ hm)
        (show m'.view.rest.length ≤ left.length by omega) (items ++ more)
      have hall : (Parser.collectWithin turn' left >>= fun all => pure (items ++ more ++ all)) =
          (Parser.collectAfter turn' left (.more more) >>= fun all => pure (items ++ all) : Parser (List α)) := by
        rw [Parser.collectAfter, bind_assoc]
        simp only [pure_bind, List.append_assoc]
      rw [hall] at hbehind
      exact hbehind.after (leads_turned hl hlt)

instance follows_collect {turn : Counted (Turn α)} {turn' : Parser (Turn α)} [Follows levels turn turn']
    [Advancing turn'] : Follows levels (collect turn) (Parser.collect turn') := by
  constructor
  intro m hm
  have h := outcome_collectFrom turn turn' hm (Nat.le_refl _) []
  simp only [List.nil_append, bind_pure] at h
  exact h

end

instance follows_sepByComma {item : Counted α} {item' : Parser α} [Follows levels item item'] [Parser.Lawful item'] :
    Follows levels (sepByComma item) (Parser.sepByComma item') := by
  have : Follows levels (do if ← eat .comma then return Turn.more [← item] else return .last [])
      (Parser.commaTurn item') := by
    unfold Parser.commaTurn
    infer_instance
  rw [Parser.sepByComma_eq]
  unfold sepByComma
  infer_instance

/-! ### Going on after an error -/

theorem skipWhile_apply (p : ParserState → Bool) (m : Machine) : skipWhile p m =
    if !m.view.rest.isEmpty && p m.view then skipWhile p (m.advance.note (.turned m.cursor m.advance.cursor))
    else some (.ok ⟨⟩, m) := by
  rw [skipWhile, loop_apply]
  show ((if !m.view.rest.isEmpty && p m.view then skip >>= fun _ => pure (.inr ⟨⟩) else pure (.inl ⟨⟩) :
    Counted (PUnit ⊕ PUnit)) >>= loopAfter _ m.cursor) m = _
  split <;> rfl

theorem outcome_skipWhile (p : ParserState → Bool) {left : List Lexeme} {m : Machine} (hleft : m.view.rest = left) :
    Outcome m (skipWhile p m) (.ok ⟨⟩ (Parser.skipWhile.go p left m.view)) := by
  induction left generalizing m with
  | nil =>
    rw [skipWhile_apply, hleft, Parser.skipWhile.go]
    exact .ok (.refl m)
  | cons t left ih =>
    rw [skipWhile_apply, hleft, Parser.skipWhile.go]
    simp only [List.isEmpty_cons, Bool.not_false, Bool.true_and]
    split
    · have hadvance : m.advance.view.rest = left := by
        rw [m.view_advance]
        exact ParserState.advance_rest_of_cons hleft
      have hlt : m.advance.view.rest.length < m.view.rest.length := by
        rw [hadvance, hleft]
        exact Nat.lt_succ_self _
      have hl := Leads.advance m
      rw [← m.view_advance]
      exact (ih (m := m.advance.note _) hadvance).after (hl.trans (leads_turned hl hlt))
    · exact .ok (.refl m)

instance follows_skipWhile (p : ParserState → Bool) : Follows levels (skipWhile p) (Parser.skipWhile p) :=
  ⟨fun _ _ => outcome_skipWhile p rfl⟩

instance follows_skipTo (stops : TokenKind → Bool) : Follows levels (skipTo stops) (Parser.skipTo stops) := by
  unfold skipTo Parser.skipTo
  infer_instance

instance follows_skipStatement : Follows levels skipStatement Parser.skipStatement := follows_skipTo _

instance follows_expectSemicolon : Follows levels expectSemicolon Parser.expectSemicolon := by
  unfold expectSemicolon Parser.expectSemicolon
  infer_instance

instance follows_expectEndOfInput : Follows levels expectEndOfInput Parser.expectEndOfInput := by
  refine @follows_bind _ _ _ _ _ _ _ follows_view fun s => ?_
  cases s.rest <;> exact inferInstance

/-- At the end of the stream, the cursor and the number of tokens to come need not agree; but then there is no token to
take. -/
theorem outcome_recovered {m m' : Machine} (hl : Leads m m') : Outcome m'
    ((do
      if (← cursor) = m.cursor then skip else pure ()
      return .more [] : Counted (Turn α)) m')
    ((do
      if (← get).rest.length = m.view.rest.length then Parser.skip else pure ()
      return .more [] : Parser (Turn α)) m'.view) := by
  show Outcome m' ((if m'.cursor = m.cursor then skip >>= fun _ => pure (.more []) else pure (.more []) :
      Counted (Turn α)) m')
    ((if m'.view.rest.length = m.view.rest.length then Parser.skip >>= fun _ => pure (.more []) else pure (.more []) :
      Parser (Turn α)) m'.view)
  by_cases hc : m'.cursor = m.cursor
  · rw [if_pos hc, if_pos (by rw [hl.rest_eq hc]), Parser.bind_of_ok (Parser.skip_apply _), ← m'.view_advance]
    exact .ok (.advance m')
  · rw [if_neg hc]
    split
    · next hlen =>
      have hnil : m.view.rest = [] := by_contra fun hne => hc (hl.stands hlen hne)
      have hnil' : m'.view.rest = [] := List.length_eq_zero_iff.1 (by rw [hlen, hnil]; rfl)
      rw [Parser.bind_of_ok (Parser.skip_apply _), ParserState.advance_of_nil hnil']
      exact .ok (.refl m')
    · exact .ok (.refl m')

instance follows_recovering {part : Counted α} {part' : Parser α} {skipRest : Counted PUnit}
    {skipRest' : Parser PUnit} [hp : Follows levels part part'] [hs : Follows levels skipRest skipRest'] :
    Follows levels (recovering part skipRest) (Parser.recovering part' skipRest') := by
  constructor
  intro m hm
  have h := hp.outcome m hm
  show Outcome m (orRecover (part >>= _) (skipRest >>= _) m)
    (Parser.orRecover (part' >>= _) (skipRest' >>= _) m.view)
  rw [orRecover, Parser.orRecover, bind_apply, Parser.bind_apply]
  revert h
  generalize part m = r
  generalize part' m.view = r'
  rintro (hl | @⟨e, m', hl⟩)
  · exact .ok hl
  · cases e with
    | syntaxError =>
      have hskip := hs.outcome m' (hl.depth.symm ▸ hm)
      exact (hskip.bind fun _ _ hl' _ => outcome_recovered (hl.trans hl')).after hl
    | endOfStream | tooDeep => exact .error hl

end

end Counted

end StructuredText
