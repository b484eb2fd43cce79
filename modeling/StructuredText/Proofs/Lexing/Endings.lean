import StructuredText.Proofs.Lexing.Scanned

/-!
# What stands behind a token

In source form one of a few characters stands behind a name or a number, or nothing (`Delimits`). None of them goes on
with the token, but for a point: it makes a real number of an integer if a digit follows, and spoils a time of day if
none does. So the ends of tokens are told apart by what may stand behind them (`Ending.allows`).
-/

namespace StructuredText

/-! ## Delimiters -/

/-- The characters that may stand directly behind a name or a number in source form. -/
def delimiters : List Char := [' ', ')', ']', ',', '.', '(', '[', ':']

/-- The text is empty or begins with a delimiter, and does not begin with three dots. -/
structure Delimits (f : List Char) : Prop where
  head : ∀ c ∈ f.head?, c ∈ delimiters
  notThree : ¬['.', '.', '.'] <+: f

theorem Delimits.startsWith {f : List Char} (h : Delimits f) {p : Char → Bool}
    (hp : delimiters.all (fun c => !p c) = true) : startsWith p f = false := by
  cases f with
  | nil => rfl
  | cons c cs =>
    have hc := List.all_eq_true.1 hp c (h.head c rfl)
    rwa [Bool.not_eq_true'] at hc

theorem Delimits.nil : Delimits [] := ⟨nofun, nofun⟩

theorem Delimits.of_head {c : Char} {cs : List Char} (hc : c ∈ delimiters) (hne : c ≠ '.') : Delimits (c :: cs) := by
  refine ⟨fun d hd => ?_, ?_⟩
  · cases hd
    exact hc
  · rintro ⟨g, hg⟩
    cases hg
    exact hne rfl

/-- A point that no second one follows. -/
theorem Delimits.point {f : List Char} (hf : StructuredText.startsWith (· == '.') f = false) : Delimits ('.' :: f) := by
  refine ⟨fun c hc => ?_, ?_⟩
  · cases hc
    decide
  · rintro ⟨g, hg⟩
    cases hg
    cases hf

/-- Two points that no third one follows. -/
theorem Delimits.points {f : List Char} (hf : StructuredText.startsWith (· == '.') f = false) :
    Delimits ('.' :: '.' :: f) := by
  refine ⟨fun c hc => ?_, ?_⟩
  · cases hc
    decide
  · rintro ⟨g, hg⟩
    cases hg
    cases hf

/-! ## Points -/

/-- What stands behind a token, as far as points go. -/
inductive Behind where
  /-- A point and a digit. -/
  | fraction
  /-- A point without a digit. -/
  | point
  /-- No point. -/
  | other
deriving DecidableEq

/-- What the text begins with, as far as points go. -/
def behind : List Char → Behind
  | [] => .other
  | c :: cs => if c = '.' then if startsWith Char.isDigit cs then .fraction else .point else .other

theorem behind_of_ne {c : Char} (h : c ≠ '.') (cs : List Char) : behind (c :: cs) = .other := if_neg h

theorem behind_point (cs : List Char) :
    behind ('.' :: cs) = if startsWith Char.isDigit cs then .fraction else .point := rfl

theorem behind_eq_other_iff {f : List Char} : behind f = .other ↔ startsWith (· == '.') f = false := by
  cases f with
  | nil => exact iff_of_true rfl rfl
  | cons c cs =>
    by_cases hc : c = '.'
    · rw [hc, behind_point]
      refine iff_of_false ?_ (by simp [startsWith])
      split <;> simp
    · exact iff_of_true (behind_of_ne hc cs) (beq_eq_false_iff_ne.2 hc)

theorem behind_eq_point_iff {f : List Char} :
    behind f = .point ↔ ∃ cs, f = '.' :: cs ∧ startsWith Char.isDigit cs = false := by
  cases f with
  | nil => simp [behind]
  | cons c cs =>
    by_cases hc : c = '.'
    · rw [hc, behind_point]
      cases hd : startsWith Char.isDigit cs with
      | true => simp [hd]
      | false => exact iff_of_true (if_neg Bool.false_ne_true) ⟨cs, rfl, hd⟩
    · simp [behind_of_ne hc, hc]

theorem behind_eq_fraction_iff {f : List Char} :
    behind f = .fraction ↔ ∃ cs, f = '.' :: cs ∧ startsWith Char.isDigit cs = true := by
  cases f with
  | nil => simp [behind]
  | cons c cs =>
    by_cases hc : c = '.'
    · rw [hc, behind_point]
      cases hd : startsWith Char.isDigit cs with
      | true => exact iff_of_true (if_pos rfl) ⟨cs, rfl, hd⟩
      | false => simp [hd]
    · simp [behind_of_ne hc, hc]

/-! ## Ends -/

/-- How a token ends, by what may stand behind it in source form. -/
inductive Ending where
  /-- Anything. -/
  | closed
  /-- An integer: no point with a digit. -/
  | number
  /-- A time of day behind its type name and without a fraction: no point. -/
  | seconds
  /-- A name that is a time of day spoilt by the point behind it: only such a point. -/
  | spoilt
  /-- A name that ends with `#`: nothing. -/
  | hash
deriving DecidableEq

/-- In source form the token keeps its kind in front of this. -/
def Ending.allows : Ending → Behind → Bool
  | closed, _ => true
  | number, b => b ≠ .fraction
  | seconds, b => b = .other
  | spoilt, b => b = .point
  | hash, _ => false

/-- The end of an integer. With the `#` of a base it is closed. -/
def numberEnding (text : List Char) : Ending := if text.getLast? = some '#' then .closed else .number

theorem numberEnding_append (l : List Char) {t : List Char} (ht : t ≠ []) :
    numberEnding (l ++ t) = numberEnding t := by
  rw [numberEnding, numberEnding, List.getLast?_append, List.getLast?_eq_some_getLast ht, Option.some_or]

theorem ne_fraction_of_numberEnding {l f : List Char} (h : (numberEnding l).allows (behind f) = true)
    (hl : l.getLast? ≠ some '#') : behind f ≠ .fraction := by
  rw [numberEnding, if_neg hl] at h
  simpa [Ending.allows] using h

/-- The end of a time of day behind its type name. With a fraction it is closed. -/
def secondsEnding (value : List Char) : Ending := if value.contains '.' then .closed else .seconds

/-- The kinds of literals with a time or a date. -/
def TokenKind.isTemporal : TokenKind → Bool
  | timeLiteral | dateLiteral | timeOfDayLiteral | dateAndTimeLiteral => true
  | _ => false

/-- The end of a literal with a time or a date. -/
def temporalEnding (kind : TokenKind) (value : List Char) : Ending :=
  match kind with
  | .timeOfDayLiteral | .dateAndTimeLiteral => secondsEnding value
  | _ => .closed

/-- What stands behind the last `#`, if there is one. -/
def afterLastHash? : List Char → Option (List Char)
  | [] => none
  | c :: cs => (afterLastHash? cs).or (if c = '#' then some cs else none)

/-- The end of a name. -/
def nameEnding (text : List Char) : Ending :=
  match afterLastHash? text with
  | none => .closed
  | some [] => .hash
  | some (c :: _) => if c.isDigit then .spoilt else .closed

theorem afterLastHash?_eq_none {cs : List Char} (h : '#' ∉ cs) : afterLastHash? cs = none := by
  induction cs with
  | nil => rfl
  | cons c cs ih =>
    rw [List.mem_cons, not_or] at h
    rw [afterLastHash?, ih h.2, if_neg (Ne.symm h.1)]
    rfl

theorem afterLastHash?_append {cs ds rest : List Char} (h : afterLastHash? ds = some rest) :
    afterLastHash? (cs ++ ds) = some rest := by
  induction cs with
  | nil => exact h
  | cons c cs ih =>
    rw [List.cons_append, afterLastHash?, ih]
    rfl

/-- The end of a name with a `#` is that of its part behind the `#`. -/
theorem afterLastHash?_hash (cs : List Char) {ds : List Char} (h : '#' ∉ ds) :
    afterLastHash? (cs ++ '#' :: ds) = some ds := by
  refine afterLastHash?_append ?_
  rw [afterLastHash?, afterLastHash?_eq_none h]
  rfl

end StructuredText
