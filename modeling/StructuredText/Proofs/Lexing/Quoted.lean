import StructuredText.Proofs.Lexing.Words

/-!
# Quoted strings in source form

Whatever a value is, its source form is read as one string token (`Scanned.quoted`), and the value of that token is the
value again (`Quote.read_write`). Both are proved character by character: what one character is written as is taken as a
whole, and stands for that character.
-/

namespace StructuredText

/-! ## Codes -/

theorem Text.length_fixedHex (width n : Nat) : (Text.fixedHex width n).length = width := by
  induction width generalizing n with
  | zero => rfl
  | succ width ih => simp [Text.fixedHex, ih]

/-- What holds of the sixteen digits holds of those of a number. -/
theorem Text.forall_mem_fixedHex {p : Char → Prop} (hp : ∀ n < 16, p (Nat.digitChar n).toUpper) (width n : Nat) :
    ∀ c ∈ Text.fixedHex width n, p c := by
  induction width generalizing n with
  | zero => simp [Text.fixedHex]
  | succ width ih =>
    intro c hc
    rw [Text.fixedHex, List.mem_append, List.mem_singleton] at hc
    rcases hc with hc | rfl
    · exact ih _ c hc
    · exact hp _ (Nat.mod_lt n (by decide))

theorem isHexDigit_of_mem_fixedHex {width n : Nat} : ∀ c ∈ Text.fixedHex width n, isHexDigit c = true :=
  Text.forall_mem_fixedHex (by decide) width n

namespace Quote

variable {q : Quote}

/-- The ways a character is written: behind a `$`, as its code, or as it is. -/
theorem escapeChar_cases (q : Quote) (c : Char) :
    (∃ d, q.escapeChar c = ['$', d] ∧ (d = q.mark ∨ d ∈ escapeLetters) ∧ ∀ cs, q.unescape (d :: cs) = ([c], 1)) ∨
    (q.escapeChar c = '$' :: Text.fixedHex q.codeDigits c.toNat ∧ isControl c = true) ∨
    q.escapeChar c = [c] ∧ c ≠ '$' ∧ c ≠ q.mark ∧ isLineEnd c = false := by
  by_cases hdollar : c = '$'
  · exact .inl ⟨'$', by simp [escapeChar, hdollar], .inr (by decide), fun cs => by rw [hdollar]; rfl⟩
  by_cases hn : c = '\n'
  · exact .inl ⟨'N', by simp [escapeChar, hn], .inr (by decide), fun cs => by rw [hn]; rfl⟩
  by_cases hr : c = '\r'
  · exact .inl ⟨'R', by simp [escapeChar, hr], .inr (by decide), fun cs => by rw [hr]; rfl⟩
  by_cases ht : c = '\t'
  · exact .inl ⟨'T', by simp [escapeChar, ht], .inr (by decide), fun cs => by rw [ht]; rfl⟩
  by_cases hp : c = '\x0C'
  · exact .inl ⟨'P', by simp [escapeChar, hp], .inr (by decide), fun cs => by rw [hp]; rfl⟩
  by_cases hm : c = q.mark
  · refine .inl ⟨q.mark, ?_, .inl rfl, fun cs => ?_⟩
    · cases q <;> simp [escapeChar, hm, mark]
    · cases q <;> rw [hm] <;> rfl
  by_cases hc : isControl c = true
  · exact .inr (.inl ⟨by simp [escapeChar, hdollar, hn, hr, ht, hp, hm, hc], hc⟩)
  · refine .inr (.inr ⟨by simp [escapeChar, hdollar, hn, hr, ht, hp, hm, hc], hdollar, hm, ?_⟩)
    simp [isLineEnd, hn, hr]

/-! ## The source form is one token -/

theorem scanFrom_skip (q : Quote) (state : QuotedState) (taken cs : List Char) :
    q.scanFrom state taken.length (taken ++ cs) = (q.scanFrom state 0 cs).after taken := by
  induction taken with
  | nil => rfl
  | cons c taken ih =>
    rw [List.cons_append, List.length_cons, scanFrom, ih]
    rfl

/-- Behind a `$`, an escape is taken as a whole. -/
theorem scanFrom_escape {state : QuotedState} {escape : List Char} (hstate : state ≠ .spoilt) {cs : List Char}
    (h : q.escapeLength? (escape ++ cs) = some escape.length) :
    q.scanFrom state 0 ('$' :: escape ++ cs) =
      (q.scanFrom (if startsWith (· == q.mark) (escape ++ cs) then .escapedMark else state) 0 cs).after
        ('$' :: escape) := by
  have hmark : ('$' == q.mark) = false := by cases q <;> rfl
  have hspoilt : (state != .spoilt) = true := by simpa using hstate
  rw [List.cons_append, scanFrom]
  rw [if_neg (by decide), if_neg (by rw [hmark]; exact Bool.false_ne_true), if_pos (by rw [hspoilt]; rfl), h]
  dsimp only
  rw [scanFrom_skip]
  rfl

theorem escapeLength?_letter {d : Char} (hd : d = q.mark ∨ d ∈ escapeLetters) (cs : List Char) :
    q.escapeLength? ([d] ++ cs) = some [d].length := by
  have hd : (d == q.mark || escapeLetters.contains d) = true := by
    rw [Bool.or_eq_true, beq_iff_eq, List.contains_iff_mem]
    exact hd
  rw [List.singleton_append, escapeLength?, hd]
  rfl

theorem escapeLength?_code (q : Quote) (n : Nat) (cs : List Char) :
    q.escapeLength? (Text.fixedHex q.codeDigits n ++ cs) = some (Text.fixedHex q.codeDigits n).length := by
  have hplain : ∀ c ∈ Text.fixedHex q.codeDigits n, (c == q.mark || escapeLetters.contains c) = false := by
    cases q
    · exact Text.forall_mem_fixedHex (by decide) _ _
    · exact Text.forall_mem_fixedHex (by decide) _ _
  have hlength : q.codeDigits ≤ ((Text.fixedHex q.codeDigits n ++ cs).takeWhile isHexDigit).length := by
    rw [List.takeWhile_append_of_pos isHexDigit_of_mem_fixedHex, List.length_append, Text.length_fixedHex]
    exact Nat.le_add_right _ _
  rw [Text.length_fixedHex]
  cases hcode : Text.fixedHex q.codeDigits n with
  | nil =>
    have := Text.length_fixedHex q.codeDigits n
    rw [hcode] at this
    cases q <;> cases this
  | cons c code =>
    rw [hcode] at hplain hlength
    rw [List.cons_append] at hlength ⊢
    rw [escapeLength?, hplain c List.mem_cons_self, if_neg Bool.false_ne_true, if_pos hlength]

/-- What a character is written as is taken as a whole. -/
theorem scanFrom_escapeChar {state : QuotedState} (hstate : state ≠ .spoilt) (c : Char) (cs : List Char) :
    ∃ state', state' ≠ .spoilt ∧
      q.scanFrom state 0 (q.escapeChar c ++ cs) = (q.scanFrom state' 0 cs).after (q.escapeChar c) := by
  have hnext (text : List Char) :
      (if startsWith (· == q.mark) text then QuotedState.escapedMark else state) ≠ .spoilt := by
    split
    · exact nofun
    · exact hstate
  rcases q.escapeChar_cases c with ⟨d, hc, hd, -⟩ | ⟨hc, hcontrol⟩ | ⟨hc, hdollar, hmark, hline⟩
  · rw [hc]
    exact ⟨_, hnext _, scanFrom_escape hstate (escapeLength?_letter hd cs)⟩
  · rw [hc]
    exact ⟨_, hnext _, scanFrom_escape hstate (escapeLength?_code q _ cs)⟩
  · refine ⟨state, hstate, ?_⟩
    rw [hc, List.singleton_append, scanFrom]
    simp [hline, hdollar, hmark, Scan.cons, Scan.after]

/-- The source form of a value is taken up to and with its mark. -/
theorem scanFrom_write {state : QuotedState} (hstate : state ≠ .spoilt) (value cs : List Char) :
    q.scanFrom state 0 (q.escape value ++ q.mark :: cs) = ⟨q.kind, q.escape value ++ [q.mark], cs⟩ := by
  induction value generalizing state with
  | nil =>
    have hline : isLineEnd q.mark = false := by cases q <;> rfl
    show q.scanFrom state 0 (q.mark :: cs) = _
    rw [scanFrom, hline, if_neg Bool.false_ne_true, if_pos (beq_self_eq_true _), if_neg hstate]
    rfl
  | cons c value ih =>
    obtain ⟨state', hstate', hc⟩ := scanFrom_escapeChar hstate c (q.escape value ++ q.mark :: cs)
    rw [escape, List.flatMap_cons, List.append_assoc]
    rw [escape] at hc ih
    rw [hc, ih hstate', Scan.after, List.append_assoc]

/-! ## The value of the source form -/

theorem valueFrom_skip (q : Quote) (taken cs : List Char) :
    q.valueFrom taken.length (taken ++ cs) = q.valueFrom 0 cs := by
  induction taken with
  | nil => rfl
  | cons c taken ih => exact ih

/-- The digits of a code are read as the code. -/
theorem unescape_code (q : Quote) (n : Nat) (cs : List Char) :
    q.unescape (Text.fixedHex q.codeDigits n ++ cs) =
      ([charOfCode (n % Nat.pow 16 q.codeDigits)], q.codeDigits) := by
  have hlength := Text.length_fixedHex q.codeDigits n
  have hdigits : ((Text.fixedHex q.codeDigits n ++ cs).takeWhile isHexDigit).take q.codeDigits =
      Text.fixedHex q.codeDigits n := by
    rw [List.takeWhile_append_of_pos isHexDigit_of_mem_fixedHex]
    exact List.take_left' hlength
  have hplain : ∀ d ∈ Text.fixedHex q.codeDigits n, (d == 'L' || d == 'l' || d == 'N' || d == 'n') = false ∧
      (d == 'P' || d == 'p') = false ∧ (d == 'R' || d == 'r') = false ∧ (d == 'T' || d == 't') = false ∧
      (d == '$' || d == single.mark || d == double.mark) = false :=
    Text.forall_mem_fixedHex (by decide) _ _
  cases hcode : Text.fixedHex q.codeDigits n with
  | nil =>
    rw [hcode] at hlength
    cases q <;> cases hlength
  | cons d code =>
    rw [hcode] at hdigits hplain hlength
    obtain ⟨h₁, h₂, h₃, h₄, h₅⟩ := hplain d List.mem_cons_self
    have hhex : isHexDigit d = true := isHexDigit_of_mem_fixedHex d (by rw [hcode]; exact List.mem_cons_self)
    rw [List.cons_append] at hdigits ⊢
    simp only [unescape, h₁, h₂, h₃, h₄, h₅, hhex, hdigits, Bool.false_eq_true, if_false, if_true]
    rw [← hcode, Text.hexValue_fixedHex, Text.length_fixedHex]

/-- The codes of control characters fit. -/
theorem charOfCode_of_isControl (q : Quote) {c : Char} (hc : isControl c = true) :
    charOfCode (c.toNat % Nat.pow 16 q.codeDigits) = c := by
  have hlt : c.toNat < 256 := by
    simp only [isControl, Bool.or_eq_true, Bool.and_eq_true, decide_eq_true_eq] at hc
    omega
  have hpow : 256 ≤ Nat.pow 16 q.codeDigits := by cases q <;> decide
  have hvalid : c.toNat.isValidChar := c.valid
  rw [Nat.mod_eq_of_lt (Nat.lt_of_lt_of_le hlt hpow), charOfCode, if_pos hvalid, Char.ofNat_toNat]

/-- What a character is written as stands for it. -/
theorem valueFrom_escapeChar (q : Quote) (c : Char) (cs : List Char) :
    q.valueFrom 0 (q.escapeChar c ++ cs) = c :: q.valueFrom 0 cs := by
  rcases q.escapeChar_cases c with ⟨d, hc, -, hd⟩ | ⟨hc, hcontrol⟩ | ⟨hc, hdollar, -, -⟩
  · rw [hc]
    simp [valueFrom, hd]
  · rw [hc]
    simp only [List.cons_append, valueFrom, beq_self_eq_true, if_true, unescape_code,
      charOfCode_of_isControl q hcontrol]
    have hskip := q.valueFrom_skip (Text.fixedHex q.codeDigits c.toNat) cs
    rw [Text.length_fixedHex] at hskip
    rw [hskip]
    rfl
  · rw [hc]
    simp [valueFrom, hdollar]

theorem valueFrom_escape (q : Quote) (value : List Char) : q.valueFrom 0 (q.escape value) = value := by
  induction value with
  | nil => rfl
  | cons c value ih =>
    rw [escape, List.flatMap_cons, valueFrom_escapeChar]
    exact congrArg _ ih

/-- Reading back what is written gives the value. -/
theorem read_write (q : Quote) (value : List Char) : q.read (q.write value) = value := by
  have hmark : (q.mark.utf8Size == 1) = true := by cases q <;> rfl
  have hinner : inner (q.write value) = q.escape value := by
    rw [write, List.cons_append, inner, List.getLast?_concat]
    simp [hmark]
  rw [read, hinner, valueFrom_escape]

end Quote

/-! ## Strings as tokens -/

/-- The source form of a value is one token, whatever stands behind it. -/
theorem Scanned.quoted (q : Quote) (value f : List Char) : Scanned q.kind (q.write value) f := by
  refine ⟨q.mark, q.escape value ++ [q.mark], rfl, ?_⟩
  have hscan : (q.scan (q.escape value ++ q.mark :: f)).cons q.mark = ⟨q.kind, q.write value, f⟩ := by
    rw [Quote.scan, Quote.scanFrom_write (by decide)]
    rfl
  rw [List.append_assoc, List.singleton_append, ← hscan]
  cases q <;> rfl

end StructuredText
