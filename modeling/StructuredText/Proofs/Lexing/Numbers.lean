import StructuredText.Proofs.Lexing.Words

/-!
# Numbers

A number is read the same way wherever it stands, with its digit separators or without them: what a scanner took from
some text is what it takes again in front of a delimiter, when no underscore has been dropped from it or all of them
(`Scanned.number`). Only an integer needs more behind it, since with a point and a digit it would be a real number.

`keep` says which characters stay, and all but the underscore do.
-/

namespace StructuredText

/-- The text goes on with no digit and no underscore. -/
structure Stops (p : Char → Bool) (f : List Char) : Prop where
  digit : startsWith p f = false
  underscore : startsWith (· == '_') f = false

theorem Delimits.stops {f : List Char} (h : Delimits f) {p : Char → Bool} (hp : delimiters.all (fun c => !p c) = true) :
    Stops p f :=
  ⟨h.startsWith hp, h.startsWith (by decide)⟩

/-- A sign in front of a number or an exponent. -/
def isSign (c : Char) : Bool := c == '+' || c == '-'

/-- The mark of an exponent. -/
def isExponentMark (c : Char) : Bool := c == 'e' || c == 'E'

theorem not_isSign_of_isDigit {c : Char} (h : c.isDigit = true) : isSign c = false := by
  rw [Bool.eq_false_iff]
  intro hc
  simp only [isSign, Bool.or_eq_true, beq_iff_eq] at hc
  rcases hc with rfl | rfl <;> cases h

theorem eq_or_eq_of_isExponentMark {c : Char} (h : isExponentMark c = true) : c = 'e' ∨ c = 'E' := by
  simpa [isExponentMark] using h

theorem ne_of_isExponentMark {c : Char} (h : isExponentMark c = true) : c ≠ '_' := by
  rintro rfl
  cases h

section

variable {p : Char → Bool} {f : List Char}

theorem startsWith_of_disjoint {q : Char → Bool} {l : List Char} (h : startsWith p l = true)
    (hq : ∀ c, p c = true → q c = false) : startsWith q l = false := by
  cases l with
  | nil => rfl
  | cons c cs => exact hq c h

theorem digitGroups_of_stops (hf : Stops p f) : digitGroups p f = ([], f) := by
  cases f with
  | nil => rfl
  | cons c cs =>
    have hc : p c = false := hf.digit
    have hu : (c == '_') = false := hf.underscore
    simp [digitGroups, hc, hu]

theorem looseDigits_of_stops (hf : Stops p f) : looseDigits p f = ⟨[], f, false⟩ := by
  cases f with
  | nil => rfl
  | cons c cs =>
    have hc : p c = false := hf.digit
    have hu : (c == '_') = false := hf.underscore
    simp [looseDigits, hc, hu]

theorem optionalSign_of_not (hf : startsWith isSign f = false) : optionalSign f = ([], f) := by
  cases f with
  | nil => rfl
  | cons c cs =>
    have hc : (c == '+' || c == '-') = false := hf
    simp [optionalSign, hc]

theorem exponents_of_not (hf : startsWith isExponentMark f = false) (n : Nat) : exponents n f = ([], f) := by
  cases n with
  | zero => rfl
  | succ n =>
    cases f with
    | nil => rfl
    | cons c cs =>
      have hc : (c == 'e' || c == 'E') = false := hf
      simp [exponents, hc]

/-- One exponent with digits. -/
theorem exponents_of_digits {c : Char} {sign cs rest : List Char} (hc : isExponentMark c = true)
    (hsign : optionalSign cs = (sign, rest)) (hd : startsWith Char.isDigit rest = true) (n : Nat) :
    exponents (n + 1) (c :: cs) =
      (c :: sign ++ (looseDigits Char.isDigit rest).taken, (looseDigits Char.isDigit rest).rest) := by
  have hc : (c == 'e' || c == 'E') = true := hc
  simp only [exponents, hc, hsign, hd, if_true]

/-- One exponent without digits. -/
theorem exponents_of_not_digits {c : Char} {sign cs rest : List Char} (hc : isExponentMark c = true)
    (hsign : optionalSign cs = (sign, rest)) (hd : startsWith Char.isDigit rest = false) (n : Nat) :
    exponents (n + 1) (c :: cs) = (c :: sign ++ (exponents n rest).1, (exponents n rest).2) := by
  have hc : (c == 'e' || c == 'E') = true := hc
  simp only [exponents, hc, hsign, hd, if_true, Bool.false_eq_true, if_false]

theorem startsWith_digitGroups {cs : List Char} (h : startsWith p cs = true) :
    startsWith p (digitGroups p cs).1 = true := by
  cases cs with
  | nil => cases h
  | cons c cs =>
    have hc : p c = true := h
    simp [digitGroups, hc, startsWith]

theorem startsWith_looseDigits {cs : List Char} (h : startsWith p cs = true) :
    startsWith p (looseDigits p cs).taken = true := by
  cases cs with
  | nil => cases h
  | cons c cs =>
    have hc : p c = true := h
    simp [looseDigits, hc, startsWith]

theorem startsWith_fraction {cs : List Char} (h : startsWith Char.isDigit cs = true) :
    startsWith Char.isDigit (fraction cs).1 = true := by
  have hd := startsWith_looseDigits h
  unfold fraction
  dsimp only
  cases hl : (looseDigits Char.isDigit cs).taken with
  | nil =>
    rw [hl] at hd
    cases hd
  | cons c ds =>
    rw [hl] at hd
    exact hd

theorem isDigit_or_of_mem_digitGroups {cs : List Char} {c : Char} (h : c ∈ (digitGroups p cs).1) :
    p c = true ∨ c = '_' := by
  fun_induction digitGroups p cs with
  | case1 | case3 => cases h
  | case2 d cs hd taken rest heq ih =>
    rw [heq] at ih
    rcases List.mem_cons.1 h with rfl | h
    · simp only [Bool.or_eq_true, Bool.and_eq_true, beq_iff_eq] at hd
      exact hd.imp_right And.left
    · exact ih h

/-! ## What follows the whole part -/

theorem scanAfterWhole_base {whole cs : List Char} (hbase : baseDigits? whole = some p) (h : startsWith p cs = true) :
    scanAfterWhole whole ('#' :: cs) =
      ⟨.nonDecimalLiteral, whole ++ '#' :: (looseDigits p cs).taken, (looseDigits p cs).rest⟩ := by
  simp only [scanAfterWhole, hbase, h, if_true]

theorem scanAfterWhole_hash {whole cs : List Char} (hbase : baseDigits? whole = some p)
    (h : startsWith p cs = false) : scanAfterWhole whole ('#' :: cs) = ⟨.intLiteral, whole ++ ['#'], cs⟩ := by
  simp only [scanAfterWhole, hbase, h, Bool.false_eq_true, if_false]

theorem scanAfterWhole_point (whole : List Char) {cs : List Char} (h : startsWith Char.isDigit cs = true) :
    scanAfterWhole whole ('.' :: cs) = ⟨.realLiteral, whole ++ '.' :: (fraction cs).1, (fraction cs).2⟩ := by
  simp only [scanAfterWhole, h, if_true]

/-- The whole part is an integer, or a base or a point goes on with it. -/
theorem scanAfterWhole_cases (whole cs : List Char) :
    scanAfterWhole whole cs = ⟨.intLiteral, whole, cs⟩ ∨
    (∃ p ds, cs = '#' :: ds ∧ baseDigits? whole = some p) ∨
    ∃ ds, cs = '.' :: ds ∧ startsWith Char.isDigit ds = true := by
  unfold scanAfterWhole
  split
  · exact .inl rfl
  · split
    · next hbase => exact .inr (.inl ⟨_, _, rfl, hbase⟩)
    · split
      · next h => exact .inr (.inr ⟨_, rfl, h⟩)
      · exact .inl rfl
    · exact .inl rfl

theorem scanAfterWhole_of_delimits (hf : Delimits f) (hfraction : behind f ≠ .fraction) (whole : List Char) :
    scanAfterWhole whole f = ⟨.intLiteral, whole, f⟩ := by
  rcases scanAfterWhole_cases whole f with h | ⟨p, ds, rfl, -⟩ | ⟨ds, rfl, h⟩
  · exact h
  · exact absurd (hf.head '#' rfl) (by decide)
  · exact absurd (if_pos h) hfraction

/-- The digits of a base are no separators and no delimiters, and the base is written without separators. -/
theorem baseDigits?_eq_some {whole : List Char} (h : baseDigits? whole = some p) :
    '_' ∉ whole ∧ p '_' = false ∧ delimiters.all (fun c => !p c) = true := by
  unfold baseDigits? at h
  split at h <;> cases h <;> decide

end

section

variable {keep p : Char → Bool} {f : List Char} (hkeep : ∀ c, c ≠ '_' → keep c = true)

include hkeep

/-- A character other than the underscore is the first one before and after. -/
theorem startsWith_filter (hp : p '_' = false) {l : List Char} (h : startsWith p l = true) :
    startsWith p (l.filter keep ++ f) = true := by
  cases l with
  | nil => cases h
  | cons c cs =>
    have hc : c ≠ '_' := fun hc => by
      rw [startsWith, hc, hp] at h
      cases h
    rw [List.filter_cons_of_pos (hkeep c hc)]
    exact h

/-! ## Runs of digits -/

theorem digitGroups_filter (hp : p '_' = false) (hf : Stops p f) (cs : List Char) :
    digitGroups p ((digitGroups p cs).1.filter keep ++ f) = ((digitGroups p cs).1.filter keep, f) := by
  fun_induction digitGroups p cs with
  | case1 => exact digitGroups_of_stops hf
  | case2 c cs hc taken rest heq ih =>
    rw [heq] at ih
    by_cases hk : keep c = true
    · rw [List.filter_cons_of_pos hk, List.cons_append]
      have hgo : (p c || (c == '_' && startsWith p (taken.filter keep ++ f))) = true := by
        simp only [Bool.or_eq_true, Bool.and_eq_true] at hc ⊢
        refine hc.imp_right fun ⟨hu, hcs⟩ => ⟨hu, ?_⟩
        have htaken := startsWith_digitGroups hcs
        rw [heq] at htaken
        exact startsWith_filter hkeep hp htaken
      simp only [digitGroups, hgo, if_true, ih]
    · rw [List.filter_cons_of_neg hk]
      exact ih
  | case3 => exact digitGroups_of_stops hf

theorem looseDigits_filter (hp : p '_' = false) (hf : Stops p f) (cs : List Char) :
    looseDigits p ((looseDigits p cs).taken.filter keep ++ f) =
      ⟨(looseDigits p cs).taken.filter keep, f, (looseDigits p cs).dangling && keep '_'⟩ := by
  fun_induction looseDigits p cs with
  | case1 => exact looseDigits_of_stops hf
  | case2 c cs hc run ih =>
    have ih : looseDigits p (run.taken.filter keep ++ f) =
      ⟨run.taken.filter keep, f, run.dangling && keep '_'⟩ := ih
    by_cases hk : keep c = true
    · rw [List.filter_cons_of_pos hk, List.cons_append]
      have hgo : (p c || (c == '_' && startsWith p (run.taken.filter keep ++ f))) = true := by
        simp only [Bool.or_eq_true, Bool.and_eq_true] at hc ⊢
        exact hc.imp_right fun ⟨hu, hcs⟩ => ⟨hu, startsWith_filter hkeep hp (startsWith_looseDigits hcs)⟩
      simp only [looseDigits, hgo, if_true, ih]
    · rw [List.filter_cons_of_neg hk]
      exact ih
  | case3 c cs hc hu =>
    rw [eq_of_beq hu]
    by_cases hk : keep '_' = true
    · simp [looseDigits, hk, hp, hf.digit]
    · simp [hk, looseDigits_of_stops hf]
  | case4 => exact looseDigits_of_stops hf

/-! ## Exponents and fractions -/

theorem optionalSign_filter {cs sign rest l : List Char} (h : optionalSign cs = (sign, rest))
    (hl : startsWith isSign l = false) : sign.filter keep = sign ∧ optionalSign (sign ++ l) = (sign, l) := by
  have hnone : ([] : List Char).filter keep = [] ∧ optionalSign ([] ++ l) = ([], l) := ⟨rfl, optionalSign_of_not hl⟩
  cases cs with
  | nil =>
    cases h
    exact hnone
  | cons c cs =>
    by_cases hc : isSign c = true
    · have hu : c ≠ '_' := by
        rintro rfl
        cases hc
      have hc : (c == '+' || c == '-') = true := hc
      simp only [optionalSign, hc, if_true] at h
      cases h
      simp [optionalSign, hc, hkeep c hu]
    · rw [optionalSign_of_not (f := c :: cs) (Bool.not_eq_true _ ▸ hc)] at h
      cases h
      exact hnone

/-- What exponents take begins with the mark of one. -/
theorem startsWith_exponents {q : Char → Bool} (he : q 'e' = false) (hE : q 'E' = false)
    (hf : startsWith q f = false) (n : Nat) (cs : List Char) :
    startsWith q ((exponents n cs).1.filter keep ++ f) = false := by
  have hq {c : Char} (hc : isExponentMark c = true) : q c = false := by
    rcases eq_or_eq_of_isExponentMark hc with rfl | rfl
    · exact he
    · exact hE
  cases n with
  | zero => exact hf
  | succ n =>
    cases cs with
    | nil => exact hf
    | cons c cs =>
      by_cases hc : isExponentMark c = true
      · have hkeep := hkeep c (ne_of_isExponentMark hc)
        obtain ⟨sign, rest, hs⟩ : ∃ sign rest, optionalSign cs = (sign, rest) := ⟨_, _, rfl⟩
        cases hd : startsWith Char.isDigit rest with
        | true =>
          rw [exponents_of_digits hc hs hd, List.cons_append, List.filter_cons_of_pos hkeep]
          exact hq hc
        | false =>
          rw [exponents_of_not_digits hc hs hd, List.cons_append, List.filter_cons_of_pos hkeep]
          exact hq hc
      · rw [exponents_of_not (f := c :: cs) (Bool.not_eq_true _ ▸ hc)]
        exact hf

theorem exponents_filter (hf : Delimits f) {m n : Nat} (hle : n ≤ m) (cs : List Char) :
    exponents m ((exponents n cs).1.filter keep ++ f) = ((exponents n cs).1.filter keep, f) := by
  have hnone (m : Nat) : exponents m f = ([], f) := exponents_of_not (hf.startsWith (by decide)) m
  induction n generalizing m cs with
  | zero => exact hnone m
  | succ n ih =>
    obtain ⟨m, rfl⟩ : ∃ k, m = k + 1 := Nat.exists_eq_add_one.2 (by omega)
    cases cs with
    | nil => exact hnone _
    | cons c cs =>
      by_cases hc : isExponentMark c = true
      · have hkeepc := hkeep c (ne_of_isExponentMark hc)
        obtain ⟨sign, rest, hs⟩ : ∃ sign rest, optionalSign cs = (sign, rest) := ⟨_, _, rfl⟩
        cases hd : startsWith Char.isDigit rest with
        | true =>
          have hdigit := startsWith_filter hkeep (f := f) rfl (startsWith_looseDigits hd)
          obtain ⟨hsame, hsign⟩ := optionalSign_filter hkeep hs
            (startsWith_of_disjoint hdigit fun _ => not_isSign_of_isDigit)
          rw [exponents_of_digits hc hs hd, List.cons_append, List.filter_cons_of_pos hkeepc, List.filter_append,
            hsame, List.cons_append, List.append_assoc, exponents_of_digits hc hsign hdigit,
            looseDigits_filter hkeep rfl (hf.stops (by decide))]
          rfl
        | false =>
          obtain ⟨hsame, hsign⟩ := optionalSign_filter hkeep hs
            (startsWith_exponents hkeep rfl rfl (hf.startsWith (by decide)) n rest)
          have hdigit := startsWith_exponents hkeep (q := Char.isDigit) rfl rfl (hf.startsWith (by decide)) n rest
          rw [exponents_of_not_digits hc hs hd, List.cons_append, List.filter_cons_of_pos hkeepc, List.filter_append,
            hsame, List.cons_append, List.append_assoc, exponents_of_not_digits hc hsign hdigit, ih (by omega)]
          rfl
      · rw [exponents_of_not (f := c :: cs) (Bool.not_eq_true _ ▸ hc)]
        exact hnone _

theorem fraction_filter (hf : Delimits f) (cs : List Char) :
    fraction ((fraction cs).1.filter keep ++ f) = ((fraction cs).1.filter keep, f) := by
  have hstops (n : Nat) (rest : List Char) : Stops Char.isDigit ((exponents n rest).1.filter keep ++ f) :=
    ⟨startsWith_exponents hkeep rfl rfl (hf.startsWith (by decide)) n rest,
      startsWith_exponents hkeep rfl rfl (hf.startsWith (by decide)) n rest⟩
  simp only [fraction, List.filter_append, List.append_assoc]
  rw [looseDigits_filter hkeep rfl (hstops _ _)]
  dsimp only
  rw [exponents_filter hkeep hf ?_]
  cases (looseDigits Char.isDigit cs).dangling <;> cases keep '_' <;> simp

/-! ## Numbers -/

/-- A number that is read from some text is read again in front of a delimiter. -/
theorem scanNumber_filter (hf : Delimits f) {k : TokenKind} {cs l rest : List Char} (h : scanNumber cs = ⟨k, l, rest⟩)
    (hfraction : k = .intLiteral → (l.filter keep).getLast? ≠ some '#' → behind f ≠ .fraction) :
    scanNumber (l.filter keep ++ f) = ⟨k, l.filter keep, f⟩ := by
  have hwhole {g : List Char} (hg : Stops Char.isDigit g) := digitGroups_filter hkeep rfl hg cs
  have hmem : ∀ c ∈ (digitGroups Char.isDigit cs).1, c ≠ '#' := by
    rintro c hc rfl
    rcases isDigit_or_of_mem_digitGroups hc with h | h <;> cases h
  obtain ⟨whole, after, hgroups⟩ : ∃ whole after, digitGroups Char.isDigit cs = (whole, after) := ⟨_, _, rfl⟩
  rw [scanNumber, hgroups] at h
  rw [hgroups] at hwhole hmem
  dsimp only at h hwhole hmem
  rcases scanAfterWhole_cases whole after with hint | ⟨p, ds, rfl, hbase⟩ | ⟨ds, rfl, hd⟩
  -- A point may stand behind an integer only where no digit follows it.
  · rw [hint] at h
    cases h
    have hlast : (l.filter keep).getLast? ≠ some '#' := fun h =>
      hmem _ (List.mem_filter.1 (List.mem_of_getLast? h)).1 rfl
    rw [scanNumber, hwhole (hf.stops (by decide))]
    exact scanAfterWhole_of_delimits hf (hfraction rfl hlast) _
  · obtain ⟨hne, hu, hdelim⟩ := baseDigits?_eq_some hbase
    have hsame : whole.filter keep = whole := List.filter_eq_self.2 fun c hc => hkeep c (ne_of_mem_of_not_mem hc hne)
    have hbehind (g : List Char) : scanNumber (whole ++ '#' :: g) = scanAfterWhole whole ('#' :: g) := by
      have hg := hwhole (g := '#' :: g) ⟨rfl, rfl⟩
      rw [hsame] at hg
      rw [scanNumber, hg]
    cases hd : startsWith p ds with
    | true =>
      rw [scanAfterWhole_base hbase hd] at h
      cases h
      have hd' := startsWith_filter hkeep (f := f) hu (startsWith_looseDigits hd)
      rw [List.filter_append, List.filter_cons_of_pos (hkeep '#' (by decide)), hsame, List.append_assoc,
        List.cons_append, hbehind, scanAfterWhole_base hbase hd', looseDigits_filter hkeep hu (hf.stops hdelim)]
    | false =>
      rw [scanAfterWhole_hash hbase hd] at h
      cases h
      rw [List.filter_append, List.filter_cons_of_pos (hkeep '#' (by decide)), hsame, List.append_assoc,
        List.cons_append, hbehind]
      exact scanAfterWhole_hash hbase (hf.startsWith hdelim)
  · rw [scanAfterWhole_point whole hd] at h
    cases h
    have hd' := startsWith_filter hkeep (f := f) rfl (startsWith_fraction hd)
    rw [List.filter_append, List.filter_cons_of_pos (hkeep '.' (by decide)), List.append_assoc, List.cons_append,
      scanNumber, hwhole ⟨rfl, rfl⟩]
    dsimp only
    rw [scanAfterWhole_point _ hd', fraction_filter hkeep hf]

end

/-! ## The tokens that are numbers -/

theorem isDigit_of_isNumber {c : Char} {cs : List Char} (h : (scanToken c cs).kind.isNumber = true) :
    c.isDigit = true := by
  have hsymbol (k : TokenKind) (hk : k.isSymbol = true) : k.isNumber = false := by
    cases k <;> first | rfl | cases hk
  have htrivia (k : TokenKind) (hk : k.isTriviaOrError = true) : k.isNumber = false := by
    cases k <;> first | rfl | cases hk
  have htyped (k : TokenKind) (hk : k.isTyped = true) : k.isNumber = false := by
    cases k <;> first | rfl | cases hk
  have hquote (q : Quote) : q.kind.isNumber = false := by cases q <;> rfl
  rcases scanToken_kinds hsymbol htrivia hquote c cs with ⟨-, hs⟩ | ⟨hc, -⟩ | hs
  · rw [hs, scanWord_not (by decide) (fun _ => rfl) htyped] at h
    cases h
  · exact hc
  · rw [h] at hs
    cases hs

theorem isWordStart_of_isDigit {c : Char} (h : c.isDigit = true) : isWordStart c = false := by
  simp only [Char.isDigit, Bool.and_eq_true, decide_eq_true_eq, ge_iff_le, UInt32.le_iff_toNat_le] at h
  have hle : c.val.toNat ≤ 57 := h.2
  rw [Bool.eq_false_iff]
  intro hword
  rcases Bool.or_eq_true_iff.1 hword with halpha | hunderscore
  · rcases Bool.or_eq_true_iff.1 halpha with hupper | hlower
    · have hge : 65 ≤ c.val.toNat := (of_decide_eq_true hupper).1
      omega
    · have hge : 97 ≤ c.val.toNat := of_decide_eq_true (Bool.and_eq_true_iff.1 hlower).1
      omega
  · rw [beq_iff_eq] at hunderscore
    rw [hunderscore] at hle
    exact absurd hle (by decide)

theorem scanToken_of_isDigit {c : Char} (h : c.isDigit = true) (cs : List Char) :
    scanToken c cs = scanNumber (c :: cs) := by
  have hblank : isBlank c = false := by
    rw [Bool.eq_false_iff]
    intro hc
    simp only [isBlank, Bool.or_eq_true, beq_iff_eq] at hc
    rcases hc with ((rfl | rfl) | rfl) | rfl <;> cases h
  have hword := isWordStart_of_isDigit h
  simp [scanToken, hblank, hword, h]

/-- A number is read the same way in front of every delimiter, also without its separators. -/
theorem Scanned.number {k : TokenKind} {l f g : List Char} (h : Scanned k l f) (hk : k.isNumber = true)
    {keep : Char → Bool} (hkeep : ∀ c, c ≠ '_' → keep c = true) (hg : Delimits g)
    (hfraction : k = .intLiteral → (l.filter keep).getLast? ≠ some '#' → behind g ≠ .fraction) :
    Scanned k (l.filter keep) g := by
  obtain ⟨c, cs, rfl, hs⟩ := h
  have hc : c.isDigit = true := isDigit_of_isNumber (by rw [hs]; exact hk)
  have hu : c ≠ '_' := by
    rintro rfl
    cases hc
  rw [scanToken_of_isDigit hc] at hs
  have hs := scanNumber_filter hkeep hg hs hfraction
  rw [List.filter_cons_of_pos (hkeep c hu)] at hs ⊢
  refine ⟨c, cs.filter keep, rfl, ?_⟩
  rw [scanToken_of_isDigit hc]
  exact hs

/-- A number is read the same way with its separators. -/
theorem Scanned.number_again {k : TokenKind} {l f g : List Char} (h : Scanned k l f) (hk : k.isNumber = true)
    (hg : Delimits g) (hfraction : k = .intLiteral → l.getLast? ≠ some '#' → behind g ≠ .fraction) : Scanned k l g := by
  have hall : l.filter (fun _ => true) = l := List.filter_eq_self.2 fun _ _ => rfl
  have hnumber : Scanned k (l.filter fun _ => true) g := h.number hk (fun _ _ => rfl) hg (by rwa [hall])
  rwa [hall] at hnumber

theorem Scanned.startsWith_isDigit {k : TokenKind} {l f : List Char} (h : Scanned k l f) (hk : k.isNumber = true) :
    startsWith Char.isDigit l = true := by
  obtain ⟨c, cs, rfl, hs⟩ := h
  exact isDigit_of_isNumber (by rw [hs]; exact hk)

/-- There is no point in an integer. -/
theorem Scanned.point_not_mem {l f : List Char} (h : Scanned .intLiteral l f) : '.' ∉ l := by
  obtain ⟨c, cs, rfl, hs⟩ := h
  rw [scanToken_of_isDigit (isDigit_of_isNumber (by rw [hs]; rfl))] at hs
  obtain ⟨whole, after, hgroups⟩ : ∃ whole after, digitGroups Char.isDigit (c :: (cs ++ f)) = (whole, after) :=
    ⟨_, _, rfl⟩
  have hmem : '.' ∉ whole := by
    intro hc
    have hgroup : '.' ∈ (digitGroups Char.isDigit (c :: (cs ++ f))).1 := by
      rw [hgroups]
      exact hc
    rcases isDigit_or_of_mem_digitGroups hgroup with h | h <;> cases h
  rw [scanNumber, hgroups] at hs
  dsimp only at hs
  rcases scanAfterWhole_cases whole after with hint | ⟨p, ds, rfl, hbase⟩ | ⟨ds, rfl, hd⟩
  · rw [hint] at hs
    injection hs with _ hl
    rwa [← hl]
  · cases hd : startsWith p ds with
    | true =>
      rw [scanAfterWhole_base hbase hd] at hs
      cases hs
    | false =>
      rw [scanAfterWhole_hash hbase hd] at hs
      injection hs with _ hl
      rw [← hl]
      simp [hmem]
  · rw [scanAfterWhole_point whole hd] at hs
    cases hs

end StructuredText
