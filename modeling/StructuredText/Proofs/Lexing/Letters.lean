import StructuredText.Token.Lexer

/-!
# Cutting a text regardless of case

No scanner tells a small letter from its capital: each reads the text in capitals as it reads the text, and what it
reads are the capitals of what it reads there (`scanToken_upper`). So the tokens of a text and of its capitals have the
same kinds and the same spans (`lex_eq_of_sameLetters`).
-/

namespace StructuredText

/-! ## Letters -/

/-- The letters that have a capital. -/
def smallLetters : List Char := "abcdefghijklmnopqrstuvwxyz".toList

theorem toUpper_of_not_small {c : Char} (h : c ∉ smallLetters) : c.toUpper = c := by
  unfold Char.toUpper
  split
  · next hc =>
    have hletters : ∀ n < 26, Char.ofNat (97 + n) ∈ smallLetters := by decide
    have hlow : 97 ≤ c.toNat := hc.1
    have hhigh : c.toNat ≤ 122 := hc.2
    have hmem := hletters (c.toNat - 97) (by omega)
    rw [show 97 + (c.toNat - 97) = c.toNat by omega, Char.ofNat_toNat] at hmem
    exact absurd hmem h
  · rfl

/-- What does not tell the small letters from their capitals tells no character from its capital. -/
theorem eq_toUpper_of_small {f : Char → α} (h : smallLetters.map (fun c => f c.toUpper) = smallLetters.map f)
    (c : Char) : f c.toUpper = f c := by
  by_cases hc : c ∈ smallLetters
  · exact List.map_inj_left.1 h c hc
  · rw [toUpper_of_not_small hc]

namespace Text

@[simp] theorem upper_nil : upper [] = [] := rfl

@[simp] theorem upper_cons (c : Char) (cs : List Char) : upper (c :: cs) = c.toUpper :: upper cs := rfl

@[simp] theorem toUpper_toUpper (c : Char) : c.toUpper.toUpper = c.toUpper :=
  eq_toUpper_of_small (f := Char.toUpper) (by decide) c

@[simp] theorem upper_upper (cs : List Char) : upper (upper cs) = upper cs := by
  rw [upper, upper, List.map_map]
  exact List.map_congr_left fun c _ => toUpper_toUpper c

@[simp] theorem byteLength_upper (cs : List Char) : byteLength (upper cs) = byteLength cs := by
  induction cs with
  | nil => rfl
  | cons c cs ih =>
    rw [upper_cons, byteLength_cons, byteLength_cons, ih, eq_toUpper_of_small (f := Char.utf8Size) (by decide)]

end Text

/-- A class of characters that holds a small letter just if it holds its capital. -/
class Caseless (p : Char → Bool) : Prop where
  small : smallLetters.map (fun c => p c.toUpper) = smallLetters.map p

theorem Caseless.toUpper (p : Char → Bool) [Caseless p] (c : Char) : p c.toUpper = p c :=
  eq_toUpper_of_small Caseless.small c

instance : Caseless isBlank := ⟨by decide⟩
instance : Caseless isLineEnd := ⟨by decide⟩
instance : Caseless isWordStart := ⟨by decide⟩
instance : Caseless isWordPart := ⟨by decide⟩
instance : Caseless Char.isDigit := ⟨by decide⟩
instance : Caseless isOctalDigit := ⟨by decide⟩
instance : Caseless isBinaryDigit := ⟨by decide⟩
instance : Caseless isHexDigit := ⟨by decide⟩

theorem isAlpha_of_small {c : Char} (hc : c ∈ smallLetters) : c.isAlpha = true ∧ c.toUpper.isAlpha = true := by
  have hsmall : smallLetters.all (fun c => c.isAlpha && c.toUpper.isAlpha) = true := by decide
  simpa using List.all_eq_true.1 hsmall c hc

/-- A character that is no letter is told from all others. -/
theorem toUpper_beq {x : Char} (hx : x.isAlpha = false) (c : Char) : (c.toUpper == x) = (c == x) := by
  have hne {d : Char} (hd : d.isAlpha = true) : (d == x) = false := by
    rw [beq_eq_false_iff_ne]
    rintro rfl
    rw [hx] at hd
    cases hd
  refine eq_toUpper_of_small (f := (· == x)) (List.map_congr_left fun c hc => ?_) c
  rw [hne (isAlpha_of_small hc).1, hne (isAlpha_of_small hc).2]

theorem toUpper_eq_iff {x : Char} (hx : x.isAlpha = false) {c : Char} : c.toUpper = x ↔ c = x := by
  rw [← beq_iff_eq, toUpper_beq hx, beq_iff_eq]

instance : Caseless (· != '}') := ⟨by decide⟩
instance : Caseless (!isLineEnd ·) := ⟨by decide⟩
instance : Caseless (fun c => c.isDigit || c == '_') := ⟨by decide⟩

instance (q : Quote) : Caseless (· == q.mark) := ⟨by cases q <;> decide⟩

open Text (upper)

/-! ## Rows of characters -/

section

variable (p : Char → Bool) [Caseless p] (cs : List Char)

theorem startsWith_upper : startsWith p (upper cs) = startsWith p cs := by
  cases cs with
  | nil => rfl
  | cons c cs => exact Caseless.toUpper p c

theorem takeWhile_upper : (upper cs).takeWhile p = upper (cs.takeWhile p) := by
  rw [upper, List.takeWhile_map, upper]
  exact congrArg (fun q => (cs.takeWhile q).map Char.toUpper) (funext fun c => Caseless.toUpper p c)

theorem dropWhile_upper : (upper cs).dropWhile p = upper (cs.dropWhile p) := by
  rw [upper, List.dropWhile_map, upper]
  exact congrArg (fun q => (cs.dropWhile q).map Char.toUpper) (funext fun c => Caseless.toUpper p c)

theorem filter_upper : (upper cs).filter p = upper (cs.filter p) := by
  rw [upper, List.filter_map, upper]
  exact congrArg (fun q => (cs.filter q).map Char.toUpper) (funext fun c => Caseless.toUpper p c)

end

/-! ## Scans -/

/-- The scan with its texts in capitals. -/
def Scan.upper (s : Scan) : Scan := ⟨s.kind, Text.upper s.lexeme, Text.upper s.rest⟩

@[simp] theorem Scan.upper_stop (kind : TokenKind) (cs : List Char) :
    (stop kind cs).upper = stop kind (Text.upper cs) :=
  rfl

@[simp] theorem Scan.upper_cons (c : Char) (s : Scan) : (s.cons c).upper = s.upper.cons c.toUpper := rfl

@[simp] theorem Scan.upper_after (taken : List Char) (s : Scan) :
    (s.after taken).upper = s.upper.after (Text.upper taken) := by
  simp [Scan.upper, Scan.after]

/-! ### Comments -/

theorem CommentStyle.body?_upper (style : CommentStyle) (depth : Nat) (cs : List Char) :
    style.body? depth (upper cs) = (style.body? depth cs).map (Prod.map upper upper) := by
  have hleft {c : Char} : c.toUpper = style.left ↔ c = style.left := toUpper_eq_iff (by cases style <;> rfl)
  have hright {c : Char} : c.toUpper = style.right ↔ c = style.right := toUpper_eq_iff (by cases style <;> rfl)
  have hstar {c : Char} : c.toUpper = '*' ↔ c = '*' := toUpper_eq_iff rfl
  fun_induction body? style depth cs with
  | case1 depth a b cs h ih =>
    simp only [Text.upper_cons, body?, hleft, hstar, if_pos h, ih, Option.map_map]
    rfl
  | case2 a b cs h h' =>
    simp only [Text.upper_cons, body?, hleft, hstar, hright, if_neg h, if_pos h']
    rfl
  | case3 a b cs h h' depth ih =>
    simp only [Text.upper_cons, body?, hleft, hstar, hright, if_neg h, if_pos h', ih, Option.map_map]
    rfl
  | case4 depth a b cs h h' ih =>
    rw [Text.upper_cons] at ih
    simp only [Text.upper_cons, body?, hleft, hstar, hright, if_neg h, if_neg h', ih, Option.map_map]
    rfl
  | case5 cs depth h =>
    cases cs with
    | nil => rfl
    | cons a cs =>
      cases cs with
      | nil => rfl
      | cons b cs => exact absurd rfl (h a b cs)

theorem CommentStyle.scan_upper (style : CommentStyle) (cs : List Char) :
    style.scan (upper cs) = (style.scan cs).upper := by
  rw [scan, scan, body?_upper]
  cases style.body? 0 cs <;> rfl

theorem scanLineComment_upper (cs : List Char) : scanLineComment (upper cs) = (scanLineComment cs).upper := by
  rw [scanLineComment, takeWhile_upper, dropWhile_upper]
  rfl

theorem scanPragma_upper (cs : List Char) : scanPragma (upper cs) = (scanPragma cs).upper := by
  rw [scanPragma, scanPragma, dropWhile_upper, takeWhile_upper]
  cases cs.dropWhile (· != '}') with
  | nil => rfl
  | cons close rest => simp [Scan.upper]

/-! ### Quoted strings -/

namespace Quote

variable (q : Quote)

theorem escapeLength?_upper (cs : List Char) : q.escapeLength? (upper cs) = q.escapeLength? cs := by
  cases cs with
  | nil => rfl
  | cons c cs =>
    have hletter : (c.toUpper == q.mark || escapeLetters.contains c.toUpper) =
        (c == q.mark || escapeLetters.contains c) :=
      eq_toUpper_of_small (f := fun c => c == q.mark || escapeLetters.contains c) (by cases q <;> decide) c
    rw [Text.upper_cons, escapeLength?, hletter, ← Text.upper_cons, takeWhile_upper, Text.length_upper, escapeLength?]

theorem atLineEnd_upper (cs : List Char) : atLineEnd (upper cs) = atLineEnd cs := by
  cases cs with
  | nil => rfl
  | cons c cs => exact Caseless.toUpper isLineEnd c

theorem scanFrom_upper (state : QuotedState) (skip : Nat) (cs : List Char) :
    q.scanFrom state skip (upper cs) = (q.scanFrom state skip cs).upper := by
  have hend (c : Char) : isLineEnd c.toUpper = isLineEnd c := Caseless.toUpper _ c
  have hmark (c : Char) : (c.toUpper == q.mark) = (c == q.mark) := Caseless.toUpper (· == q.mark) c
  have hdollar (c : Char) : (c.toUpper == '$') = (c == '$') := toUpper_beq rfl c
  induction cs generalizing state skip with
  | nil => cases state <;> cases skip <;> rfl
  | cons c cs ih =>
    cases skip with
    | succ skip => simp only [Text.upper_cons, scanFrom, ih, Scan.upper_cons]
    | zero =>
      simp only [Text.upper_cons, scanFrom, hend, hmark, hdollar, escapeLength?_upper, startsWith_upper,
        dropWhile_upper, atLineEnd_upper, ih]
      split
      · rfl
      · split
        · rfl
        · split
          · split
            · rfl
            · split <;> rfl
          · rfl

theorem scan_upper (cs : List Char) : q.scan (upper cs) = (q.scan cs).upper := scanFrom_upper q _ _ cs

end Quote

/-! ### Numbers -/

section

variable (p : Char → Bool) [Caseless p] (cs : List Char)

theorem digitGroups_upper : digitGroups p (upper cs) = (digitGroups p cs).map upper upper := by
  induction cs with
  | nil => rfl
  | cons c cs ih =>
    simp only [Text.upper_cons, digitGroups, Caseless.toUpper p, startsWith_upper p, toUpper_beq (x := '_') rfl, ih]
    split <;> rfl

/-- The run with its texts in capitals. -/
def LooseDigits.upper (run : LooseDigits) : LooseDigits := ⟨Text.upper run.taken, Text.upper run.rest, run.dangling⟩

theorem looseDigits_upper : looseDigits p (upper cs) = (looseDigits p cs).upper := by
  induction cs with
  | nil => rfl
  | cons c cs ih =>
    simp only [Text.upper_cons, looseDigits, Caseless.toUpper p, startsWith_upper p, toUpper_beq (x := '_') rfl, ih]
    split
    · rfl
    · split <;> rfl

end

theorem optionalSign_upper (cs : List Char) : optionalSign (upper cs) = (optionalSign cs).map upper upper := by
  cases cs with
  | nil => rfl
  | cons c cs =>
    simp only [Text.upper_cons, optionalSign, toUpper_beq (x := '+') rfl, toUpper_beq (x := '-') rfl]
    split <;> rfl

theorem exponents_upper (tries : Nat) (cs : List Char) :
    exponents tries (upper cs) = (exponents tries cs).map upper upper := by
  induction tries generalizing cs with
  | zero => rfl
  | succ tries ih =>
    cases cs with
    | nil => rfl
    | cons c cs =>
      have hmark : (c.toUpper == 'e' || c.toUpper == 'E') = (c == 'e' || c == 'E') :=
        eq_toUpper_of_small (f := fun c => c == 'e' || c == 'E') (by decide) c
      simp only [Text.upper_cons, exponents, hmark, optionalSign_upper, Prod.map_fst, Prod.map_snd, startsWith_upper,
        looseDigits_upper, ih]
      split
      · split <;> simp [LooseDigits.upper]
      · rfl

theorem fraction_upper (cs : List Char) : fraction (upper cs) = (fraction cs).map upper upper := by
  simp [fraction, looseDigits_upper, exponents_upper, LooseDigits.upper]

theorem isAlpha_of_baseDigits? {whole : List Char} {p : Char → Bool} (h : baseDigits? whole = some p) :
    Caseless p ∧ ∀ c ∈ whole, c.isAlpha = false := by
  suffices Caseless p ∧ whole.all (!·.isAlpha) from ⟨this.1, by simpa using this.2⟩
  unfold baseDigits? at h
  split at h <;> cases h <;> exact ⟨inferInstance, by decide⟩

theorem baseDigits?_upper (whole : List Char) : baseDigits? (upper whole) = baseDigits? whole := by
  by_cases hsmall : ∃ c ∈ whole, c ∈ smallLetters
  · obtain ⟨c, hc, hletter⟩ := hsmall
    have hnone {ds : List Char} {d : Char} (hd : d ∈ ds) (halpha : d.isAlpha = true) : baseDigits? ds = none := by
      refine Option.eq_none_iff_forall_ne_some.2 fun p hp => ?_
      rw [(isAlpha_of_baseDigits? hp).2 d hd] at halpha
      cases halpha
    rw [hnone hc (isAlpha_of_small hletter).1]
    exact hnone (List.mem_map_of_mem hc) (isAlpha_of_small hletter).2
  · have hsame : upper whole = whole := by
      rw [upper, List.map_congr_left (g := id), List.map_id]
      exact fun c hc => toUpper_of_not_small fun h => hsmall ⟨c, hc, h⟩
    rw [hsame]

theorem scanAfterWhole_other {c : Char} (hhash : c ≠ '#') (hpoint : c ≠ '.') (whole cs : List Char) :
    scanAfterWhole whole (c :: cs) = ⟨.intLiteral, whole, c :: cs⟩ := by
  unfold scanAfterWhole
  split
  · next h => cases h
  · next h =>
    cases h
    split
    · exact absurd rfl hhash
    · exact absurd rfl hpoint
    · rfl

theorem scanAfterWhole_upper (whole cs : List Char) :
    scanAfterWhole (upper whole) (upper cs) = (scanAfterWhole whole cs).upper := by
  cases cs with
  | nil => rfl
  | cons c cs =>
    by_cases hhash : c = '#'
    · subst hhash
      change scanAfterWhole (upper whole) ('#' :: upper cs) = _
      simp only [scanAfterWhole, baseDigits?_upper]
      cases hbase : baseDigits? whole with
      | none => rfl
      | some isDigit =>
        have := (isAlpha_of_baseDigits? hbase).1
        simp only [startsWith_upper isDigit, looseDigits_upper isDigit]
        split <;> simp [Scan.upper, LooseDigits.upper]
    · by_cases hpoint : c = '.'
      · subst hpoint
        change scanAfterWhole (upper whole) ('.' :: upper cs) = _
        simp only [scanAfterWhole, startsWith_upper, fraction_upper]
        split <;> simp [Scan.upper]
      · have hhash' : c.toUpper ≠ '#' := fun h => hhash ((toUpper_eq_iff rfl).1 h)
        have hpoint' : c.toUpper ≠ '.' := fun h => hpoint ((toUpper_eq_iff rfl).1 h)
        rw [Text.upper_cons, scanAfterWhole_other hhash' hpoint', scanAfterWhole_other hhash hpoint]
        rfl

theorem scanNumber_upper (cs : List Char) : scanNumber (upper cs) = (scanNumber cs).upper := by
  rw [scanNumber, digitGroups_upper]
  exact scanAfterWhole_upper _ _

/-! ### Durations, dates and times of day -/

theorem readLayout?_upper (layout cs : List Char) (hlayout : layout.all fun p => p == 'd' || !p.isAlpha) :
    readLayout? layout (upper cs) = (readLayout? layout cs).map (Prod.map upper upper) := by
  induction layout generalizing cs with
  | nil => cases cs <;> rfl
  | cons p layout ih =>
    obtain ⟨hp, hlayout⟩ : (p = 'd' ∨ p.isAlpha = false) ∧ layout.all (fun p => p == 'd' || !p.isAlpha) := by
      simpa using hlayout
    cases cs with
    | nil => rfl
    | cons c cs =>
      have hp : (if p == 'd' then c.toUpper.isDigit else c.toUpper == p) =
          (if p == 'd' then c.isDigit else c == p) := by
        rcases hp with rfl | hp
        · exact Caseless.toUpper Char.isDigit c
        · rw [Caseless.toUpper Char.isDigit, toUpper_beq hp]
      rw [Text.upper_cons, readLayout?, readLayout?, hp, ih cs hlayout]
      by_cases hmatch : (if p == 'd' then c.isDigit else c == p) = true
      · rw [if_pos hmatch, if_pos hmatch, Option.map_map, Option.map_map]
        rfl
      · rw [if_neg hmatch, if_neg hmatch]
        rfl

theorem scanSeconds_upper (kind : TokenKind) (cs : List Char) :
    scanSeconds kind (upper cs) = (scanSeconds kind cs).upper := by
  cases cs with
  | nil => rfl
  | cons c cs =>
    simp only [Text.upper_cons, scanSeconds, toUpper_beq (x := '.') rfl, startsWith_upper]
    split
    · split
      · rw [takeWhile_upper, dropWhile_upper]
        rfl
      · rfl
    · rfl

theorem Stamp.scan_upper (stamp : Stamp) (cs : List Char) : stamp.scan (upper cs) = (stamp.scan cs).upper := by
  have hlead : (List.replicate stamp.leadingDigits 'd').all fun p => p == 'd' || !p.isAlpha := by
    cases stamp <;> decide
  have hlayout : stamp.layout.all fun p => p == 'd' || !p.isAlpha := by cases stamp <;> decide
  rw [Stamp.scan, Stamp.scan, readLayout?_upper _ _ hlead, readLayout?_upper _ _ hlayout, Option.isNone_map]
  split
  · rfl
  · cases readLayout? stamp.layout cs with
    | none => rfl
    | some parts =>
      simp only [Option.map_some, Prod.map, scanSeconds_upper]
      split <;> simp

theorem unitLength_upper (cs : List Char) : unitLength (upper cs) = unitLength cs := by
  have hlower (c : Char) : c.toUpper.toLower = c.toLower := eq_toUpper_of_small (f := Char.toLower) (by decide) c
  have hs : startsWith (·.toLower == 's') (upper (cs.drop 1)) = startsWith (·.toLower == 's') (cs.drop 1) := by
    have : Caseless (·.toLower == 's') := ⟨by decide⟩
    exact startsWith_upper _ _
  cases cs with
  | nil => rfl
  | cons c cs => 
    rw [List.drop_one, List.tail_cons] at hs
    simp only [Text.upper_cons, unitLength, hlower, hs]

theorem scanDurationFrom_upper (state : DurationState) (cs : List Char) :
    scanDurationFrom state (upper cs) = (scanDurationFrom state cs).upper := by
  have hdigit (c : Char) : c.toUpper.isDigit = c.isDigit := Caseless.toUpper _ c
  induction cs generalizing state with
  | nil =>
    cases state with
    | whole | fraction => rfl
    | unit left => cases left <;> rfl
  | cons c cs ih =>
    have hunit : unitLength (c.toUpper :: upper cs) = unitLength (c :: cs) := unitLength_upper (c :: cs)
    cases state with
    | unit left =>
      cases left with
      | zero =>
        simp only [Text.upper_cons, scanDurationFrom, hdigit, toUpper_beq (x := '_') rfl, startsWith_upper, ih]
        split <;> rfl
      | succ left => simp only [Text.upper_cons, scanDurationFrom, ih, Scan.upper_cons]
    | whole | fraction =>
      simp only [Text.upper_cons, scanDurationFrom, hdigit, toUpper_beq (x := '.') rfl, startsWith_upper, hunit, ih]
      split
      · rfl
      · split
        · rfl
        · split <;> rfl

theorem scanDuration_upper (cs : List Char) : scanDuration (upper cs) = (scanDuration cs).upper := by
  have hdigit (c : Char) : c.toUpper.isDigit = c.isDigit := Caseless.toUpper _ c
  cases cs with
  | nil => rfl
  | cons c cs =>
    simp only [Text.upper_cons, scanDuration, toUpper_beq (x := '+') rfl, toUpper_beq (x := '-') rfl, startsWith_upper,
      hdigit]
    split
    · split
      · rw [scanDurationFrom_upper]
        rfl
      · rfl
    · split
      · exact scanDurationFrom_upper _ (c :: cs)
      · rfl

/-! ### Words and symbols -/

theorem LiteralType.ofName?_upper (name : String) : ofName? (Text.upperString name) = ofName? name := by
  rw [ofName?, ofName?, Text.upperString, Text.toList_upperString, Text.upper_upper]
  rfl

theorem scanTyped_upper (word value : List Char) :
    scanTyped (upper word) (upper value) = (scanTyped word value).upper := by
  have hname : LiteralType.ofName? (String.ofList (upper word)) = LiteralType.ofName? (String.ofList word) := by
    have := LiteralType.ofName?_upper (String.ofList word)
    rwa [Text.upperString, String.toList_ofList] at this
  simp only [scanTyped, hname, scanDuration_upper, Stamp.scan_upper]
  split <;> rfl

theorem wordKind_upper (word : List Char) : wordKind (upper word) = wordKind word := by
  rw [wordKind, Text.upper_upper, wordKind]

theorem scanAfterWord_upper (word cs : List Char) :
    scanAfterWord (upper word) (upper cs) = (scanAfterWord word cs).upper := by
  cases cs with
  | nil => simp [scanAfterWord, wordKind_upper, Scan.upper]
  | cons c cs =>
    simp only [Text.upper_cons, scanAfterWord, toUpper_beq (x := '#') rfl, wordKind_upper, scanTyped_upper]
    split
    · simp
    · rfl

theorem scanWord_upper (cs : List Char) : scanWord (upper cs) = (scanWord cs).upper := by
  rw [scanWord, takeWhile_upper, dropWhile_upper]
  exact scanAfterWord_upper _ _

theorem symbolOfOne?_upper (c : Char) : symbolOfOne? c.toUpper = symbolOfOne? c := eq_toUpper_of_small (by decide) c

/-- A symbol of two characters has no letters, but for the one behind a `%`. -/
theorem isAlpha_of_symbolOfTwo? {c d : Char} {kind : TokenKind} (h : symbolOfTwo? c d = some kind) :
    c.isAlpha = false ∧ (c = '%' ∨ d.isAlpha = false) := by
  unfold symbolOfTwo? at h
  split at h
  iterate 8 exact ⟨rfl, .inr rfl⟩
  · exact ⟨rfl, .inl rfl⟩
  · cases h

theorem symbolOfTwo?_upper (c d : Char) : symbolOfTwo? c.toUpper d.toUpper = symbolOfTwo? c d := by
  by_cases hpercent : c = '%'
  · subst hpercent
    change (AccessWidth.ofLetter? d.toUpper).map _ = (AccessWidth.ofLetter? d).map _
    rw [AccessWidth.ofLetter?, Text.toUpper_toUpper, AccessWidth.ofLetter?]
  · have hnone {c d : Char} (hc : c ≠ '%') (h : c.isAlpha = true ∨ d.isAlpha = true) : symbolOfTwo? c d = none := by
      refine Option.eq_none_iff_forall_ne_some.2 fun kind hkind => ?_
      obtain ⟨hleft, hright⟩ := isAlpha_of_symbolOfTwo? hkind
      rw [hleft, hright.resolve_left hc] at h
      simp at h
    have hpercent' : c.toUpper ≠ '%' := fun h => hpercent ((toUpper_eq_iff rfl).1 h)
    by_cases hc : c ∈ smallLetters
    · rw [hnone hpercent' (.inl (isAlpha_of_small hc).2), hnone hpercent (.inl (isAlpha_of_small hc).1)]
    · by_cases hd : d ∈ smallLetters
      · rw [hnone hpercent' (.inr (isAlpha_of_small hd).2), hnone hpercent (.inr (isAlpha_of_small hd).1)]
      · rw [toUpper_of_not_small hc, toUpper_of_not_small hd]

theorem scanSymbol_upper (c : Char) (cs : List Char) : scanSymbol c.toUpper (upper cs) = (scanSymbol c cs).upper := by
  cases cs with
  | nil => simp [scanSymbol, symbolOfOne?_upper, Scan.upper]
  | cons d ds =>
    simp only [Text.upper_cons, scanSymbol, symbolOfTwo?_upper, symbolOfOne?_upper]
    split <;> rfl

theorem scanBlockComment?_other {d : Char} (h : d ≠ '*') (c : Char) (cs : List Char) :
    scanBlockComment? c (d :: cs) = none := by
  unfold scanBlockComment?
  split
  · next heq => exact absurd (List.cons.inj heq).1 h
  · rfl

theorem scanBlockComment?_upper (c : Char) (cs : List Char) :
    scanBlockComment? c.toUpper (upper cs) = (scanBlockComment? c cs).map Scan.upper := by
  cases cs with
  | nil => rfl
  | cons d cs =>
    by_cases hstar : d = '*'
    · subst hstar
      change scanBlockComment? c.toUpper ('*' :: upper cs) = _
      simp only [scanBlockComment?, toUpper_beq (x := '(') rfl, toUpper_beq (x := '/') rfl, CommentStyle.scan_upper]
      split
      · simp
      · split <;> simp
    · rw [Text.upper_cons, scanBlockComment?_other hstar,
        scanBlockComment?_other fun h => hstar ((toUpper_eq_iff rfl).1 h)]
      rfl

/-- The token that a text in capitals begins with is that of the text, in capitals. -/
theorem scanToken_upper (c : Char) (cs : List Char) : scanToken c.toUpper (upper cs) = (scanToken c cs).upper := by
  have hsingle (c : Char) : (c.toUpper == Quote.single.mark) = (c == Quote.single.mark) := toUpper_beq rfl c
  have hdouble (c : Char) : (c.toUpper == Quote.double.mark) = (c == Quote.double.mark) := toUpper_beq rfl c
  have hslash : startsWith (· == '/') (upper cs) = startsWith (· == '/') cs := by
    have : Caseless (· == '/') := ⟨by decide⟩
    exact startsWith_upper _ _
  have hword : scanWord (c.toUpper :: upper cs) = (scanWord (c :: cs)).upper := scanWord_upper (c :: cs)
  have hnumber : scanNumber (c.toUpper :: upper cs) = (scanNumber (c :: cs)).upper := scanNumber_upper (c :: cs)
  simp only [scanToken, Caseless.toUpper isBlank, Caseless.toUpper isWordStart, Caseless.toUpper Char.isDigit,
    hsingle, hdouble, hslash, toUpper_beq (x := '\x7b') rfl, toUpper_beq (x := '/') rfl, hword, hnumber,
    Quote.scan_upper, scanPragma_upper, scanLineComment_upper, scanBlockComment?_upper, scanSymbol_upper,
    takeWhile_upper, dropWhile_upper]
  split
  · rfl
  · split
    · rfl
    · split
      · rfl
      · split
        · rfl
        · split
          · rfl
          · split
            · rfl
            · split
              · rfl
              · exact Option.getD_map ..

/-! ## All tokens -/

/-- The piece in capitals. -/
def Piece.upper (p : Piece) : Piece := ⟨p.kind, Text.upper p.lexeme⟩

theorem dotsAfterInteger?_upper (cs : List Char) :
    dotsAfterInteger? (upper cs) = (dotsAfterInteger? cs).map (Prod.map Piece.upper upper) := by
  have hne {c : Char} (hc : c ≠ '.') : c.toUpper ≠ '.' := fun h => hc ((toUpper_eq_iff rfl).1 h)
  have hpoint : Char.toUpper '.' = '.' := rfl
  match cs with
  | [] => rfl
  | a :: cs =>
    by_cases ha : a = '.'
    · subst ha
      match cs with
      | [] => rfl
      | b :: cs =>
        by_cases hb : b = '.'
        · subst hb
          match cs with
          | [] => rfl
          | c :: cs =>
            by_cases hc : c = '.'
            · subst hc
              rfl
            · simp [dotsAfterInteger?, hpoint, hc, hne hc, Piece.upper]
        · simp [dotsAfterInteger?, hpoint, hb, hne hb, Piece.upper]
    · simp [dotsAfterInteger?, ha, hne ha]

theorem dotsAfter?_upper (s : Scan) : dotsAfter? s.upper = (dotsAfter? s).map (Prod.map Piece.upper upper) := by
  have hlast : (upper s.lexeme).getLast? ≠ some '#' ↔ s.lexeme.getLast? ≠ some '#' := by
    rw [upper, List.getLast?_map]
    cases s.lexeme.getLast? with
    | none => simp
    | some c => simp [toUpper_eq_iff (x := '#') rfl]
  simp only [dotsAfter?, Scan.upper, hlast, dotsAfterInteger?_upper]
  split <;> rfl

theorem piecesWithin_upper (fuel : Nat) (cs : List Char) :
    piecesWithin fuel (upper cs) = (piecesWithin fuel cs).map Piece.upper := by
  induction fuel generalizing cs with
  | zero => rfl
  | succ fuel ih =>
    cases cs with
    | nil => rfl
    | cons c cs =>
      simp only [Text.upper_cons, piecesWithin, scanToken_upper, dotsAfter?_upper]
      cases dotsAfter? (scanToken c cs) with
      | none => simp [Piece.upper, Scan.upper, ih]
      | some dots => simp [Piece.upper, Scan.upper, ih]

theorem place_upper (offset : Nat) (ps : List Piece) : place offset (ps.map Piece.upper) = place offset ps := by
  induction ps generalizing offset with
  | nil => rfl
  | cons p ps ih => simp only [List.map_cons, place, Piece.upper, Text.byteLength_upper, ih]

/-- The tokens of a text in capitals are those of the text. -/
theorem lex_upper (text : String) : lex (Text.upperString text) = lex text := by
  rw [lex, Text.toList_upperString, pieces, piecesWithin_upper, place_upper, Text.length_upper]
  rfl

/-- Texts that differ in the case of letters only have tokens of the same kinds at the same places. -/
theorem lex_eq_of_sameLetters {a b : String} (h : Text.sameLetters a b = true) : lex a = lex b := by
  rw [← lex_upper a, ← lex_upper b, Text.upperString, Text.upperString, Text.sameLetters_iff.1 h]

end StructuredText
