import StructuredText.Proofs.Lexing.Patterns
import StructuredText.Proofs.Lexing.Temporal

/-!
# Values behind a type name as patterns

What is read behind a word and its `#` is a date, a time or a duration of the language of its kind, or nothing, and then
the word and its `#` are a type name or overrun that of one (`scanTyped_language`).
-/

namespace StructuredText

open Computability

/-! ## Values behind a type name -/

/-- The texts with a layout. -/
def layoutLanguage (layout : List Char) : Language Char :=
  (layout.map fun p => if p = 'd' then oneOf Char.isDigit else {[p]}).prod

theorem readLayout?_mem {layout cs taken rest : List Char} (h : readLayout? layout cs = some (taken, rest)) :
    taken ∈ layoutLanguage layout := by
  fun_induction readLayout? layout cs generalizing taken rest with
  | case1 =>
    cases h
    exact rfl
  | case2 => cases h
  | case3 p layout c cs hc ih =>
    obtain ⟨⟨t, r⟩, ht, heq⟩ := Option.map_eq_some_iff.1 h
    cases heq
    rw [layoutLanguage, List.map_cons, List.prod_cons]
    by_cases hp : p = 'd'
    · rw [if_pos hp]
      rw [if_pos (beq_iff_eq.2 hp)] at hc
      exact cons_mem_mul hc (ih ht)
    · rw [if_neg hp]
      rw [if_neg (by simpa using hp), beq_iff_eq] at hc
      rw [hc]
      exact Language.append_mem_mul (a := [p]) rfl (ih ht)
  | case4 => cases h

theorem layoutLanguage_append (a b : List Char) : layoutLanguage (a ++ b) = layoutLanguage a * layoutLanguage b := by
  simp [layoutLanguage]

theorem layoutLanguage_digits (n : Nat) : layoutLanguage (List.replicate n 'd') = Literals.digits n := by
  induction n with
  | zero => rfl
  | succ n ih =>
    rw [Literals.digits, pow_succ', ← Literals.digits, ← ih]
    rfl

/-- The layouts are those of dates and times. -/
theorem Stamp.layoutLanguage_eq (stamp : Stamp) : layoutLanguage stamp.layout = stamp.value := by
  have hdash : layoutLanguage ['-'] = exactly "-" := mul_one _
  have hcolon : layoutLanguage [':'] = exactly ":" := mul_one _
  have hdate : layoutLanguage "dddd-dd-dd".toList = Literals.date := by
    rw [show "dddd-dd-dd".toList =
      List.replicate 4 'd' ++ ['-'] ++ List.replicate 2 'd' ++ ['-'] ++ List.replicate 2 'd' from rfl]
    simp only [layoutLanguage_append, layoutLanguage_digits, hdash, Literals.date]
  have hclock : layoutLanguage "dd:dd:dd".toList = Literals.clock := by
    rw [show "dd:dd:dd".toList =
      List.replicate 2 'd' ++ [':'] ++ List.replicate 2 'd' ++ [':'] ++ List.replicate 2 'd' from rfl]
    simp only [layoutLanguage_append, layoutLanguage_digits, hcolon, Literals.clock]
  cases stamp with
  | date => exact hdate
  | timeOfDay => exact hclock
  | dateAndTime =>
    have hlayout : dateAndTime.layout = "dddd-dd-dd".toList ++ ['-'] ++ "dd:dd:dd".toList := rfl
    rw [hlayout, layoutLanguage_append, layoutLanguage_append, hdate, hdash, hclock, value]

/-- What is read behind the layout of a value leaves it as it is, goes on with a fraction of a second, or spoils it. -/
theorem Stamp.scanRest_language (stamp : Stamp) (rest : List Char) :
    ((stamp.scanRest rest).kind = stamp.kind ∧
      (stamp.scanRest rest).lexeme ∈ if stamp.hasFraction then maybe Literals.secondsFraction else 1) ∨
    stamp.hasFraction = true ∧ stamp.scanRest rest = .stop .ident rest := by
  unfold scanRest
  cases stamp.hasFraction with
  | false => exact .inl ⟨rfl, rfl⟩
  | true =>
    rw [if_pos rfl, if_pos rfl]
    cases hb : behind rest with
    | other =>
      rw [scanSeconds_of_other hb]
      exact .inl ⟨rfl, nil_mem_maybe _⟩
    | point =>
      rw [scanSeconds_of_point hb]
      exact .inr ⟨rfl, rfl⟩
    | fraction =>
      obtain ⟨ds, rfl, hd⟩ := behind_eq_fraction_iff.1 hb
      rw [scanSeconds_fraction _ hd]
      refine .inl ⟨rfl, mem_maybe ?_⟩
      cases ds with
      | nil => cases hd
      | cons d ds =>
        have hd : d.isDigit = true := hd
        have hpart : isSecondsPart d = true := by rw [isSecondsPart, hd]; rfl
        dsimp only
        rw [List.takeWhile_cons_of_pos hpart]
        exact Language.append_mem_mul (a := ['.']) rfl (cons_mem_mul hd (takeWhile_mem_kstar _ ds))

/-- What is read of a value behind its type name: nothing, as a type name or as a name, the value, or the value in front
of a point that spoils it. -/
theorem Stamp.scan_language (stamp : Stamp) (cs : List Char) :
    ((stamp.scan cs).kind = .typedLiteralPrefix ∧ (stamp.scan cs).lexeme = []) ∨
    ((stamp.scan cs).kind = stamp.kind ∧ (stamp.scan cs).lexeme ∈
      stamp.value * if stamp.hasFraction then maybe Literals.secondsFraction else 1) ∨
    (stamp.scan cs).kind = .ident ∧
      (stamp.scan cs).lexeme ∈ if stamp.hasFraction then maybe stamp.value else 1 := by
  have hnil : [] ∈ if stamp.hasFraction then maybe stamp.value else 1 := by
    split
    · exact nil_mem_maybe _
    · exact rfl
  rcases stamp.scan_cases cs with hs | ⟨-, hs⟩ | ⟨taken, rest, hlayout, hs⟩
  · rw [hs]
    exact .inl ⟨rfl, rfl⟩
  · rw [hs]
    exact .inr (.inr ⟨rfl, hnil⟩)
  · have hvalue := readLayout?_mem hlayout
    rw [stamp.layoutLanguage_eq] at hvalue
    rw [hs]
    rcases stamp.scanRest_language rest with ⟨hkind, hrest⟩ | ⟨hfraction, hrest⟩
    · exact .inr (.inl ⟨hkind, Language.append_mem_mul hvalue hrest⟩)
    · rw [hrest, hfraction]
      refine .inr (.inr ⟨rfl, mem_maybe ?_⟩)
      rw [Scan.after, Scan.stop, List.append_nil]
      exact hvalue

/-! ## Durations -/

theorem toUpper_toLower (c : Char) : c.toLower.toUpper = c.toUpper := by
  by_cases hc : 65 ≤ c.toNat ∧ c.toNat ≤ 90
  · have hletters : ∀ n < 26, (Char.ofNat (65 + n)).toLower.toUpper = (Char.ofNat (65 + n)).toUpper := by decide
    have hletter := hletters (c.toNat - 65) (by omega)
    rwa [show 65 + (c.toNat - 65) = c.toNat by omega, Char.ofNat_toNat] at hletter
  · have hsame : c.toLower = c := dif_neg hc
    rw [hsame]

namespace Literals

/-- What stands behind a number with its unit. -/
def amounts : Language Char := (maybe (exactly "_") * amount)∗

/-- What is read of a duration from a state on. -/
def durationTail : DurationState → List Char → Language Char
  | .whole, _ => (oneOf Char.isDigit)∗ * (maybe (exactly "." * many Char.isDigit) * (anyCase unitNames * amounts))
  | .fraction, _ => (oneOf Char.isDigit)∗ * (anyCase unitNames * amounts)
  | .unit left, cs => {cs.take left} * amounts

section

variable {c : Char} {l : List Char}

/-- A digit in front of a number with its unit, and of what stands behind it. -/
theorem amount_mul_amounts :
    oneOf Char.isDigit * durationTail .whole [] = amount * amounts := by
  simp only [durationTail, amount, many, mul_assoc]

theorem mem_amounts (h : l ∈ amount * amounts) : l ∈ amounts := by
  obtain ⟨a, ha, b, hb, rfl⟩ := Language.mem_mul.1 h
  exact append_mem_kstar (Language.append_mem_mul (nil_mem_maybe _) ha) hb

theorem underscore_mem_amounts (h : l ∈ amount * amounts) : '_' :: l ∈ amounts := by
  obtain ⟨a, ha, b, hb, rfl⟩ := Language.mem_mul.1 h
  have hunderscore : ['_'] ∈ maybe (exactly "_") := mem_maybe rfl
  exact append_mem_kstar (Language.append_mem_mul hunderscore ha) hb

/-- One more digit of the whole part or of the fraction. -/
theorem digit_mem_durationTail {state : DurationState} {cs ds : List Char} (hstate : ∀ left, state ≠ .unit left)
    (hc : c.isDigit = true) (h : l ∈ durationTail state cs) : c :: l ∈ durationTail state ds := by
  cases state with
  | whole | fraction =>
    obtain ⟨a, ha, b, hb, rfl⟩ := Language.mem_mul.1 h
    exact Language.append_mem_mul (append_mem_kstar (mem_oneOf hc) ha) hb
  | unit left => exact absurd rfl (hstate left)

/-- A fraction begins with a point and a digit. -/
theorem fraction_mem_durationTail {cs : List Char} (h : l ∈ oneOf Char.isDigit * durationTail .fraction []) :
    '.' :: l ∈ durationTail .whole cs := by
  rw [durationTail, ← mul_assoc] at h
  obtain ⟨a, ha, b, hb, rfl⟩ := Language.mem_mul.1 h
  have hfraction : '.' :: a ∈ maybe (exactly "." * many Char.isDigit) :=
    mem_maybe (Language.append_mem_mul (a := ['.']) rfl ha)
  exact Language.append_mem_mul (Language.nil_mem_kstar _) (Language.append_mem_mul hfraction hb)

/-- A number may end with its unit wherever it stands. -/
theorem unit_mem_durationTail {state : DurationState} {cs : List Char} (hstate : ∀ left, state ≠ .unit left)
    (h : l ∈ anyCase unitNames * amounts) : l ∈ durationTail state cs := by
  cases state with
  | whole =>
    exact Language.append_mem_mul (a := []) (Language.nil_mem_kstar _)
      (Language.append_mem_mul (a := []) (nil_mem_maybe _) h)
  | fraction => exact Language.append_mem_mul (a := []) (Language.nil_mem_kstar _) h
  | unit left => exact absurd rfl (hstate left)

end

end Literals

/-- A unit is one of two letters or of one. -/
theorem unit_mem {c : Char} {cs : List Char} {left : Nat} (h : unitLength (c :: cs) = left + 1) :
    c :: cs.take left ∈ anyCase Literals.unitNames := by
  have hupper {c d : Char} (h : (c.toLower == d) = true) : c.toUpper = d.toUpper := by
    rw [← toUpper_toLower, eq_of_beq h]
  show String.ofList (c.toUpper :: Text.upper (cs.take left)) ∈ Literals.unitNames
  simp only [unitLength] at h
  split at h
  · next htwo =>
    obtain rfl : left = 1 := by omega
    rw [Bool.and_eq_true, Bool.or_eq_true, Bool.or_eq_true] at htwo
    obtain ⟨hc, hs⟩ := htwo
    cases cs with
    | nil => cases hs
    | cons d ds =>
      have hd : d.toUpper = 'S' := hupper hs
      show String.ofList [c.toUpper, d.toUpper] ∈ Literals.unitNames
      rw [hd]
      rcases hc with (hc | hc) | hc <;> rw [hupper hc] <;> decide
  · split at h
    · next hone =>
      obtain rfl : left = 0 := by omega
      simp only [Bool.or_eq_true] at hone
      show String.ofList [c.toUpper] ∈ Literals.unitNames
      rcases hone with ((hc | hc) | hc) | hc <;> rw [hupper hc] <;> decide
    · cases h

/-- A state that is no unit stands in a number. -/
theorem DurationState.ne_unit {state : DurationState} (hsucc : ∀ left, state = .unit (left + 1) → False)
    (hzero : state = .unit 0 → False) (left : Nat) : state ≠ .unit left := by
  cases left with
  | zero => exact hzero
  | succ left => exact hsucc left

/-- What is read of a duration; behind a digit, of a number that has begun. -/
theorem scanDurationFrom_language (state : DurationState) (cs : List Char)
    (h : (scanDurationFrom state cs).kind = .timeLiteral) :
    (scanDurationFrom state cs).lexeme ∈ Literals.durationTail state cs ∧
      ((∀ left, state ≠ .unit left) → startsWith Char.isDigit cs = true →
        (scanDurationFrom state cs).lexeme ∈ oneOf Char.isDigit * Literals.durationTail state []) := by
  fun_induction scanDurationFrom state cs with
  | case1 =>
    exact ⟨Language.append_mem_mul (a := []) rfl (Language.nil_mem_kstar _), fun _ h => absurd h Bool.false_ne_true⟩
  | case2 => cases h
  | case3 left c cs ih =>
    refine ⟨?_, fun hunit => absurd rfl (hunit _)⟩
    obtain ⟨a, rfl, b, hb, hl⟩ := Language.mem_mul.1 (ih h).1
    rw [Scan.cons, ← hl]
    exact Language.append_mem_mul (a := c :: cs.take left) rfl hb
  | case4 c cs hc ih =>
    refine ⟨?_, fun hunit => absurd rfl (hunit _)⟩
    obtain ⟨htail, hdigit⟩ := ih h
    -- Behind the unit stands the digit or the underscore with which the next number begins.
    refine Language.append_mem_mul (a := []) rfl ?_
    rcases Bool.or_eq_true_iff.1 hc with hc | hc
    · have hmem : c :: (scanDurationFrom .whole cs).lexeme ∈ oneOf Char.isDigit * Literals.durationTail .whole [] :=
        cons_mem_mul hc htail
      rw [Literals.amount_mul_amounts] at hmem
      exact Literals.mem_amounts hmem
    · rw [Bool.and_eq_true, beq_iff_eq] at hc
      have hmem := hdigit (fun _ => by simp) hc.2
      rw [Literals.amount_mul_amounts] at hmem
      rw [hc.1]
      exact Literals.underscore_mem_amounts hmem
  | case5 c cs hc =>
    exact ⟨Language.append_mem_mul (a := []) rfl (Language.nil_mem_kstar _), fun hunit => absurd rfl (hunit _)⟩
  | case6 state c cs hsucc hzero hc ih =>
    have hstate := DurationState.ne_unit hsucc hzero
    have htail := (ih h).1
    refine ⟨Literals.digit_mem_durationTail hstate hc htail, fun _ _ => cons_mem_mul hc ?_⟩
    cases state with
    | whole | fraction => exact htail
    | unit left => exact absurd rfl (hstate left)
  | case7 state c cs hsucc hzero hc hpoint ih =>
    simp only [Bool.and_eq_true, beq_iff_eq] at hpoint
    obtain ⟨⟨rfl, rfl⟩, hd⟩ := hpoint
    exact ⟨Literals.fraction_mem_durationTail ((ih h).2 (fun _ => by simp) hd), fun _ hdigit => absurd hdigit hc⟩
  | case8 => cases h
  | case9 state c cs hsucc hzero hc hpoint left hlength ih =>
    refine ⟨?_, fun _ hdigit => absurd hdigit hc⟩
    obtain ⟨a, rfl, b, hb, hl⟩ := Language.mem_mul.1 (ih h).1
    have hmem := Language.append_mem_mul (unit_mem hlength) hb
    rw [List.cons_append, hl] at hmem
    exact Literals.unit_mem_durationTail (DurationState.ne_unit hsucc hzero) hmem

/-- What is read of a duration behind its type name: nothing, as a type name or as a name, or the duration. -/
theorem scanDuration_language (cs : List Char) (h : (scanDuration cs).kind ≠ .error) :
    (((scanDuration cs).kind = .typedLiteralPrefix ∨ (scanDuration cs).kind = .ident) ∧
      (scanDuration cs).lexeme = []) ∨
    (scanDuration cs).kind = .timeLiteral ∧
      (scanDuration cs).lexeme ∈ maybe (oneOf isSign) * (Literals.amount * Literals.amounts) := by
  have hnumber {ds : List Char} (hd : startsWith Char.isDigit ds = true)
      (h : (scanDurationFrom .whole ds).kind ≠ .error) :
      (scanDurationFrom .whole ds).kind = .timeLiteral ∧
        (scanDurationFrom .whole ds).lexeme ∈ Literals.amount * Literals.amounts := by
    have hkind := (scanDurationFrom_kind .whole ds).resolve_right h
    have hmem := (scanDurationFrom_language .whole ds hkind).2 (fun _ => by simp) hd
    rw [Literals.amount_mul_amounts] at hmem
    exact ⟨hkind, hmem⟩
  rcases scanDuration_cases cs with hs | ⟨-, hs⟩ | hd | ⟨c, ds, rfl, hc, hd⟩
  · rw [hs]
    exact .inl ⟨.inl rfl, rfl⟩
  · rw [hs]
    exact .inl ⟨.inr rfl, rfl⟩
  · rw [scanDuration_of_digit hd] at h ⊢
    obtain ⟨hkind, hmem⟩ := hnumber hd h
    exact .inr ⟨hkind, Language.append_mem_mul (nil_mem_maybe _) hmem⟩
  · rw [scanDuration_of_sign hc hd] at h ⊢
    obtain ⟨hkind, hmem⟩ := hnumber hd h
    exact .inr ⟨hkind, Language.append_mem_mul (mem_maybe (mem_oneOf hc)) hmem⟩

/-! ## Typed values -/

/-- The names that announce a form of literal. -/
def LiteralType.names (type : LiteralType) : List String :=
  (ElementaryType.all.filter (ofType · = type)).flatMap (fun t => t.spelling :: t.shortSpelling?.toList) ++
    (shortNames.filter (·.2 = type)).map Prod.fst

theorem LiteralType.mem_names {name : String} {type : LiteralType} (h : ofName? name = some type) :
    Text.upperString name ∈ type.names := by
  rw [names, List.mem_append]
  rcases Option.or_eq_some_iff.1 h with h | ⟨-, h⟩
  · obtain ⟨t, ht, htype⟩ := Option.map_eq_some_iff.1 h
    refine .inl (List.mem_flatMap.2 ⟨t, List.mem_filter.2 ⟨t.mem_all, by simp [htype]⟩, ?_⟩)
    have hspelling := List.find?_some ht
    rw [Bool.or_eq_true, beq_iff_eq, beq_iff_eq] at hspelling
    rcases hspelling with h | h
    · rw [h]
      exact List.mem_cons_self
    · rw [h]
      exact List.mem_cons_of_mem _ (List.mem_singleton.2 rfl)
  · obtain ⟨before, behind, hentries, -⟩ := List.lookup_eq_some_iff.1 h
    have hmem : (Text.upperString name, type) ∈ shortNames := by
      rw [hentries]
      exact List.mem_append_right _ List.mem_cons_self
    exact .inr (List.mem_map.2 ⟨_, List.mem_filter.2 ⟨hmem, by simp⟩, rfl⟩)

/-- A word that announces a form of literal is one of its names. -/
theorem mem_anyCase_of_ofName? {w : List Char} {type : LiteralType} {names : List String}
    (h : LiteralType.ofName? (String.ofList w) = some type) (hnames : ∀ n ∈ type.names, n ∈ names) :
    w ∈ anyCase names := by
  have hmem := hnames _ (LiteralType.mem_names h)
  rwa [Text.upperString, String.toList_ofList] at hmem

/-- A word, its `#` and what stands behind it. -/
theorem append_hash_mem {w v : List Char} {L M : Language Char} (hw : w ∈ L) (hv : v ∈ M) :
    w ++ ['#'] ++ v ∈ L * exactly "#" * M := by
  have hhash : ['#'] ∈ exactly "#" := mem_exactly "#"
  exact Language.append_mem_mul (Language.append_mem_mul hw hhash) hv

/-- A word with its `#`. -/
theorem append_hash_mem_nil {w : List Char} {L : Language Char} (hw : w ∈ L) :
    w ++ ['#'] ++ [] ∈ L * exactly "#" := by
  have hmem := append_hash_mem hw (Language.nil_mem_one)
  rwa [mul_one] at hmem

theorem Stamp.scan_typed {stamp : Stamp} {w : List Char} (hw : IsWord w) (hname : w ∈ anyCase stamp.names)
    (cs : List Char) :
    w ++ ['#'] ++ (stamp.scan cs).lexeme ∈ (stamp.scan cs).kind.language + (stamp.scan cs).kind.overrun := by
  rcases stamp.scan_language cs with ⟨hkind, hl⟩ | ⟨hkind, hl⟩ | ⟨hkind, hl⟩
  · rw [hkind, hl]
    exact .inl (append_hash_mem_nil hw.mem_word)
  · rw [hkind]
    refine .inl ?_
    have hlanguage : stamp.kind.language = stamp.language := by cases stamp <;> rfl
    rw [hlanguage]
    exact append_hash_mem hname hl
  · rw [hkind]
    refine .inr ?_
    cases stamp with
    | date =>
      rw [show (date.scan cs).lexeme = [] from hl]
      have hnames : w ∈ anyCase (Literals.durationNames ++ date.names) := List.mem_append_right _ hname
      exact .inl (.inl (append_hash_mem_nil hnames))
    | timeOfDay => exact .inl (.inr (append_hash_mem hname hl))
    | dateAndTime => exact .inr (append_hash_mem hname hl)

theorem scanTyped_language {w : List Char} (hw : IsWord w) (cs : List Char) (h : (scanTyped w cs).kind ≠ .error) :
    w ++ ['#'] ++ (scanTyped w cs).lexeme ∈ (scanTyped w cs).kind.language + (scanTyped w cs).kind.overrun := by
  unfold scanTyped at h ⊢
  split
  · next hname =>
    rw [hname] at h
    have hnames : w ∈ anyCase Literals.durationNames := mem_anyCase_of_ofName? hname (by decide)
    rcases scanDuration_language cs h with ⟨hkind | hkind, hl⟩ | ⟨hkind, hl⟩ <;> rw [hkind]
    · rw [hl]
      exact .inl (append_hash_mem_nil hw.mem_word)
    · rw [hl]
      have hnames : w ∈ anyCase (Literals.durationNames ++ Stamp.date.names) := List.mem_append_left _ hnames
      exact .inr (.inl (.inl (append_hash_mem_nil hnames)))
    · exact .inl (append_hash_mem hnames hl)
  · next hname => exact Stamp.scan_typed hw (mem_anyCase_of_ofName? hname (by decide)) cs
  · next hname => exact Stamp.scan_typed hw (mem_anyCase_of_ofName? hname (by decide)) cs
  · next hname => exact Stamp.scan_typed hw (mem_anyCase_of_ofName? hname (by decide)) cs
  · exact .inl (append_hash_mem_nil hw.mem_word)

theorem scanWord_language {cs : List Char} (hcs : startsWith isWordStart cs = true) (h : (scanWord cs).kind ≠ .error) :
    (scanWord cs).lexeme ∈ (scanWord cs).kind.language + (scanWord cs).kind.overrun := by
  have hw : IsWord (cs.takeWhile isWordPart) := by
    refine ⟨?_, List.all_eq_true.1 List.all_takeWhile⟩
    cases cs with
    | nil => cases hcs
    | cons c cs =>
      rw [List.takeWhile_cons_of_pos (isWordPart_of_start hcs)]
      exact hcs
  unfold scanWord scanAfterWord at h ⊢
  split
  · exact .inl hw.language
  · next c ds hbehind =>
    rw [hbehind] at h
    dsimp only at h
    split
    · next hc =>
      rw [if_pos hc] at h
      rw [eq_of_beq hc, Scan.after] at h ⊢
      exact scanTyped_language hw ds h
    · exact .inl hw.language

end StructuredText
