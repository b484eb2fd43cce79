import Mathlib.Tactic.Abel
import StructuredText.Proofs.Lexing.Languages
import StructuredText.Proofs.Lexing.Numbers
import StructuredText.Proofs.Lexing.Symbols

/-!
# Numbers, strings, symbols and words as patterns

Each scanner reads a text of the language of the kind that it gives, or overruns it: numbers (`scanNumber_language`),
comments and pragmas, quoted strings, symbols and words.
-/

namespace StructuredText

open Computability

/-! ## Patterns -/

section

variable {p : Char → Bool} {c : Char} {a b cs : List Char} {L : Language Char}

theorem mem_oneOf (h : p c = true) : [c] ∈ oneOf p := ⟨c, rfl, h⟩

theorem mem_exactly (s : String) : s.toList ∈ exactly s := rfl

theorem mem_maybe (h : a ∈ L) : a ∈ maybe L := .inr h

theorem nil_mem_maybe (L : Language Char) : [] ∈ maybe L := .inl rfl

/-- One character in front of the rest. -/
theorem cons_mem_mul (h : p c = true) (hb : b ∈ L) : c :: b ∈ oneOf p * L :=
  Language.append_mem_mul (mem_oneOf h) hb

/-- One more text in front of many. -/
theorem append_mem_kstar (ha : a ∈ L) (hb : b ∈ L∗) : a ++ b ∈ L∗ := by
  have hle : L * L∗ ≤ L∗ := mul_kstar_le_kstar
  exact hle (Language.append_mem_mul ha hb)

theorem mem_kstar_of_all (h : ∀ c ∈ a, p c = true) : a ∈ (oneOf p)∗ := by
  induction a with
  | nil => exact Language.nil_mem_kstar _
  | cons c a ih =>
    have hc := mem_oneOf (h c List.mem_cons_self)
    exact append_mem_kstar hc (ih fun d hd => h d (List.mem_cons_of_mem _ hd))

theorem takeWhile_mem_kstar (p : Char → Bool) (cs : List Char) : cs.takeWhile p ∈ (oneOf p)∗ :=
  mem_kstar_of_all (List.all_eq_true.1 List.all_takeWhile)

/-! ## Numbers -/

/-- What stands behind the first digit of a group. -/
def groupedRest (p : Char → Bool) : Language Char := (oneOf p + exactly "_" * oneOf p)∗

/-- A digit, or an underscore that a digit follows, goes on with the digits. -/
theorem cons_mem_groupedRest (hc : (p c || (c == '_' && startsWith p cs)) = true) (ha : a ∈ groupedRest p)
    (hstart : startsWith p cs = true → a ∈ grouped p) :
    c :: a ∈ groupedRest p ∧ (p c = true → c :: a ∈ grouped p) := by
  refine ⟨?_, fun hc => cons_mem_mul hc ha⟩
  rcases Bool.or_eq_true_iff.1 hc with hc | hc
  · exact append_mem_kstar (.inl (mem_oneOf hc)) ha
  · rw [Bool.and_eq_true, beq_iff_eq] at hc
    obtain ⟨rfl, hcs⟩ := hc
    obtain ⟨d, hd, b, hb, rfl⟩ := Language.mem_mul.1 (hstart hcs)
    exact append_mem_kstar (.inr (Language.append_mem_mul (mem_exactly "_") hd)) hb

theorem digitGroups_mem (p : Char → Bool) (cs : List Char) :
    (digitGroups p cs).1 ∈ groupedRest p ∧ (startsWith p cs = true → (digitGroups p cs).1 ∈ grouped p) := by
  fun_induction digitGroups p cs with
  | case1 => exact ⟨Language.nil_mem_kstar _, fun h => absurd h Bool.false_ne_true⟩
  | case2 c cs hc taken rest heq ih =>
    rw [heq] at ih
    exact cons_mem_groupedRest hc ih.1 ih.2
  | case3 c cs hc =>
    rw [Bool.or_eq_true, not_or] at hc
    exact ⟨Language.nil_mem_kstar _, fun h => absurd h hc.1⟩

/-- The underscore that no digit follows, if there is one. -/
def danglingMark (d : Bool) : List Char := if d then ['_'] else []

theorem looseDigits_mem (p : Char → Bool) (cs : List Char) :
    ∃ a, (looseDigits p cs).taken = a ++ danglingMark (looseDigits p cs).dangling ∧ a ∈ groupedRest p ∧
      (startsWith p cs = true → a ∈ grouped p) := by
  fun_induction looseDigits p cs with
  | case1 => exact ⟨[], rfl, Language.nil_mem_kstar _, fun h => absurd h Bool.false_ne_true⟩
  | case2 c cs hc run ih =>
    obtain ⟨a, htaken, ha, hstart⟩ := ih
    refine ⟨c :: a, ?_, cons_mem_groupedRest hc ha hstart⟩
    exact congrArg (c :: ·) htaken
  | case3 c cs hc hu =>
    rw [Bool.or_eq_true, not_or] at hc
    rw [eq_of_beq hu] at hc ⊢
    exact ⟨[], rfl, Language.nil_mem_kstar _, fun h => absurd h hc.1⟩
  | case4 c cs hc =>
    rw [Bool.or_eq_true, not_or] at hc
    exact ⟨[], rfl, Language.nil_mem_kstar _, fun h => absurd h hc.1⟩

/-- A run of digits that begins with one, with its dangling underscore. -/
theorem looseDigits_language {cs : List Char} (h : startsWith p cs = true) :
    (looseDigits p cs).taken ∈ grouped p * maybe (exactly "_") := by
  obtain ⟨a, htaken, -, hstart⟩ := looseDigits_mem p cs
  rw [htaken]
  refine Language.append_mem_mul (hstart h) ?_
  cases (looseDigits p cs).dangling with
  | true => exact mem_maybe (mem_exactly "_")
  | false => exact nil_mem_maybe _

theorem optionalSign_mem (cs : List Char) : (optionalSign cs).1 ∈ maybe (oneOf isSign) := by
  cases cs with
  | nil => exact nil_mem_maybe _
  | cons c cs =>
    by_cases hc : isSign c = true
    · have hc' : (c == '+' || c == '-') = true := hc
      simp only [optionalSign, hc', if_true]
      exact mem_maybe (mem_oneOf hc)
    · rw [optionalSign_of_not (f := c :: cs) (Bool.not_eq_true _ ▸ hc)]
      exact nil_mem_maybe _

namespace Literals

/-- An exponent with its digits. -/
def exponent : Language Char := exponentMark * grouped Char.isDigit

/-- What is read of exponents: none, one that may end with an underscore, or a mark without digits and what is read
behind it. -/
def exponentTail : Nat → Language Char
  | 0 => 1
  | n + 1 => 1 + exponent * maybe (exactly "_") + exponentMark * exponentTail n

end Literals

theorem exponents_mem (n : Nat) (cs : List Char) : (exponents n cs).1 ∈ Literals.exponentTail n := by
  induction n generalizing cs with
  | zero => exact rfl
  | succ n ih =>
    cases cs with
    | nil => exact .inl (.inl rfl)
    | cons c cs =>
      by_cases hc : isExponentMark c = true
      · obtain ⟨sign, rest, hs⟩ : ∃ sign rest, optionalSign cs = (sign, rest) := ⟨_, _, rfl⟩
        have hsign := optionalSign_mem cs
        rw [hs] at hsign
        have hmark : c :: sign ∈ Literals.exponentMark := cons_mem_mul hc hsign
        cases hd : startsWith Char.isDigit rest with
        | true =>
          rw [exponents_of_digits hc hs hd]
          have hdigits := looseDigits_language hd
          refine .inl (.inr ?_)
          rw [Literals.exponent, mul_assoc]
          exact Language.append_mem_mul hmark hdigits
        | false =>
          rw [exponents_of_not_digits hc hs hd]
          exact .inr (Language.append_mem_mul hmark (ih rest))
      · rw [exponents_of_not (f := c :: cs) (Bool.not_eq_true _ ▸ hc)]
        exact .inl (.inl rfl)

/-- A fraction that begins with a digit, with what is read of its exponents. -/
theorem fraction_mem {cs : List Char} (h : startsWith Char.isDigit cs = true) :
    (fraction cs).1 ∈
      grouped Char.isDigit * (Literals.exponentTail 2 + exactly "_" * Literals.exponentTail 1) := by
  obtain ⟨a, htaken, -, hstart⟩ := looseDigits_mem Char.isDigit cs
  unfold fraction
  dsimp only
  rw [htaken, List.append_assoc]
  refine Language.append_mem_mul (hstart h) ?_
  cases (looseDigits Char.isDigit cs).dangling with
  | true => exact .inr (Language.append_mem_mul (mem_exactly "_") (exponents_mem 1 _))
  | false => exact .inl (exponents_mem 2 _)

/-- What is read of a real number is one, or overruns it. -/
theorem real_eq :
    Literals.fixedPoint * (Literals.exponentTail 2 + exactly "_" * Literals.exponentTail 1) =
      TokenKind.realLiteral.language + TokenKind.realLiteral.overrun := by
  simp only [TokenKind.language, TokenKind.overrun, Literals.real, Literals.exponentTail, Literals.exponent, maybe,
    mul_add, mul_one, mul_assoc]
  abel

/-- A base and its digits. -/
theorem based_mem {p : Char → Bool} {whole a : List Char} (h : baseDigits? whole = some p) (ha : a ∈ grouped p) :
    whole ++ '#' :: a ∈ Literals.based := by
  unfold baseDigits? at h
  split at h <;> cases h
  · exact .inl (.inr (Language.append_mem_mul (a := ['2', '#']) rfl ha))
  · exact .inr (Language.append_mem_mul (a := ['8', '#']) rfl ha)
  · exact .inl (.inl (Language.append_mem_mul (a := ['1', '6', '#']) rfl ha))

theorem scanNumber_language {cs : List Char} (h : startsWith Char.isDigit cs = true) :
    (scanNumber cs).lexeme ∈ (scanNumber cs).kind.language + (scanNumber cs).kind.overrun := by
  have hwhole := (digitGroups_mem Char.isDigit cs).2 h
  obtain ⟨whole, rest, hgroups⟩ : ∃ whole rest, digitGroups Char.isDigit cs = (whole, rest) := ⟨_, _, rfl⟩
  rw [hgroups] at hwhole
  rw [scanNumber, hgroups]
  dsimp only at hwhole ⊢
  rcases scanAfterWhole_cases whole rest with hs | ⟨p, ds, rfl, hbase⟩ | ⟨ds, rfl, hd⟩
  · rw [hs]
    exact .inl hwhole
  · cases hd : startsWith p ds with
    | true =>
      rw [scanAfterWhole_base hbase hd]
      obtain ⟨a, ha, b, hb, htaken⟩ := Language.mem_mul.1 (looseDigits_language hd)
      dsimp only
      rw [← htaken]
      rcases hb with rfl | rfl
      · rw [List.append_nil]
        exact .inl (based_mem hbase ha)
      · rw [← List.cons_append, ← List.append_assoc]
        exact .inr (Language.append_mem_mul (based_mem hbase ha) (mem_exactly "_"))
    | false =>
      rw [scanAfterWhole_hash hbase hd]
      refine .inr ?_
      unfold baseDigits? at hbase
      split at hbase <;> cases hbase
      · exact .inl (.inl (mem_exactly "2#"))
      · exact .inl (.inr (mem_exactly "8#"))
      · exact .inr (mem_exactly "16#")
  · rw [scanAfterWhole_point whole hd]
    dsimp only
    rw [← real_eq, Literals.fixedPoint, mul_assoc, mul_assoc]
    exact Language.append_mem_mul hwhole (Language.append_mem_mul (mem_exactly ".") (fraction_mem hd))

end

/-! ## Trivia -/

theorem CommentStyle.Balanced.ne_nil {style : CommentStyle} {a : List Char} (h : style.Balanced a) : a ≠ [] := by
  cases h <;> exact List.cons_ne_nil _ _

/-- Behind an opener inside `depth` further comments stand so many bodies and one. -/
theorem CommentStyle.balanced_of_body? {style : CommentStyle} {depth : Nat} {cs inner rest : List Char}
    (h : style.body? depth cs = some (inner, rest)) :
    ∃ (a : List Char) (as : List (List Char)),
      as.length = depth ∧ inner = a ++ as.flatten ∧ style.Balanced a ∧ ∀ b ∈ as, style.Balanced b := by
  fun_induction body? style depth cs generalizing inner rest with
  | case1 depth a b cs hopen ih =>
    obtain ⟨⟨i, r⟩, hb, heq⟩ := Option.map_eq_some_iff.1 h
    cases heq
    obtain ⟨x, xs, hlength, rfl, hx, hxs⟩ := ih hb
    cases xs with
    | nil => cases hlength
    | cons y ys =>
      obtain ⟨hy, hys⟩ := List.forall_mem_cons.1 hxs
      refine ⟨_, ys, Nat.succ.inj hlength, ?_, .nested hx hy, hys⟩
      rw [hopen.1, hopen.2]
      simp
  | case2 a b cs _ hclose =>
    cases h
    refine ⟨_, [], rfl, ?_, .close, fun _ hb => absurd hb List.not_mem_nil⟩
    rw [hclose.1, hclose.2]
    rfl
  | case3 a b cs _ hclose depth ih =>
    obtain ⟨⟨i, r⟩, hb, heq⟩ := Option.map_eq_some_iff.1 h
    cases heq
    obtain ⟨x, xs, hlength, rfl, hx, hxs⟩ := ih hb
    refine ⟨_, x :: xs, congrArg Nat.succ hlength, ?_, .close, List.forall_mem_cons.2 ⟨hx, hxs⟩⟩
    rw [hclose.1, hclose.2]
    rfl
  | case4 depth a b cs hopen hclose ih =>
    obtain ⟨⟨i, r⟩, hb, heq⟩ := Option.map_eq_some_iff.1 h
    cases heq
    obtain ⟨x, xs, hlength, rfl, hx, hxs⟩ := ih hb
    have htext := append_of_body? hb
    have hne := hx.ne_nil
    cases x with
    | nil => exact absurd rfl hne
    | cons d x =>
      cases htext
      refine ⟨_, xs, hlength, rfl, .char ?_ ?_ hx, hxs⟩
      · rw [List.cons_prefix_cons, List.cons_prefix_cons]
        exact fun h => hopen ⟨h.1.symm, h.2.1.symm⟩
      · rw [List.cons_prefix_cons, List.cons_prefix_cons]
        exact fun h => hclose ⟨h.1.symm, h.2.1.symm⟩
  | case5 => cases h

theorem scanBlockComment?_language {c : Char} {cs : List Char} {s : Scan} (h : scanBlockComment? c cs = some s)
    (hs : s.kind ≠ .error) : s.lexeme ∈ s.kind.language := by
  have hstyle (style : CommentStyle) (cs : List Char) (hk : (style.scan cs).kind ≠ .error) :
      (style.scan cs).kind = .blockComment ∧ style.left :: '*' :: (style.scan cs).lexeme ∈ style.language := by
    unfold CommentStyle.scan at hk ⊢
    split
    · next inner rest hbody =>
      obtain ⟨a, as, hlength, rfl, ha, -⟩ := CommentStyle.balanced_of_body? hbody
      rw [List.eq_nil_of_length_eq_zero hlength, List.flatten_nil, List.append_nil]
      exact ⟨rfl, a, rfl, ha⟩
    · next hbody =>
      rw [hbody] at hk
      exact absurd rfl hk
  unfold scanBlockComment? at h
  split at h
  · next cs =>
    split at h
    · next hc =>
      cases h
      obtain ⟨hkind, hlanguage⟩ := hstyle .round cs hs
      rw [Scan.after, hkind, eq_of_beq hc]
      exact .inl hlanguage
    · split at h
      · next hc =>
        cases h
        obtain ⟨hkind, hlanguage⟩ := hstyle .slashed cs hs
        rw [Scan.after, hkind, eq_of_beq hc]
        exact .inr hlanguage
      · cases h
  · cases h

theorem scanPragma_language (cs : List Char) (hs : (scanPragma cs).kind ≠ .error) :
    ((scanPragma cs).cons '\x7b').lexeme ∈ (scanPragma cs).kind.language := by
  unfold scanPragma at hs ⊢
  split
  · next close rest h =>
    have hclose : close = '\x7d' := by
      have hhead := List.head?_dropWhile_not (· != '\x7d') cs
      rw [h] at hhead
      simpa using hhead
    rw [hclose]
    exact cons_mem_mul rfl (Language.append_mem_mul (takeWhile_mem_kstar _ cs) (mem_oneOf rfl))
  · next h =>
    rw [h] at hs
    exact absurd rfl hs

/-! ## Strings -/

/-- So many characters of a class. -/
theorem mem_pow_of_all {p : Char → Bool} {a : List Char} (h : ∀ c ∈ a, p c = true) : a ∈ oneOf p ^ a.length := by
  induction a with
  | nil => exact rfl
  | cons c a ih =>
    rw [List.length_cons, pow_succ']
    exact cons_mem_mul (h c List.mem_cons_self) (ih fun d hd => h d (List.mem_cons_of_mem _ hd))

namespace Quote

/-- An escape behind a `$` stands for a character. -/
theorem escape_mem {q : Quote} {n : Nat} {cs : List Char} (h : q.escapeLength? cs = some n) :
    '$' :: cs.take n ∈ q.charLanguage := by
  cases cs with
  | nil => cases h
  | cons c cs =>
    simp only [escapeLength?] at h
    split at h
    · next hc =>
      cases h
      exact .inl (.inr (Language.append_mem_mul (mem_exactly "$") (mem_oneOf hc)))
    · split at h
      · next hdigits =>
        cases h
        refine .inr (Language.append_mem_mul (mem_exactly "$") ?_)
        have hprefix := (List.take_prefix q.codeDigits ((c :: cs).takeWhile isHexDigit)).trans
          (List.takeWhile_prefix isHexDigit)
        have hlength : (((c :: cs).takeWhile isHexDigit).take q.codeDigits).length = q.codeDigits :=
          List.length_take_of_le hdigits
        have htake := List.prefix_iff_eq_take.1 hprefix
        rw [hlength] at htake
        have hall : ∀ d ∈ ((c :: cs).takeWhile isHexDigit).take q.codeDigits, isHexDigit d = true :=
          fun d hd => List.all_eq_true.1 List.all_takeWhile d (List.mem_of_mem_take hd)
        have hmem := mem_pow_of_all hall
        rwa [hlength, htake] at hmem
      · cases h

/-- A spoilt string is no token. -/
theorem scanFrom_spoilt (q : Quote) (skip : Nat) (cs : List Char) :
    (q.scanFrom .spoilt skip cs).kind = .error := by
  generalize hstate : QuotedState.spoilt = state
  fun_induction scanFrom q state skip cs with
  | case1 | case3 | case7 => rfl
  | case2 state skip c cs ih => exact ih hstate
  | case4 state c cs _ _ => exact if_pos hstate.symm
  | case5 state c cs _ _ hc | case6 state c cs _ _ hc =>
    rw [← hstate] at hc
    simp at hc
  | case8 state c cs _ _ hc ih => exact ih hstate

/-- What is read of a string with `skip` characters of an escape to come. -/
theorem scanFrom_language (q : Quote) (state : QuotedState) (skip : Nat) (cs : List Char)
    (h : (q.scanFrom state skip cs).kind ≠ .error) :
    ∃ b ∈ q.charLanguage∗ * oneOf (· == q.mark), (q.scanFrom state skip cs).lexeme = cs.take skip ++ b := by
  fun_induction scanFrom q state skip cs with
  | case1 | case3 | case7 => exact absurd rfl h
  | case2 state skip c cs ih =>
    obtain ⟨b, hb, hl⟩ := ih h
    exact ⟨b, hb, congrArg (c :: ·) hl⟩
  | case4 state c cs _ hmark =>
    exact ⟨[c], Language.append_mem_mul (Language.nil_mem_kstar _) (mem_oneOf hmark), rfl⟩
  | case5 state c cs _ _ hc length hlength ih =>
    obtain ⟨b, hb, hl⟩ := ih h
    rw [Bool.and_eq_true] at hc
    obtain ⟨x, hx, y, hy, rfl⟩ := Language.mem_mul.1 hb
    refine ⟨c :: (cs.take length ++ (x ++ y)), ?_, congrArg (c :: ·) hl⟩
    rw [eq_of_beq hc.1, ← List.append_assoc, ← List.cons_append, ← List.cons_append]
    exact Language.append_mem_mul (append_mem_kstar (escape_mem hlength) hx) hy
  | case6 state c cs => exact absurd (q.scanFrom_spoilt 0 cs) h
  | case8 state c cs hline hmark hc ih =>
    obtain ⟨b, hb, hl⟩ := ih h
    obtain ⟨x, hx, y, hy, rfl⟩ := Language.mem_mul.1 hb
    have hplain : (c != '$' && c != q.mark && !isLineEnd c) = true := by
      have hstate : state ≠ .spoilt := by
        rintro rfl
        exact h (q.scanFrom_spoilt 0 cs)
      simp_all
    refine ⟨c :: (x ++ y), ?_, congrArg (c :: ·) hl⟩
    rw [← List.cons_append]
    exact Language.append_mem_mul (append_mem_kstar (.inl (.inl (mem_oneOf hplain))) hx) hy

theorem scan_language (q : Quote) (cs : List Char) (h : (q.scan cs).kind ≠ .error) :
    ((q.scan cs).cons q.mark).lexeme ∈ q.language := by
  obtain ⟨b, hb, hl⟩ := q.scanFrom_language .clean 0 cs h
  rw [Scan.cons, scan, hl]
  exact cons_mem_mul (beq_self_eq_true _) hb

end Quote

/-! ## Symbols -/

theorem scanSymbol_language (c : Char) (cs : List Char) (h : (scanSymbol c cs).kind ≠ .error) :
    (scanSymbol c cs).lexeme ∈ (scanSymbol c cs).kind.language := by
  have hone (h : (symbolOfOne? c).getD .error ≠ .error) : [c] ∈ ((symbolOfOne? c).getD .error).language := by
    unfold symbolOfOne? at h ⊢
    split at h <;> first | exact .head _ | exact absurd rfl h
  unfold scanSymbol at h ⊢
  split
  · exact hone h
  · next d ds =>
    split
    · next k htwo =>
      unfold symbolOfTwo? at htwo
      split at htwo
      iterate 8 cases htwo; exact .head _
      · obtain ⟨w, hw, rfl⟩ := Option.map_eq_some_iff.1 htwo
        have hletter := List.find?_some hw
        rw [beq_iff_eq] at hletter
        refine List.mem_singleton.2 ?_
        show _ = w.spelling
        rw [AccessWidth.spelling, hletter]
        rfl
      · cases htwo
    · next htwo =>
      simp only [htwo] at h
      exact hone h

/-! ## Words -/

theorem IsWord.mem_word {w : List Char} (hw : IsWord w) : w ∈ word := by
  cases w with
  | nil => cases hw.start
  | cons c cs => exact cons_mem_mul hw.start (mem_kstar_of_all fun d hd => hw.part d (List.mem_cons_of_mem _ hd))

theorem TokenKind.language_of_words {k : TokenKind} (h : k ∈ words) : k.language = anyCase [k.spelling] := by
  cases k with
  | type t => cases t <;> exact absurd h (by decide)
  | access w => cases w <;> exact absurd h (by decide)
  | _ => first | rfl | exact absurd h (by decide)

/-- A word is a reserved word, an elementary type or a name. -/
theorem IsWord.language {w : List Char} (hw : IsWord w) : w ∈ (wordKind w).language := by
  unfold wordKind TokenKind.ofWord?
  cases hfind : TokenKind.words.find? (·.spelling == String.ofList (Text.upper w)) with
  | some k =>
    have hspelling := List.find?_some hfind
    rw [beq_iff_eq] at hspelling
    rw [Option.some_or, Option.getD_some, TokenKind.language_of_words (List.mem_of_find?_eq_some hfind)]
    exact List.mem_singleton.2 hspelling.symm
  | none =>
    rw [Option.none_or]
    cases htype : ElementaryType.ofSpelling? (String.ofList (Text.upper w)) with
    | none => exact hw.mem_word
    | some t =>
      have hspelling := List.find?_some htype
      rw [Bool.or_eq_true, beq_iff_eq, beq_iff_eq] at hspelling
      rcases hspelling with h | h
      · exact List.mem_cons.2 (.inl h.symm)
      · refine List.mem_cons_of_mem _ ?_
        rw [h]
        exact List.mem_singleton.2 rfl

end StructuredText
