import StructuredText.Proofs.Lexing.Numbers

/-!
# Durations, dates and times of day

A literal with a time or a date is read the same way in front of every delimiter, but for a time of day without a
fraction, which must not stand in front of a point (`scanTyped_duration`, `scanTyped_stamp`). What is left a name for
want of such a value either ends with its `#`, or is a time of day in front of a point (`scanTyped_ident`).
-/

namespace StructuredText

variable {f g : List Char}

theorem Scan.exists_of_after {s : Scan} {taken l rest : List Char} {k : TokenKind} (h : s.after taken = ⟨k, l, rest⟩) :
    ∃ more, s = ⟨k, more, rest⟩ ∧ l = taken ++ more := by
  cases s
  cases h
  exact ⟨_, rfl, rfl⟩

/-! ## Fixed layouts -/

theorem readLayout?_append {layout cs taken rest : List Char} (h : readLayout? layout cs = some (taken, rest))
    (g : List Char) : readLayout? layout (taken ++ g) = some (taken, g) := by
  fun_induction readLayout? layout cs generalizing taken rest with
  | case1 => cases h; rfl
  | case2 => cases h
  | case3 p layout c cs hc ih =>
    obtain ⟨⟨t, r⟩, ht, heq⟩ := Option.map_eq_some_iff.1 h
    cases heq
    simp only [List.cons_append, readLayout?, hc, if_true, ih ht, Option.map_some]
  | case4 => cases h

/-- What a layout takes is made of digits and the other characters of the layout. -/
theorem mem_of_readLayout? {layout cs taken rest : List Char} (h : readLayout? layout cs = some (taken, rest)) :
    ∀ c ∈ taken, c.isDigit = true ∨ c ∈ layout := by
  fun_induction readLayout? layout cs generalizing taken rest with
  | case1 => cases h; simp
  | case2 => cases h
  | case3 p layout c cs hc ih =>
    obtain ⟨⟨t, r⟩, ht, heq⟩ := Option.map_eq_some_iff.1 h
    cases heq
    refine List.forall_mem_cons.2 ⟨?_, fun d hd => (ih ht d hd).imp_right (List.mem_cons_of_mem _)⟩
    split at hc
    · exact .inl hc
    · exact .inr (by rw [eq_of_beq hc]; exact List.mem_cons_self)
  | case4 => cases h

/-- What has a layout has the front of it as well. -/
theorem readLayout?_front {front layout cs : List Char} (h : (readLayout? (front ++ layout) cs).isSome = true) :
    (readLayout? front cs).isSome = true := by
  induction front generalizing cs with
  | nil => rfl
  | cons p front ih =>
    cases cs with
    | nil => cases h
    | cons c cs =>
      rw [List.cons_append, readLayout?] at h
      rw [readLayout?]
      by_cases hc : (if p == 'd' then c.isDigit else c == p) = true
      · rw [if_pos hc, Option.isSome_map] at h ⊢
        exact ih h
      · rw [if_neg hc] at h
        cases h

/-- What has a layout that begins with a digit begins with one. -/
theorem startsWith_of_readLayout? {layout cs : List Char} (h : (readLayout? ('d' :: layout) cs).isSome = true) :
    startsWith Char.isDigit cs = true := by
  cases cs with
  | nil => cases h
  | cons c cs =>
    have hread : readLayout? ('d' :: layout) (c :: cs) =
        if c.isDigit then (readLayout? layout cs).map fun found => (c :: found.1, found.2) else none := rfl
    rw [hread] at h
    split at h
    · next hc => exact hc
    · cases h

namespace Stamp

theorem layout_eq (stamp : Stamp) :
    ∃ rest, stamp.layout = List.replicate stamp.leadingDigits 'd' ++ rest := by
  cases stamp with
  | date => exact ⟨"-dd-dd".toList, rfl⟩
  | timeOfDay => exact ⟨":dd:dd".toList, rfl⟩
  | dateAndTime => exact ⟨"-dd-dd-dd:dd:dd".toList, rfl⟩

/-- The rest of a value behind its layout. -/
def scanRest (stamp : Stamp) (rest : List Char) : Scan :=
  if stamp.hasFraction then scanSeconds stamp.kind rest else .stop stamp.kind rest

theorem scan_of_layout {stamp : Stamp} {cs taken rest : List Char}
    (h : readLayout? stamp.layout cs = some (taken, rest)) : stamp.scan cs = (stamp.scanRest rest).after taken := by
  have hleading : (readLayout? (List.replicate stamp.leadingDigits 'd') cs).isSome = true := by
    obtain ⟨behind, hlayout⟩ := stamp.layout_eq
    have hall : (readLayout? (List.replicate stamp.leadingDigits 'd' ++ behind) cs).isSome = true := by
      rw [← hlayout, h]
      rfl
    exact readLayout?_front hall
  rw [scan, if_neg (by rw [Option.isNone_iff_eq_none, ← Option.not_isSome_iff_eq_none, hleading]; simp), h]
  rfl

/-- The value is missing or has its layout. -/
theorem scan_cases (stamp : Stamp) (cs : List Char) :
    stamp.scan cs = .stop .typedLiteralPrefix cs ∨
      (startsWith Char.isDigit cs = true ∧ stamp.scan cs = .stop .ident cs) ∨
      ∃ taken rest, readLayout? stamp.layout cs = some (taken, rest) ∧
        stamp.scan cs = (stamp.scanRest rest).after taken := by
  cases h : readLayout? stamp.layout cs with
  | none =>
    unfold scan
    split
    · exact .inl rfl
    · next hleading =>
      rw [Option.isNone_iff_eq_none, ← ne_eq, ← Option.isSome_iff_ne_none] at hleading
      rw [h]
      refine .inr (.inl ⟨?_, rfl⟩)
      cases stamp <;> exact startsWith_of_readLayout? hleading
  | some found => exact .inr (.inr ⟨_, _, rfl, scan_of_layout h⟩)

end Stamp

/-! ## Seconds -/

theorem scanSeconds_of_other {kind : TokenKind} {cs : List Char} (h : behind cs = .other) :
    scanSeconds kind cs = .stop kind cs := by
  rw [behind_eq_other_iff] at h
  cases cs with
  | nil => rfl
  | cons c cs =>
    have hc : (c == '.') = false := h
    simp [scanSeconds, hc]

theorem scanSeconds_of_point {kind : TokenKind} {cs : List Char} (h : behind cs = .point) :
    scanSeconds kind cs = .stop .ident cs := by
  obtain ⟨ds, rfl, hd⟩ := behind_eq_point_iff.1 h
  simp [scanSeconds, hd]

/-- The digits of a fraction of a second, and the underscores among them. -/
def isSecondsPart (c : Char) : Bool := c.isDigit || c == '_'

theorem scanSeconds_fraction (kind : TokenKind) {ds : List Char} (h : startsWith Char.isDigit ds = true) :
    scanSeconds kind ('.' :: ds) = ⟨kind, '.' :: ds.takeWhile isSecondsPart, ds.dropWhile isSecondsPart⟩ := by
  simp only [scanSeconds, h, if_true, beq_self_eq_true]
  rfl

/-- What is taken of the seconds is taken again. -/
theorem scanSeconds_again {kind k : TokenKind} {rest sec : List Char} (h : scanSeconds kind rest = ⟨k, sec, f⟩)
    (hk : k ≠ .ident) (hg : Delimits g) (hpoint : k = kind → sec = [] → behind g = .other) :
    scanSeconds kind (sec ++ g) = ⟨k, sec, g⟩ := by
  cases hb : behind rest with
  | other =>
    rw [scanSeconds_of_other hb] at h
    cases h
    exact scanSeconds_of_other (hpoint rfl rfl)
  | point =>
    rw [scanSeconds_of_point hb] at h
    cases h
    exact absurd rfl hk
  | fraction =>
    obtain ⟨ds, rfl, hd⟩ := behind_eq_fraction_iff.1 hb
    rw [scanSeconds_fraction kind hd] at h
    cases h
    obtain ⟨htake, hdrop⟩ := takeWhile_append_of_not (p := isSecondsPart) (w := ds.takeWhile isSecondsPart) (f := g)
      (List.all_eq_true.1 List.all_takeWhile) (hg.startsWith (by decide))
    have hd' : startsWith Char.isDigit (ds.takeWhile isSecondsPart ++ g) = true := by
      cases ds with
      | nil => cases hd
      | cons d ds =>
        have hd : d.isDigit = true := hd
        rw [List.takeWhile_cons_of_pos (by rw [isSecondsPart, hd]; rfl)]
        exact hd
    rw [List.cons_append, scanSeconds_fraction kind hd', htake, hdrop]

/-- A point without a digit makes a name of a time of day. -/
theorem scanSeconds_ident {kind : TokenKind} {rest sec : List Char} (h : scanSeconds kind rest = ⟨.ident, sec, f⟩)
    (hk : kind ≠ .ident) : sec = [] ∧ behind f = .point := by
  cases hb : behind rest with
  | other =>
    rw [scanSeconds_of_other hb] at h
    injection h with hkind
    exact absurd hkind hk
  | point =>
    rw [scanSeconds_of_point hb] at h
    cases h
    exact ⟨rfl, hb⟩
  | fraction =>
    obtain ⟨ds, rfl, hd⟩ := behind_eq_fraction_iff.1 hb
    rw [scanSeconds_fraction kind hd] at h
    cases h
    exact absurd rfl hk

/-! ## Values with a layout -/

namespace Stamp

variable {stamp : Stamp} {k : TokenKind} {v : List Char}

theorem kind_ne_ident (stamp : Stamp) : stamp.kind ≠ .ident := by cases stamp <;> decide

theorem kind_ne_typedLiteralPrefix (stamp : Stamp) : stamp.kind ≠ .typedLiteralPrefix := by cases stamp <;> decide

/-- Layouts hold no points and no `#`. -/
theorem not_mem_of_readLayout? {cs taken rest : List Char} (h : readLayout? stamp.layout cs = some (taken, rest)) :
    '.' ∉ taken ∧ '#' ∉ taken := by
  have hlayout : '.' ∉ stamp.layout ∧ '#' ∉ stamp.layout := by cases stamp <;> decide
  refine ⟨fun hc => ?_, fun hc => ?_⟩
  · rcases mem_of_readLayout? h _ hc with h | h
    · cases h
    · exact hlayout.1 h
  · rcases mem_of_readLayout? h _ hc with h | h
    · cases h
    · exact hlayout.2 h

theorem startsWith_of_layout {cs taken rest : List Char} (h : readLayout? stamp.layout cs = some (taken, rest)) :
    startsWith Char.isDigit taken = true := by
  obtain ⟨layout, hlayout⟩ : ∃ layout, stamp.layout = 'd' :: layout := by
    cases stamp <;> exact ⟨_, rfl⟩
  have h := readLayout?_append h []
  rw [List.append_nil, hlayout] at h
  exact startsWith_of_readLayout? (by rw [h]; rfl)

theorem scanRest_kind (stamp : Stamp) (rest : List Char) :
    (stamp.scanRest rest).kind = stamp.kind ∨ (stamp.scanRest rest).kind = .ident := by
  unfold scanRest
  split
  · cases hb : behind rest with
    | other => exact .inl (by rw [scanSeconds_of_other hb]; rfl)
    | point => exact .inr (by rw [scanSeconds_of_point hb]; rfl)
    | fraction =>
      obtain ⟨ds, rfl, hd⟩ := behind_eq_fraction_iff.1 hb
      exact .inl (by rw [scanSeconds_fraction _ hd])
  · exact .inl rfl

theorem scanRest_again {rest sec : List Char} (h : stamp.scanRest rest = ⟨k, sec, f⟩) (hk : k ≠ .ident)
    (hg : Delimits g) (hpoint : stamp.hasFraction = true → k = stamp.kind → sec = [] → behind g = .other) :
    stamp.scanRest (sec ++ g) = ⟨k, sec, g⟩ := by
  unfold scanRest at h ⊢
  split at h
  · next hfraction =>
    rw [if_pos hfraction]
    exact scanSeconds_again h hk hg (hpoint hfraction)
  · next hfraction =>
    rw [if_neg hfraction]
    cases h
    rfl

/-- A value is taken again in front of a delimiter that is allowed there. -/
theorem scan_again (h : stamp.scan (v ++ f) = ⟨k, v, f⟩) (hk : k.isTemporal = true) (hg : Delimits g)
    (hend : (temporalEnding k v).allows (behind g) = true) : stamp.scan (v ++ g) = ⟨k, v, g⟩ := by
  rcases stamp.scan_cases (v ++ f) with hs | ⟨hd, hs⟩ | ⟨taken, rest, hlayout, hs⟩
  · rw [hs] at h
    cases h
    cases hk
  · rw [hs] at h
    cases h
    cases hk
  · obtain ⟨sec, hrest, rfl⟩ := Scan.exists_of_after (hs.symm.trans h)
    have hident : k ≠ .ident := by
      rintro rfl
      cases hk
    have hagain := scanRest_again hrest hident hg (g := g) fun hfraction hkind hsec => by
      have hpoint := (not_mem_of_readLayout? hlayout).1
      rw [hsec, List.append_nil, hkind] at hend
      cases stamp with
      | date => cases hfraction
      | timeOfDay | dateAndTime =>
        simpa [temporalEnding, kind, secondsEnding, hpoint, Ending.allows] using hend
    rw [List.append_assoc, scan_of_layout (readLayout?_append hlayout _), hagain]
    rfl

/-- A value that is none leaves a name that ends with the `#`, or a spoilt time of day. -/
theorem scan_ident (h : stamp.scan (v ++ f) = ⟨.ident, v, f⟩) :
    (v = [] ∧ startsWith Char.isDigit f = true) ∨
    (startsWith Char.isDigit v = true ∧ '#' ∉ v ∧ behind f = .point ∧
      ∀ {g}, behind g = .point → stamp.scan (v ++ g) = ⟨.ident, v, g⟩) := by
  rcases stamp.scan_cases (v ++ f) with hs | ⟨hd, hs⟩ | ⟨taken, rest, hlayout, hs⟩
  · rw [hs] at h
    cases h
  · rw [hs] at h
    injection h with _ hv
    rw [← hv] at hd
    exact .inl ⟨hv.symm, hd⟩
  · obtain ⟨sec, hrest, rfl⟩ := Scan.exists_of_after (hs.symm.trans h)
    unfold scanRest at hrest
    split at hrest
    · next hfraction =>
      obtain ⟨rfl, hpoint⟩ := scanSeconds_ident hrest stamp.kind_ne_ident
      rw [List.append_nil]
      refine .inr ⟨startsWith_of_layout hlayout, (not_mem_of_readLayout? hlayout).2, hpoint, fun hg => ?_⟩
      rw [scan_of_layout (readLayout?_append hlayout _), scanRest, if_pos hfraction, scanSeconds_of_point hg]
      simp [Scan.stop, Scan.after]
    · injection hrest with hkind
      exact absurd hkind stamp.kind_ne_ident

theorem scan_typeName (h : stamp.scan (v ++ f) = ⟨.typedLiteralPrefix, v, f⟩) : v = [] := by
  rcases stamp.scan_cases (v ++ f) with hs | ⟨hd, hs⟩ | ⟨taken, rest, hlayout, hs⟩
  · rw [hs] at h
    injection h with _ hv
    exact hv.symm
  · rw [hs] at h
    cases h
  · obtain ⟨sec, hrest, rfl⟩ := Scan.exists_of_after (hs.symm.trans h)
    rcases stamp.scanRest_kind rest with hkind | hkind
    · rw [hrest] at hkind
      exact absurd hkind.symm stamp.kind_ne_typedLiteralPrefix
    · rw [hrest] at hkind
      cases hkind

end Stamp

/-! ## Durations -/

/-- A digit goes on with a number. -/
theorem startsWith_scanDurationFrom {state : DurationState} (hstate : ∀ left, state ≠ .unit left) {cs : List Char}
    (h : startsWith Char.isDigit cs = true) (g : List Char) :
    startsWith Char.isDigit ((scanDurationFrom state cs).lexeme ++ g) = true := by
  cases cs with
  | nil => cases h
  | cons c cs =>
    have hc : c.isDigit = true := h
    cases state with
    | whole | fraction =>
      simp only [scanDurationFrom, hc, if_true]
      exact h
    | unit left => exact absurd rfl (hstate left)

theorem startsWith_lexeme {p : Char → Bool} {s : Scan} {cs : List Char} (hs : s.Of cs)
    (hcs : startsWith p cs = false) (hg : startsWith p g = false) : startsWith p (s.lexeme ++ g) = false := by
  rw [Scan.Of] at hs
  cases hl : s.lexeme with
  | nil => exact hg
  | cons c ds =>
    rw [hl] at hs
    rw [← hs] at hcs
    exact hcs

/-- What stands behind a unit in source form is not the rest of a longer one. -/
theorem unitLength_again {c : Char} {cs : List Char} {left : Nat} (hg : startsWith (·.toLower == 's') g = false)
    (h : unitLength (c :: cs) = left + 1) :
    unitLength (c :: ((scanDurationFrom (.unit left) cs).lexeme ++ g)) = left + 1 := by
  unfold unitLength at h ⊢
  dsimp only at h ⊢
  by_cases hc : (c.toLower == 'm' || c.toLower == 'u' || c.toLower == 'n') = true
  · rw [hc, Bool.true_and] at h ⊢
    cases hs : startsWith (·.toLower == 's') cs with
    | true =>
      rw [hs, if_pos rfl] at h
      obtain rfl : left = 1 := by omega
      cases cs with
      | nil => cases hs
      | cons d ds =>
        simp only [scanDurationFrom, Scan.cons, List.cons_append]
        exact if_pos hs
    | false =>
      rw [hs] at h
      rw [startsWith_lexeme (scanDurationFrom_of _ _) hs hg]
      exact h
  · rw [Bool.not_eq_true] at hc
    rw [hc, Bool.false_and] at h ⊢
    exact h

theorem scanDurationFrom_unit (hg : Delimits g) : scanDurationFrom (.unit 0) g = .stop .timeLiteral g := by
  cases g with
  | nil => rfl
  | cons c cs =>
    have hc : c.isDigit = false := hg.startsWith (p := Char.isDigit) (by decide)
    have hu : (c == '_') = false := hg.startsWith (p := (· == '_')) (by decide)
    simp [scanDurationFrom, hc, hu]

/-- What is taken of a duration is taken again. -/
theorem scanDurationFrom_again (hg : Delimits g) (state : DurationState) (cs : List Char)
    (h : (scanDurationFrom state cs).kind = .timeLiteral) :
    scanDurationFrom state ((scanDurationFrom state cs).lexeme ++ g) =
      ⟨.timeLiteral, (scanDurationFrom state cs).lexeme, g⟩ := by
  fun_induction scanDurationFrom state cs with
  | case1 => exact scanDurationFrom_unit hg
  | case2 => cases h
  | case3 left c cs ih =>
    simp only [Scan.cons, List.cons_append, scanDurationFrom, ih h]
  | case4 c cs hc ih =>
    have hgo : (c.isDigit ||
        (c == '_' && startsWith Char.isDigit ((scanDurationFrom .whole cs).lexeme ++ g))) = true := by
      simp only [Bool.or_eq_true, Bool.and_eq_true] at hc ⊢
      exact hc.imp_right (And.imp_right fun hd => startsWith_scanDurationFrom (by simp) hd g)
    simp only [Scan.cons, List.cons_append, scanDurationFrom, hgo, if_true, ih h]
  | case5 => exact scanDurationFrom_unit hg
  | case6 state c cs hunit hunit' hc ih =>
    cases state with
    | whole | fraction => simp only [Scan.cons, List.cons_append, scanDurationFrom, hc, if_true, ih h]
    | unit left =>
      cases left with
      | zero => exact absurd rfl hunit'
      | succ left => exact absurd rfl (hunit left)
  | case7 state c cs hunit hunit' hc hpoint ih =>
    simp only [Bool.and_eq_true, beq_iff_eq] at hpoint
    obtain ⟨⟨rfl, rfl⟩, hd⟩ := hpoint
    have hfraction (left : Nat) : DurationState.fraction ≠ .unit left := by simp
    have hd := startsWith_scanDurationFrom hfraction hd g
    simp only [Scan.cons, List.cons_append, scanDurationFrom, hd, ih h]
    rfl
  | case8 => cases h
  | case9 state c cs hunit hunit' hc hpoint left hlength ih =>
    have hagain := unitLength_again (hg.startsWith (by decide)) hlength
    have hne : (c == '.') = false := by
      rw [beq_eq_false_iff_ne]
      rintro rfl
      cases hlength
    have hc : c.isDigit = false := Bool.not_eq_true _ ▸ hc
    cases state with
    | whole | fraction =>
      simp only [Scan.cons, List.cons_append, scanDurationFrom, hc, hne, Bool.false_and, Bool.false_eq_true, if_false,
        hagain, ih h]
    | unit left =>
      cases left with
      | zero => exact absurd rfl hunit'
      | succ left => exact absurd rfl (hunit left)

theorem scanDurationFrom_kind (state : DurationState) (cs : List Char) :
    (scanDurationFrom state cs).kind = .timeLiteral ∨ (scanDurationFrom state cs).kind = .error := by
  fun_induction scanDurationFrom state cs with
  | case1 => exact .inl rfl
  | case2 | case8 => exact .inr rfl
  | case5 =>
    split
    · exact .inr rfl
    · exact .inl rfl
  | case3 | case4 | case6 | case7 | case9 => assumption

theorem scanDuration_of_digit {cs : List Char} (h : startsWith Char.isDigit cs = true) :
    scanDuration cs = scanDurationFrom .whole cs := by
  cases cs with
  | nil => cases h
  | cons c cs =>
    have hc : c.isDigit = true := h
    have hsign : (c == '+' || c == '-') = false := not_isSign_of_isDigit hc
    simp only [scanDuration, hsign, hc, Bool.false_eq_true, if_false, if_true]

theorem scanDuration_of_sign {c : Char} {cs : List Char} (hc : isSign c = true)
    (h : startsWith Char.isDigit cs = true) : scanDuration (c :: cs) = (scanDurationFrom .whole cs).cons c := by
  have hc : (c == '+' || c == '-') = true := hc
  simp only [scanDuration, hc, h, if_true]

/-- Behind the `#` stands nothing of a duration, or a number, or a sign and a number. -/
theorem scanDuration_cases (cs : List Char) :
    scanDuration cs = .stop .typedLiteralPrefix cs ∨
    (startsWith isSign cs = true ∧ scanDuration cs = .stop .ident cs) ∨
    startsWith Char.isDigit cs = true ∨
    ∃ c ds, cs = c :: ds ∧ isSign c = true ∧ startsWith Char.isDigit ds = true := by
  unfold scanDuration
  split
  · exact .inl rfl
  · next c ds =>
    split
    · next hc =>
      split
      · next hd => exact .inr (.inr (.inr ⟨c, ds, rfl, hc, hd⟩))
      · exact .inr (.inl ⟨hc, rfl⟩)
    · split
      · next hd => exact .inr (.inr (.inl hd))
      · exact .inl rfl

/-- A name stands in front of a sign, and is over with the `#`. -/
theorem scanDuration_ident {v : List Char} (h : scanDuration (v ++ f) = ⟨.ident, v, f⟩) :
    v = [] ∧ startsWith isSign f = true := by
  have hnumber (cs : List Char) : (scanDurationFrom .whole cs).kind ≠ .ident := by
    rcases scanDurationFrom_kind .whole cs with h | h <;> rw [h] <;> decide
  rcases scanDuration_cases (v ++ f) with hs | ⟨hc, hs⟩ | hd | ⟨c, ds, hcs, hc, hd⟩
  · rw [hs] at h
    cases h
  · rw [hs] at h
    injection h with _ hv
    rw [← hv] at hc
    exact ⟨hv.symm, hc⟩
  · rw [scanDuration_of_digit hd] at h
    exact absurd (congrArg Scan.kind h) (hnumber _)
  · rw [hcs, scanDuration_of_sign hc hd] at h
    exact absurd (congrArg Scan.kind h) (hnumber ds)

theorem scanDuration_typeName {v : List Char} (h : scanDuration (v ++ f) = ⟨.typedLiteralPrefix, v, f⟩) : v = [] := by
  have hnumber (cs : List Char) : (scanDurationFrom .whole cs).kind ≠ .typedLiteralPrefix := by
    rcases scanDurationFrom_kind .whole cs with h | h <;> rw [h] <;> decide
  rcases scanDuration_cases (v ++ f) with hs | ⟨hc, hs⟩ | hd | ⟨c, ds, hcs, hc, hd⟩
  · rw [hs] at h
    injection h with _ hv
    exact hv.symm
  · rw [hs] at h
    cases h
  · rw [scanDuration_of_digit hd] at h
    exact absurd (congrArg Scan.kind h) (hnumber _)
  · rw [hcs, scanDuration_of_sign hc hd] at h
    exact absurd (congrArg Scan.kind h) (hnumber ds)

/-- A duration is taken again in front of a delimiter. -/
theorem scanDuration_again {k : TokenKind} {v : List Char} (h : scanDuration (v ++ f) = ⟨k, v, f⟩)
    (hk : k.isTemporal = true) (hg : Delimits g) : scanDuration (v ++ g) = ⟨k, v, g⟩ := by
  have hagain {cs l : List Char} (h : scanDurationFrom .whole cs = ⟨k, l, f⟩) :
      scanDurationFrom .whole (l ++ g) = ⟨k, l, g⟩ := by
    have hkind : k = .timeLiteral := by
      rcases scanDurationFrom_kind .whole cs with h' | h'
      · rw [← h', h]
      · rw [h] at h'
        cases h'
        cases hk
    have := scanDurationFrom_again hg .whole cs (by rw [h]; exact hkind)
    rw [h] at this
    rw [hkind]
    exact this
  have hwhole (left : Nat) : DurationState.whole ≠ .unit left := nofun
  rcases scanDuration_cases (v ++ f) with hs | ⟨hc, hs⟩ | hd | ⟨c, ds, hcs, hc, hd⟩
  · rw [hs] at h
    cases h
    cases hk
  · rw [hs] at h
    cases h
    cases hk
  · rw [scanDuration_of_digit hd] at h
    have hd' := startsWith_scanDurationFrom hwhole hd g
    rw [h] at hd'
    rw [scanDuration_of_digit hd']
    exact hagain h
  · rw [hcs, scanDuration_of_sign hc hd] at h
    obtain ⟨l, hl, rfl⟩ : ∃ l, scanDurationFrom .whole ds = ⟨k, l, f⟩ ∧ v = [c] ++ l := Scan.exists_of_after h
    have hd' := startsWith_scanDurationFrom hwhole hd g
    rw [hl] at hd'
    rw [List.append_assoc, List.singleton_append, scanDuration_of_sign hc hd', hagain hl]
    rfl

/-! ## Values behind a type name -/

/-- The type name tells what is read behind its `#`. -/
theorem scanTyped_cases (w : List Char) :
    (∀ cs, scanTyped w cs = scanDuration cs) ∨ (∃ stamp : Stamp, ∀ cs, scanTyped w cs = stamp.scan cs) ∨
      ∀ cs, scanTyped w cs = .stop .typedLiteralPrefix cs := by
  unfold scanTyped
  split
  · exact .inl fun _ => rfl
  · exact .inr (.inl ⟨.date, fun _ => rfl⟩)
  · exact .inr (.inl ⟨.timeOfDay, fun _ => rfl⟩)
  · exact .inr (.inl ⟨.dateAndTime, fun _ => rfl⟩)
  · exact .inr (.inr fun _ => rfl)

theorem isWordy_of_isTemporal {k : TokenKind} (h : k.isTemporal = true) : k.isWordy = true := by
  cases k <;> simp [TokenKind.isTemporal] at h <;> rfl

/-- A literal with a time or a date is read the same way in front of every delimiter that its end allows. -/
theorem Scanned.temporal {k : TokenKind} {l : List Char} (h : Scanned k l f) (hk : k.isTemporal = true) :
    ∃ w v, l = w ++ '#' :: v ∧ IsWord w ∧
      ∀ {g}, Delimits g → (temporalEnding k v).allows (behind g) = true → Scanned k l g := by
  rcases h.word_cases (isWordy_of_isTemporal hk) with ⟨hw, hkind⟩ | ⟨w, v, rfl, hw, hs⟩
  · rw [← hkind, wordKind_not (p := TokenKind.isTemporal) (by decide) (fun _ => rfl) rfl l] at hk
    cases hk
  · refine ⟨w, v, rfl, hw, fun hg hend => .of_typed hw ?_⟩
    rcases scanTyped_cases w with hw' | ⟨stamp, hw'⟩ | hw' <;> rw [hw'] at hs ⊢
    · exact scanDuration_again hs hk hg
    · exact Stamp.scan_again hs hk hg hend
    · cases hs
      cases hk

/-- A name is read the same way in front of every delimiter that its end allows, whatever stands in front of it. -/
theorem Scanned.name {l : List Char} (h : Scanned .ident l f) (before : List Char) (hg : Delimits g)
    (hend : (nameEnding (before ++ l)).allows (behind g) = true) : Scanned .ident l g := by
  rcases h.word_cases rfl with ⟨hw, hkind⟩ | ⟨w, v, rfl, hw, hs⟩
  · rw [← hkind]
    exact .of_word hw hg
  · refine .of_typed hw ?_
    have hhash : v ≠ [] := by
      rintro rfl
      rw [nameEnding, ← List.append_assoc, afterLastHash?_hash _ List.not_mem_nil] at hend
      cases hend
    rcases scanTyped_cases w with hw' | ⟨stamp, hw'⟩ | hw' <;> rw [hw'] at hs ⊢
    · exact absurd (scanDuration_ident hs).1 hhash
    · rcases Stamp.scan_ident hs with ⟨hv, -⟩ | ⟨hd, hv, -, hagain⟩
      · exact absurd hv hhash
      · rw [nameEnding, ← List.append_assoc, afterLastHash?_hash _ hv] at hend
        cases v with
        | nil => cases hd
        | cons c v =>
          refine hagain ?_
          have hc : c.isDigit = true := hd
          simpa [hc, Ending.allows] using hend
    · cases hs

/-- A name is a word, unless a digit, a sign or a point stands behind it. -/
theorem Scanned.isWord {l : List Char} (h : Scanned .ident l f)
    (hf : startsWith (fun c => c.isDigit || isSign c || c == '.') f = false) : IsWord l := by
  have hnot {p : Char → Bool} (hp : ∀ c, p c = true → (c.isDigit || isSign c || c == '.') = true)
      (h : startsWith p f = true) : False := by
    cases f with
    | nil => cases h
    | cons c cs => exact absurd (hp c h) (Bool.eq_false_iff.1 hf)
  rcases h.word_cases rfl with ⟨hw, -⟩ | ⟨w, v, rfl, hw, hs⟩
  · exact hw
  · exfalso
    rcases scanTyped_cases w with hw' | ⟨stamp, hw'⟩ | hw' <;> rw [hw'] at hs
    · exact hnot (by simp +contextual) (scanDuration_ident hs).2
    · rcases Stamp.scan_ident hs with ⟨-, hd⟩ | ⟨-, -, hpoint, -⟩
      · exact hnot (by simp +contextual) hd
      · obtain ⟨cs, rfl, -⟩ := behind_eq_point_iff.1 hpoint
        cases hf
    · cases hs

/-- A type name with its `#` is a word with a `#`. -/
theorem Scanned.typeName {l : List Char} (h : Scanned .typedLiteralPrefix l f) : ∃ w, l = w ++ ['#'] ∧ IsWord w := by
  rcases h.word_cases rfl with ⟨hw, hkind⟩ | ⟨w, v, rfl, hw, hs⟩
  · have hne := wordKind_not (p := (· == .typedLiteralPrefix)) (by decide) (fun _ => rfl) rfl l
    rw [hkind] at hne
    cases hne
  · refine ⟨w, ?_, hw⟩
    rcases scanTyped_cases w with hw' | ⟨stamp, hw'⟩ | hw' <;> rw [hw'] at hs
    · rw [scanDuration_typeName hs]
    · rw [Stamp.scan_typeName hs]
    · injection hs with _ hv
      rw [← hv]

end StructuredText
