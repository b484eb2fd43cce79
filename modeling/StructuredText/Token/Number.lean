import StructuredText.Token.Scan

/-!
# Numbers

An integer is a run of digits in which an underscore may stand between two digits. A base (`2#`, `8#` or `16#`) and a
fraction are read more freely: once one has begun, an underscore that no digit follows still belongs to the number and
ends it, and so does an exponent mark without digits.
-/

namespace StructuredText

/-- Digits, and underscores that a digit follows. -/
def digitGroups (isDigit : Char → Bool) : List Char → List Char × List Char
  | [] => ([], [])
  | c :: cs =>
    if isDigit c || (c == '_' && startsWith isDigit cs) then
      let (taken, rest) := digitGroups isDigit cs
      (c :: taken, rest)
    else ([], c :: cs)

/-- A run of digits and underscores. -/
structure LooseDigits where
  taken : List Char
  rest : List Char
  /-- The last character is an underscore without a digit after it. -/
  dangling : Bool

/-- Digits and underscores up to and including the first underscore that no digit follows. -/
def looseDigits (isDigit : Char → Bool) : List Char → LooseDigits
  | [] => ⟨[], [], false⟩
  | c :: cs =>
    if isDigit c || (c == '_' && startsWith isDigit cs) then
      let run := looseDigits isDigit cs
      { run with taken := c :: run.taken }
    else if c == '_' then ⟨[c], cs, true⟩
    else ⟨[], c :: cs, false⟩

/-- An optional sign. -/
def optionalSign : List Char → List Char × List Char
  | [] => ([], [])
  | c :: cs => if c == '+' || c == '-' then ([c], cs) else ([], c :: cs)

/-- Exponents, of which only the last one may have digits; at most `tries` of them are read. -/
def exponents : Nat → List Char → List Char × List Char
  | 0, cs => ([], cs)
  | _ + 1, [] => ([], [])
  | tries + 1, c :: cs =>
    if c == 'e' || c == 'E' then
      let sign := optionalSign cs
      if startsWith Char.isDigit sign.2 then
        let run := looseDigits Char.isDigit sign.2
        (c :: sign.1 ++ run.taken, run.rest)
      else
        let more := exponents tries sign.2
        (c :: sign.1 ++ more.1, more.2)
    else ([], c :: cs)

/-- A fraction behind its point, with its exponent. After a dangling underscore one exponent is tried and else two. -/
def fraction (cs : List Char) : List Char × List Char :=
  let digits := looseDigits Char.isDigit cs
  let (taken, rest) := exponents (if digits.dangling then 1 else 2) digits.rest
  (digits.taken ++ taken, rest)

/-- The digits of the base that is written in front of a `#`. -/
def baseDigits? : List Char → Option (Char → Bool)
  | ['2'] => some isBinaryDigit
  | ['8'] => some isOctalDigit
  | ['1', '6'] => some isHexDigit
  | _ => none

/-- Reads what follows the whole part of a number. -/
def scanAfterWhole (whole : List Char) : List Char → Scan
  | [] => ⟨.intLiteral, whole, []⟩
  | c :: cs =>
    match c, baseDigits? whole with
    | '#', some isDigit =>
      if startsWith isDigit cs then
        let run := looseDigits isDigit cs
        ⟨.nonDecimalLiteral, whole ++ c :: run.taken, run.rest⟩
      else ⟨.intLiteral, whole ++ [c], cs⟩
    | '.', _ =>
      if startsWith Char.isDigit cs then
        let (taken, rest) := fraction cs
        ⟨.realLiteral, whole ++ c :: taken, rest⟩
      else ⟨.intLiteral, whole, c :: cs⟩
    | _, _ => ⟨.intLiteral, whole, c :: cs⟩

/-- Reads a number at its first digit. A base without a digit of that base is an integer that ends with its `#`. -/
def scanNumber (cs : List Char) : Scan :=
  let (whole, rest) := digitGroups Char.isDigit cs
  scanAfterWhole whole rest

/-! ## Nothing is lost -/

theorem digitGroups_append (isDigit : Char → Bool) (cs : List Char) :
    (digitGroups isDigit cs).1 ++ (digitGroups isDigit cs).2 = cs := by
  induction cs with
  | nil => rfl
  | cons c cs ih =>
    unfold digitGroups
    split
    · simpa using ih
    · rfl

theorem looseDigits_append (isDigit : Char → Bool) (cs : List Char) :
    (looseDigits isDigit cs).taken ++ (looseDigits isDigit cs).rest = cs := by
  induction cs with
  | nil => rfl
  | cons c cs ih =>
    unfold looseDigits
    split
    · simpa using ih
    · split <;> rfl

theorem optionalSign_append (cs : List Char) : (optionalSign cs).1 ++ (optionalSign cs).2 = cs := by
  unfold optionalSign
  split
  · rfl
  · split <;> rfl

theorem exponents_append (tries : Nat) (cs : List Char) :
    (exponents tries cs).1 ++ (exponents tries cs).2 = cs := by
  induction tries generalizing cs with
  | zero => rfl
  | succ tries ih =>
    cases cs with
    | nil => rfl
    | cons c cs =>
      have hsign := optionalSign_append cs
      unfold exponents
      split
      · dsimp only
        split
        · simp [looseDigits_append, hsign]
        · simp [ih, hsign]
      · rfl

theorem fraction_append (cs : List Char) : (fraction cs).1 ++ (fraction cs).2 = cs := by
  simp [fraction, exponents_append, looseDigits_append]

theorem scanAfterWhole_of (whole cs : List Char) : (scanAfterWhole whole cs).Of (whole ++ cs) := by
  unfold scanAfterWhole
  split
  · rfl
  · split
    · split
      · simp [Scan.Of, looseDigits_append]
      · simp [Scan.Of]
    · split
      · simp [Scan.Of, fraction_append]
      · rfl
    · rfl

theorem scanNumber_of (cs : List Char) : (scanNumber cs).Of cs := by
  have h := scanAfterWhole_of (digitGroups Char.isDigit cs).1 (digitGroups Char.isDigit cs).2
  rwa [digitGroups_append] at h

end StructuredText
