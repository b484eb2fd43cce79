import StructuredText.Json.Value
import StructuredText.Text.Quoted

/-!
# Reading JSON

`Json.decode` reads a JSON text whose numbers are natural: spaces between the parts, all the escapes of strings, pairs
of 16-bit code units for one character, and no digit behind a zero in front. What is written on one line reads back as
the value that was written (`Json.decode_compact`), and the line is one line (`Json.notMem_compact`).
-/

namespace StructuredText.Json

/-! ## The reader -/

/-- The characters that may stand between the parts of a value. -/
def isSpace (c : Char) : Bool := c == ' ' || c == '\t' || c == '\n' || c == '\r'

/-- The text behind the spaces at its front. -/
def skipSpaces (cs : List Char) : List Char := cs.dropWhile isSpace

/-- Reads a number: zero, or digits the first of which is not zero. -/
def readNumber (cs : List Char) : Option (Nat × List Char) :=
  match cs.takeWhile Char.isDigit with
  | [] => none
  | '0' :: _ :: _ => none
  | digits => some (Nat.ofDigitChars 10 digits 0, cs.dropWhile Char.isDigit)

/-- A part of a string: a character, or a 16-bit code unit. -/
inductive StringPart where
  | char (c : Char)
  | unit (code : Nat)

/-- The character that a letter behind a backslash stands for. -/
def shortEscape? : Char → Option Char
  | '"' => some '"'
  | '\\' => some '\\'
  | '/' => some '/'
  | 'b' => some '\x08'
  | 'f' => some '\x0C'
  | 'n' => some '\n'
  | 'r' => some '\r'
  | 't' => some '\t'
  | _ => none

/-- Reads the parts of a string behind its opening quote, up to the closing one. -/
def readParts : List Char → Option (List StringPart × List Char)
  | '"' :: cs => some ([], cs)
  | '\\' :: 'u' :: a :: b :: c :: d :: cs =>
    if [a, b, c, d].all isHexDigit then
      (readParts cs).map fun (parts, rest) => (.unit (Text.hexValue [a, b, c, d]) :: parts, rest)
    else none
  | '\\' :: letter :: cs => do
    let c ← shortEscape? letter
    (readParts cs).map fun (parts, rest) => (.char c :: parts, rest)
  | c :: cs =>
    if c == '\\' || c.toNat < 0x20 then none
    else (readParts cs).map fun (parts, rest) => (.char c :: parts, rest)
  | [] => none

/-- The first halves of characters outside of the first plane. -/
def isHigh (code : Nat) : Bool := 0xD800 ≤ code && code < 0xDC00

/-- The second halves of characters outside of the first plane. -/
def isLow (code : Nat) : Bool := 0xDC00 ≤ code && code < 0xE000

/-- Puts the halves of characters together. -/
def joinParts : List StringPart → Option (List Char)
  | [] => some []
  | .char c :: parts => (joinParts parts).map (c :: ·)
  | .unit high :: .unit low :: parts =>
    if isHigh high then
      if isLow low then
        (joinParts parts).map (Char.ofNat (0x10000 + (high - 0xD800) * 0x400 + (low - 0xDC00)) :: ·)
      else none
    else if isLow high then none
    else (joinParts (.unit low :: parts)).map (Char.ofNat high :: ·)
  | .unit code :: parts => if isHigh code || isLow code then none else (joinParts parts).map (Char.ofNat code :: ·)

/-- Reads a string behind its opening quote. -/
def readString (cs : List Char) : Option (String × List Char) := do
  let (parts, rest) ← readParts cs
  let s ← joinParts parts
  return (String.ofList s, rest)

mutual

/-- Reads a value. The first argument bounds how often a part is read inside another one. -/
def readValue : Nat → List Char → Option (Json × List Char)
  | 0, _ => none
  | bound + 1, cs =>
    match skipSpaces cs with
    | 'n' :: 'u' :: 'l' :: 'l' :: cs => some (.null, cs)
    | 't' :: 'r' :: 'u' :: 'e' :: cs => some (.bool true, cs)
    | 'f' :: 'a' :: 'l' :: 's' :: 'e' :: cs => some (.bool false, cs)
    | '"' :: cs => (readString cs).map fun (s, rest) => (.str s, rest)
    | '[' :: cs =>
      match skipSpaces cs with
      | ']' :: cs => some (.arr [], cs)
      | _ => (readItems bound cs).map fun (items, rest) => (.arr items, rest)
    | '\x7b' :: cs =>
      match skipSpaces cs with
      | '\x7d' :: cs => some (.obj [], cs)
      | _ => (readFields bound cs).map fun (fields, rest) => (.obj fields, rest)
    | cs => (readNumber cs).map fun (n, rest) => (.num n, rest)

/-- Reads the items of an array, one at least, up to its closing bracket. -/
def readItems : Nat → List Char → Option (List Json × List Char)
  | 0, _ => none
  | bound + 1, cs => do
    let (v, cs) ← readValue bound cs
    match skipSpaces cs with
    | ',' :: cs => (readItems bound cs).map fun (items, rest) => (v :: items, rest)
    | ']' :: cs => some ([v], cs)
    | _ => none

/-- Reads the fields of an object, one at least, up to its closing brace. -/
def readFields : Nat → List Char → Option (List (String × Json) × List Char)
  | 0, _ => none
  | bound + 1, cs => do
    let '"' :: cs := skipSpaces cs | none
    let (name, cs) ← readString cs
    let ':' :: cs := skipSpaces cs | none
    let (v, cs) ← readValue bound cs
    match skipSpaces cs with
    | ',' :: cs => (readFields bound cs).map fun (fields, rest) => ((name, v) :: fields, rest)
    | '\x7d' :: cs => some ([(name, v)], cs)
    | _ => none

end

/-- The value that a text writes. A part takes two characters at least for each part inside it. -/
def decode (s : String) : Option Json := do
  let (v, rest) ← readValue (2 * s.toList.length) s.toList
  if skipSpaces rest = [] then some v else none

/-! ## Numbers -/

/-- No digit stands at the front of the text. -/
def NoDigit (cs : List Char) : Prop := ∀ c ∈ cs.head?, c.isDigit = false

theorem takeWhile_isDigit_append {ds rest : List Char} (hd : ∀ c ∈ ds, c.isDigit = true) (hr : NoDigit rest) :
    (ds ++ rest).takeWhile Char.isDigit = ds ∧ (ds ++ rest).dropWhile Char.isDigit = rest := by
  rw [List.takeWhile_append_of_pos hd, List.dropWhile_append_of_pos hd]
  cases rest with
  | nil => simp
  | cons c cs => simp [hr c rfl]

/-- Only zero is written with a zero in front. -/
theorem head?_toDigits {n : Nat} (hn : 0 < n) : (Nat.toDigits 10 n).head? ≠ some '0' := by
  induction n using Nat.strongRecOn with
  | ind n ih =>
    by_cases h : n < 10
    · have hdigit : ∀ m < 10, 0 < m → [m.digitChar].head? ≠ some '0' := by decide
      rw [Nat.toDigits_of_lt_base h]
      exact hdigit n h hn
    · have hfront := ih (n / 10) (by omega) (by omega)
      rw [Nat.toDigits_of_base_le (by decide) (by omega)]
      cases hds : Nat.toDigits 10 (n / 10) with
      | nil => exact absurd hds Nat.toDigits_ne_nil
      | cons d ds =>
        rw [hds] at hfront
        exact hfront

theorem isDigit_of_mem_toString {n : Nat} : ∀ c ∈ (toString n).toList, c.isDigit = true := by
  rw [Nat.toString_eq_repr, Nat.toList_repr]
  exact fun c hc => Nat.isDigit_of_mem_toDigits (by decide) (by decide) hc

theorem readNumber_toString (n : Nat) {rest : List Char} (hr : NoDigit rest) :
    readNumber ((toString n).toList ++ rest) = some (n, rest) := by
  obtain ⟨htake, hdrop⟩ := takeWhile_isDigit_append (isDigit_of_mem_toString (n := n)) hr
  have hdigits : (toString n).toList = Nat.toDigits 10 n := by rw [Nat.toString_eq_repr, Nat.toList_repr]
  rw [readNumber, htake, hdrop, hdigits]
  split
  · next h => exact absurd h Nat.toDigits_ne_nil
  · next c cs h =>
    rcases Nat.eq_zero_or_pos n with rfl | hn
    · cases h
    · exact absurd (by rw [h]; rfl) (head?_toDigits hn)
  · rw [Nat.ofDigitChars_ten_toDigits]

/-! ## Strings -/

/-- Below U+0020 all four digits of a code are read back. -/
theorem hexValue_code : ∀ n < 0x20, ∃ a b c d, (Text.fixedHex 4 n).map Char.toLower = [a, b, c, d] ∧
    [a, b, c, d].all isHexDigit = true ∧ Text.hexValue [a, b, c, d] = n := by
  intro n hn
  refine ⟨_, _, _, _, rfl, ?_⟩
  revert n
  decide

/-- A character is written as one part. -/
theorem readParts_escapeChar (c : Char) (cs : List Char) :
    ∃ part, readParts (escapeChar c ++ cs) = (readParts cs).map (fun (parts, rest) => (part :: parts, rest)) ∧
      (part = .char c ∨ (part = .unit c.toNat ∧ c.toNat < 0x20)) := by
  unfold escapeChar
  iterate 7
    split
    · next h =>
      rw [eq_of_beq h]
      exact ⟨_, rfl, .inl rfl⟩
  split
  · next h =>
    obtain ⟨w, x, y, z, hhex, hall, hvalue⟩ := hexValue_code c.toNat h
    rw [hhex]
    refine ⟨.unit c.toNat, ?_, .inr ⟨rfl, h⟩⟩
    rw [List.cons_append, List.cons_append, List.cons_append, List.cons_append, List.cons_append, List.cons_append,
      List.nil_append, readParts, if_pos hall, hvalue]
  · next hquote hslash _ _ _ _ _ hcode =>
    refine ⟨.char c, ?_, .inl rfl⟩
    rw [List.singleton_append, readParts, if_neg (by simp_all)]
    all_goals simp_all

theorem joinParts_unit {code : Nat} (h : code < 0x20) (parts : List StringPart) :
    joinParts (.unit code :: parts) = (joinParts parts).map (Char.ofNat code :: ·) := by
  have hhigh : isHigh code = false := by simp [isHigh]; omega
  have hlow : isLow code = false := by simp [isLow]; omega
  cases parts with
  | nil => simp [joinParts, hhigh, hlow]
  | cons part parts => cases part <;> simp [joinParts, hhigh, hlow]

theorem readParts_escaped (s rest : List Char) :
    ∃ parts, readParts (s.flatMap escapeChar ++ '"' :: rest) = some (parts, rest) ∧ joinParts parts = some s := by
  induction s with
  | nil => exact ⟨[], rfl, rfl⟩
  | cons c s ih =>
    obtain ⟨parts, hread, hjoin⟩ := ih
    obtain ⟨part, hpart, hc⟩ := readParts_escapeChar c (s.flatMap escapeChar ++ '"' :: rest)
    refine ⟨part :: parts, ?_, ?_⟩
    · rw [List.flatMap_cons, List.append_assoc, hpart, hread]
      rfl
    · rcases hc with rfl | ⟨rfl, hcode⟩
      · rw [joinParts, hjoin]
        rfl
      · rw [joinParts_unit hcode, hjoin, Char.ofNat_toNat]
        rfl

theorem readString_quoted (s : String) (rest : List Char) :
    ∃ cs, (quoted s).toList ++ rest = '"' :: cs ∧ readString cs = some (s, rest) := by
  obtain ⟨parts, hread, hjoin⟩ := readParts_escaped s.toList rest
  refine ⟨s.toList.flatMap escapeChar ++ '"' :: rest, by simp [quoted], ?_⟩
  simp [readString, hread, hjoin]

/-! ## Values -/

theorem skipSpaces_cons {c : Char} (h : isSpace c = false) (cs : List Char) : skipSpaces (c :: cs) = c :: cs := by
  simp [skipSpaces, h]

theorem isSpace_of_isDigit {c : Char} (h : c.isDigit = true) : isSpace c = false := by
  refine Bool.eq_false_iff.2 fun hspace => ?_
  simp only [isSpace, Bool.or_eq_true, beq_iff_eq] at hspace
  rcases hspace with ((rfl | rfl) | rfl) | rfl <;> cases h

theorem exists_digit (n : Nat) : ∃ d ds, (toString n).toList = d :: ds ∧ d.isDigit = true := by
  cases h : (toString n).toList with
  | nil =>
    rw [Nat.toString_eq_repr, Nat.toList_repr] at h
    exact absurd h Nat.toDigits_ne_nil
  | cons d ds => exact ⟨d, ds, rfl, isDigit_of_mem_toString d (h ▸ List.mem_cons_self)⟩

/-- A value begins with a character of its own. -/
theorem exists_front (v : Json) : ∃ c cs, v.compact.toList = c :: cs ∧ isSpace c = false ∧ c ≠ ']' := by
  cases v with
  | null => exact ⟨'n', ['u', 'l', 'l'], rfl, rfl, by decide⟩
  | bool b =>
    cases b with
    | true => exact ⟨'t', ['r', 'u', 'e'], rfl, rfl, by decide⟩
    | false => exact ⟨'f', ['a', 'l', 's', 'e'], rfl, rfl, by decide⟩
  | num n =>
    obtain ⟨d, ds, hds, hd⟩ := exists_digit n
    refine ⟨d, ds, hds, isSpace_of_isDigit hd, ?_⟩
    rintro rfl
    cases hd
  | str s => exact ⟨'"', _, by rw [compact, quoted, String.toList_ofList]; rfl, rfl, by decide⟩
  | arr items => exact ⟨'[', _, by rw [compact, String.toList_append, String.toList_append]; rfl, rfl, by decide⟩
  | obj fields => exact ⟨'\x7b', _, by rw [compact, String.toList_append, String.toList_append]; rfl, rfl, by decide⟩

/-! ### What is written -/

/-- The items of an array with the commas between them. -/
def itemsText (items : List Json) : List Char := (",".intercalate (compactItems items)).toList

/-- The fields of an object with the commas between them. -/
def fieldsText (fields : List (String × Json)) : List Char := (",".intercalate (compactFields fields)).toList

theorem compact_arr (items : List Json) : (Json.arr items).compact.toList = '[' :: (itemsText items ++ [']']) := by
  simp [compact, itemsText]

theorem compact_obj (fields : List (String × Json)) :
    (Json.obj fields).compact.toList = '\x7b' :: (fieldsText fields ++ ['\x7d']) := by
  simp [compact, fieldsText]

@[simp] theorem itemsText_nil : itemsText [] = [] := rfl

@[simp] theorem itemsText_singleton (v : Json) : itemsText [v] = v.compact.toList := by
  simp [itemsText, compactItems]

@[simp] theorem itemsText_cons_cons (v w : Json) (items : List Json) :
    itemsText (v :: w :: items) = v.compact.toList ++ ',' :: itemsText (w :: items) := by
  simp [itemsText, compactItems]

@[simp] theorem fieldsText_nil : fieldsText [] = [] := rfl

@[simp] theorem fieldsText_singleton (name : String) (v : Json) :
    fieldsText [(name, v)] = (quoted name).toList ++ ':' :: v.compact.toList := by
  simp [fieldsText, compactFields]

@[simp] theorem fieldsText_cons_cons (name : String) (v : Json) (field : String × Json)
    (fields : List (String × Json)) :
    fieldsText ((name, v) :: field :: fields) =
      (quoted name).toList ++ ':' :: (v.compact.toList ++ ',' :: fieldsText (field :: fields)) := by
  simp [fieldsText, compactFields]

theorem itemsText_front (v : Json) (items : List Json) :
    ∃ c cs, itemsText (v :: items) = c :: cs ∧ isSpace c = false ∧ c ≠ ']' := by
  obtain ⟨c, cs, hfront, hspace, hc⟩ := exists_front v
  cases items with
  | nil => exact ⟨c, cs, by rw [itemsText_singleton, hfront], hspace, hc⟩
  | cons w items => exact ⟨c, _, by rw [itemsText_cons_cons, hfront, List.cons_append], hspace, hc⟩

theorem fieldsText_front (field : String × Json) (fields : List (String × Json)) :
    ∃ cs, fieldsText (field :: fields) = '"' :: cs := by
  obtain ⟨name, v⟩ := field
  have hname : (quoted name).toList = '"' :: (name.toList.flatMap escapeChar ++ ['"']) := by simp [quoted]
  cases fields with
  | nil => exact ⟨_, by rw [fieldsText_singleton, hname, List.cons_append]⟩
  | cons field fields => exact ⟨_, by rw [fieldsText_cons_cons, hname, List.cons_append]⟩

/-! ### What is read -/

section

variable {bound : Nat} {cs rest : List Char} {v : Json}

theorem readValue_number (n : Nat) (hr : NoDigit rest) :
    readValue (bound + 1) ((toString n).toList ++ rest) = some (.num n, rest) := by
  obtain ⟨d, ds, hds, hd⟩ := exists_digit n
  have hread := readNumber_toString n hr
  rw [hds, List.cons_append] at hread ⊢
  generalize ds ++ rest = cs at hread
  rw [readValue, skipSpaces_cons (isSpace_of_isDigit hd)]
  split
  iterate 6
    next h =>
      cases h
      cases hd
  rw [hread]
  rfl

theorem readValue_string :
    readValue (bound + 1) ('"' :: cs) = (readString cs).map fun (s, rest) => (.str s, rest) := rfl

theorem readValue_array {c : Char} (hspace : isSpace c = false) (hc : c ≠ ']') :
    readValue (bound + 1) ('[' :: c :: cs) =
      (readItems bound (c :: cs)).map fun (items, rest) => (.arr items, rest) := by
  show (match skipSpaces (c :: cs) with
    | ']' :: cs => some (Json.arr [], cs)
    | _ => (readItems bound (c :: cs)).map fun (items, rest) => (.arr items, rest)) = _
  rw [skipSpaces_cons hspace]
  split
  · next h => exact absurd (List.cons.inj h).1 hc
  · rfl

theorem readValue_object : readValue (bound + 1) ('\x7b' :: '"' :: cs) =
    (readFields bound ('"' :: cs)).map fun (fields, rest) => (.obj fields, rest) := rfl

theorem readItems_last (h : readValue bound cs = some (v, ']' :: rest)) :
    readItems (bound + 1) cs = some ([v], rest) := by
  rw [readItems, h]
  rfl

theorem readItems_cons (h : readValue bound cs = some (v, ',' :: rest)) :
    readItems (bound + 1) cs = (readItems bound rest).map fun (items, rest) => (v :: items, rest) := by
  rw [readItems, h]
  rfl

theorem readFields_last {name : String} {behind : List Char} (hname : readString cs = some (name, ':' :: behind))
    (h : readValue bound behind = some (v, '\x7d' :: rest)) :
    readFields (bound + 1) ('"' :: cs) = some ([(name, v)], rest) := by
  rw [readFields, skipSpaces_cons rfl]
  simp only [hname, Option.bind_eq_bind, Option.bind_some, skipSpaces_cons (show isSpace ':' = false from rfl), h]
  rfl

theorem readFields_cons {name : String} {behind : List Char} (hname : readString cs = some (name, ':' :: behind))
    (h : readValue bound behind = some (v, ',' :: rest)) :
    readFields (bound + 1) ('"' :: cs) =
      (readFields bound rest).map fun (fields, rest) => ((name, v) :: fields, rest) := by
  rw [readFields, skipSpaces_cons rfl]
  simp only [hname, Option.bind_eq_bind, Option.bind_some, skipSpaces_cons (show isSpace ':' = false from rfl), h]
  rfl

end

theorem noDigit_cons {c : Char} (h : c.isDigit = false) (cs : List Char) : NoDigit (c :: cs) := by
  rintro d ⟨⟩
  exact h

mutual

/-- A value that is written on one line is read back, and so is the text behind it. -/
theorem readValue_compact (v : Json) (bound : Nat) (rest : List Char) (hbound : 2 * v.compact.toList.length ≤ bound)
    (hr : NoDigit rest) : readValue bound (v.compact.toList ++ rest) = some (v, rest) := by
  obtain ⟨bound, rfl⟩ : ∃ b, bound = b + 1 := by
    obtain ⟨c, cs, hfront, -⟩ := exists_front v
    rw [hfront, List.length_cons] at hbound
    exact ⟨bound - 1, by omega⟩
  cases v with
  | null => rfl
  | bool b => cases b <;> rfl
  | num n => exact readValue_number n hr
  | str s =>
    obtain ⟨cs, hcs, hread⟩ := readString_quoted s rest
    rw [compact, hcs, readValue_string, hread]
    rfl
  | arr items =>
    cases items with
    | nil => rfl
    | cons v items =>
      obtain ⟨c, cs, hfront, hspace, hc⟩ := itemsText_front v items
      rw [compact_arr, List.length_cons, List.length_append, List.length_singleton] at hbound
      have hitems := readItems_compact (v :: items) (List.cons_ne_nil _ _) bound rest (by omega)
      rw [hfront, List.cons_append] at hitems
      rw [compact_arr, hfront, List.cons_append, List.cons_append, List.cons_append, List.append_assoc,
        List.singleton_append, readValue_array hspace hc, hitems]
      rfl
  | obj fields =>
    cases fields with
    | nil => rfl
    | cons field fields =>
      obtain ⟨cs, hfront⟩ := fieldsText_front field fields
      rw [compact_obj, List.length_cons, List.length_append, List.length_singleton] at hbound
      have hfields := readFields_compact (field :: fields) (List.cons_ne_nil _ _) bound rest (by omega)
      rw [hfront, List.cons_append] at hfields
      rw [compact_obj, hfront, List.cons_append, List.cons_append, List.cons_append, List.append_assoc,
        List.singleton_append, readValue_object, hfields]
      rfl

theorem readItems_compact (items : List Json) (hne : items ≠ []) (bound : Nat) (rest : List Char)
    (hbound : 2 * (itemsText items).length + 1 ≤ bound) :
    readItems bound (itemsText items ++ ']' :: rest) = some (items, rest) := by
  obtain ⟨bound, rfl⟩ : ∃ b, bound = b + 1 := ⟨bound - 1, by omega⟩
  cases items with
  | nil => exact absurd rfl hne
  | cons v items =>
    cases items with
    | nil =>
      rw [itemsText_singleton] at hbound ⊢
      exact readItems_last (readValue_compact v bound _ (by omega) (noDigit_cons rfl _))
    | cons w items =>
      rw [itemsText_cons_cons, List.length_append, List.length_cons] at hbound
      have hitems := readItems_compact (w :: items) (List.cons_ne_nil _ _) bound rest (by omega)
      rw [itemsText_cons_cons, List.append_assoc, List.cons_append,
        readItems_cons (readValue_compact v bound _ (by omega) (noDigit_cons rfl _)), hitems]
      rfl

theorem readFields_compact (fields : List (String × Json)) (hne : fields ≠ []) (bound : Nat) (rest : List Char)
    (hbound : 2 * (fieldsText fields).length + 1 ≤ bound) :
    readFields bound (fieldsText fields ++ '\x7d' :: rest) = some (fields, rest) := by
  obtain ⟨bound, rfl⟩ : ∃ b, bound = b + 1 := ⟨bound - 1, by omega⟩
  cases fields with
  | nil => exact absurd rfl hne
  | cons field fields =>
    obtain ⟨name, v⟩ := field
    cases fields with
    | nil =>
      rw [fieldsText_singleton, List.length_append, List.length_cons] at hbound
      have hv := readValue_compact v bound ('\x7d' :: rest) (by omega) (noDigit_cons rfl _)
      obtain ⟨cs, hcs, hname⟩ := readString_quoted name (':' :: (v.compact.toList ++ '\x7d' :: rest))
      rw [fieldsText_singleton, List.append_assoc, List.cons_append, hcs]
      exact readFields_last hname hv
    | cons field fields =>
      rw [fieldsText_cons_cons, List.length_append, List.length_cons, List.length_append, List.length_cons] at hbound
      have hv := readValue_compact v bound (',' :: (fieldsText (field :: fields) ++ '\x7d' :: rest)) (by omega)
        (noDigit_cons rfl _)
      have hfields := readFields_compact (field :: fields) (List.cons_ne_nil _ _) bound rest (by omega)
      obtain ⟨cs, hcs, hname⟩ := readString_quoted name
        (':' :: (v.compact.toList ++ ',' :: (fieldsText (field :: fields) ++ '\x7d' :: rest)))
      rw [fieldsText_cons_cons, List.append_assoc, List.cons_append, List.append_assoc, List.cons_append, hcs,
        readFields_cons hname hv, hfields]
      rfl

end

/-- A value that is written on one line is read back. -/
theorem decode_compact (v : Json) : decode v.compact = some v := by
  have hread := readValue_compact v (2 * v.compact.toList.length) [] (Nat.le_refl _) nofun
  rw [List.append_nil] at hread
  rw [decode, hread]
  rfl

/-! ## One line -/

theorem notMem_escapeChar (c : Char) : '\n' ∉ escapeChar c := by
  unfold escapeChar
  iterate 7
    split
    · decide
  split
  · next h =>
    obtain ⟨w, x, y, z, hhex, hall, -⟩ := hexValue_code c.toNat h
    rw [hhex]
    intro hmem
    rcases List.mem_cons.1 hmem with h | hmem
    · cases h
    rcases List.mem_cons.1 hmem with h | hmem
    · cases h
    exact absurd (List.all_eq_true.1 hall _ hmem) (by decide)
  · next hbreak _ _ _ => exact fun hmem => hbreak (beq_iff_eq.2 (List.mem_singleton.1 hmem).symm)

theorem notMem_quoted (s : String) : '\n' ∉ (quoted s).toList := by
  simp [quoted, notMem_escapeChar]

mutual

/-- A value without spaces between its parts is written on one line. -/
theorem notMem_compact (v : Json) : '\n' ∉ v.compact.toList := by
  cases v with
  | null => decide
  | bool b => cases b <;> decide
  | num n => exact fun h => absurd (isDigit_of_mem_toString _ h) (by decide)
  | str s =>
    rw [compact]
    exact notMem_quoted s
  | arr items =>
    have hitems := notMem_itemsText items
    simp [compact_arr, hitems]
  | obj fields =>
    have hfields := notMem_fieldsText fields
    simp [compact_obj, hfields]

theorem notMem_itemsText (items : List Json) : '\n' ∉ itemsText items := by
  cases items with
  | nil => exact List.not_mem_nil
  | cons v items =>
    have hv := notMem_compact v
    have hitems := notMem_itemsText items
    cases items with
    | nil => simpa using hv
    | cons w items => simp [hv, hitems]

theorem notMem_fieldsText (fields : List (String × Json)) : '\n' ∉ fieldsText fields := by
  cases fields with
  | nil => exact List.not_mem_nil
  | cons field fields =>
    obtain ⟨name, v⟩ := field
    have hv := notMem_compact v
    have hfields := notMem_fieldsText fields
    cases fields with
    | nil => simp [notMem_quoted, hv]
    | cons field fields => simp [notMem_quoted, hv, hfields]

end

end StructuredText.Json
