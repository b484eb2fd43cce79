/-!
# Hexadecimal numbers

A number is written with a fixed count of hexadecimal digits, and reading the digits back gives the number
(`hexValue_fixedHex`).
-/

namespace StructuredText.Text

/-- The value of a hexadecimal digit in either case, and zero for any other character. -/
def hexDigitValue (c : Char) : Nat :=
  if c.isDigit then c.toNat - 48
  else if 'a' ≤ c ∧ c ≤ 'f' then c.toNat - 87
  else if 'A' ≤ c ∧ c ≤ 'F' then c.toNat - 55
  else 0

/-- The number that a row of hexadecimal digits writes. -/
def hexValue (cs : List Char) : Nat := cs.foldl (fun n c => n * 16 + hexDigitValue c) 0

/-- The digits of `n` in base sixteen, as many as asked for; letters are in upper case. -/
def fixedHex : Nat → Nat → List Char
  | 0, _ => []
  | width + 1, n => fixedHex width (n / 16) ++ [(Nat.digitChar (n % 16)).toUpper]

theorem hexValue_append_singleton (cs : List Char) (c : Char) :
    hexValue (cs ++ [c]) = hexValue cs * 16 + hexDigitValue c := by
  simp [hexValue]

theorem hexDigitValue_digitChar : ∀ n < 16, hexDigitValue (Nat.digitChar n).toUpper = n := by decide

/-- Reading the digits back gives the number, if the digits suffice for it. -/
theorem hexValue_fixedHex (width n : Nat) : hexValue (fixedHex width n) = n % Nat.pow 16 width := by
  induction width generalizing n with
  | zero => simp [fixedHex, hexValue, Nat.pow, Nat.mod_one]
  | succ width ih =>
    rw [fixedHex, hexValue_append_singleton, ih, hexDigitValue_digitChar _ (Nat.mod_lt n (by decide)),
      show Nat.pow 16 (width + 1) = 16 * Nat.pow 16 width from Nat.mul_comm .., Nat.mod_mul]
    omega

end StructuredText.Text
