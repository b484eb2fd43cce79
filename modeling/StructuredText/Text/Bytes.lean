/-!
# Byte offsets into a text

Offsets count the bytes of a text's UTF-8 form, while the text itself is a list of characters. A cut succeeds only on
a character boundary, and a slice that succeeds gives back the characters between its two offsets (`slice?_eq_some`).
-/

namespace StructuredText.Text

/-- The number of bytes of the UTF-8 form. -/
def byteLength : List Char → Nat
  | [] => 0
  | c :: cs => c.utf8Size + byteLength cs

@[simp] theorem byteLength_nil : byteLength [] = 0 := rfl

@[simp] theorem byteLength_cons (c : Char) (cs : List Char) :
    byteLength (c :: cs) = c.utf8Size + byteLength cs := rfl

@[simp] theorem byteLength_append (cs ds : List Char) : byteLength (cs ++ ds) = byteLength cs + byteLength ds := by
  induction cs with
  | nil => simp
  | cons c cs ih => simp [ih, Nat.add_assoc]

/-- Cuts the text at byte `n`, unless `n` lies inside a character or past the end. -/
def splitAt? : List Char → Nat → Option (List Char × List Char)
  | cs, 0 => some ([], cs)
  | [], _ + 1 => none
  | c :: cs, n + 1 =>
    if c.utf8Size ≤ n + 1 then (splitAt? cs (n + 1 - c.utf8Size)).map fun (l, r) => (c :: l, r) else none

/-- The text between two byte offsets, unless one of them is no character boundary or they stand in the wrong order. -/
def slice? (cs : List Char) (start stop : Nat) : Option (List Char) :=
  if start ≤ stop then do
    let (_, tail) ← splitAt? cs start
    let (inner, _) ← splitAt? tail (stop - start)
    return inner
  else none

/-- A cut at the length of the first part gives the two parts back. -/
theorem splitAt?_append (cs ds : List Char) : splitAt? (cs ++ ds) (byteLength cs) = some (cs, ds) := by
  induction cs with
  | nil => cases ds <;> rfl
  | cons c cs ih =>
    obtain ⟨n, hn⟩ := Nat.exists_eq_succ_of_ne_zero (Nat.pos_iff_ne_zero.1 (Char.utf8Size_pos c))
    have hlen : byteLength (c :: cs) = n + byteLength cs + 1 := by simp [hn]; omega
    have hsub : n + byteLength cs + 1 - (n + 1) = byteLength cs := by omega
    rw [hlen]
    simp only [List.cons_append, splitAt?, hn]
    rw [if_pos (by omega), hsub, ih]
    rfl

/-- What a cut gives back is the text, and the cut lies at the length of the first part. -/
theorem eq_append_of_splitAt? {cs l r : List Char} {n : Nat} (h : splitAt? cs n = some (l, r)) :
    cs = l ++ r ∧ byteLength l = n := by
  induction cs generalizing n l with
  | nil =>
    cases n with
    | zero => simp [splitAt?] at h; simp [h]
    | succ n => simp [splitAt?] at h
  | cons c cs ih =>
    cases n with
    | zero => simp [splitAt?] at h; simp [h]
    | succ n =>
      simp only [splitAt?] at h
      split at h
      · obtain ⟨⟨l', r'⟩, hcut, heq⟩ := Option.map_eq_some_iff.1 h
        cases heq
        obtain ⟨rfl, hlen⟩ := ih hcut
        exact ⟨rfl, by simp [hlen]; omega⟩
      · cases h

/-- A slice is cut out of the text at its two offsets. -/
theorem slice?_eq_some {cs inner : List Char} {start stop : Nat} (h : slice? cs start stop = some inner) :
    ∃ before after, cs = before ++ inner ++ after ∧ byteLength before = start ∧
      byteLength (before ++ inner) = stop := by
  unfold slice? at h
  split at h
  · next hle =>
    simp only [Option.bind_eq_bind, Option.bind_eq_some_iff] at h
    obtain ⟨⟨before, tail⟩, hcut, ⟨inner', after⟩, hcut', heq⟩ := h
    cases heq
    obtain ⟨rfl, hb⟩ := eq_append_of_splitAt? hcut
    obtain ⟨rfl, hi⟩ := eq_append_of_splitAt? hcut'
    exact ⟨before, after, by simp, hb, by simp; omega⟩
  · cases h

/-- The slice between the ends of a middle part is that part. -/
theorem slice?_append (before inner after : List Char) :
    slice? (before ++ inner ++ after) (byteLength before) (byteLength before + byteLength inner) = some inner := by
  simp [slice?, splitAt?_append]

end StructuredText.Text
