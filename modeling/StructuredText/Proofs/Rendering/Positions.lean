import Mathlib.Data.List.DropRight
import StructuredText.Proofs.Lexing.Tiling
import StructuredText.Report.Position

/-!
# Positions count lines and characters

Halving finds where the items that pass a test end, if they stand in front of the others (`partitionPoint_append`). In
front of a place between two characters, as many lines begin as there are line feeds, and one more, and the last of them
begins where the characters behind the last line feed do (`lineStarts_getLast`). So the position of such a place counts
line feeds and characters, positions grow with the offsets, and no two places share one (`Position.ofOffset_counts`).
-/

namespace StructuredText

/-! ## Halving -/

section

variable {p : α → Bool} {as bs : List α}

theorem partitionBetween_append (ha : ∀ a ∈ as, p a = true) (hb : ∀ b ∈ bs, p b = false) {low high : Nat}
    (h : high ≤ (as ++ bs).toArray.size) (hlow : low ≤ as.length) (hhigh : as.length ≤ high) :
    partitionBetween p (as ++ bs).toArray low high h = as.length := by
  rw [partitionBetween]
  split
  · next hlt =>
    have hsize : high ≤ (as ++ bs).length := h
    have hmid : (low + high) / 2 < (as ++ bs).length := by omega
    have hitem : (as ++ bs).toArray[(low + high) / 2] = (as ++ bs)[(low + high) / 2] := rfl
    simp only [hitem]
    split
    · next hp =>
      -- the item passes the test, so it is not one of `bs`
      have hmem : (low + high) / 2 < as.length := by
        by_contra hle
        rw [List.getElem_append_right (by omega), hb _ (List.getElem_mem _)] at hp
        cases hp
      exact partitionBetween_append ha hb h hmem hhigh
    · next hp =>
      have hmem : as.length ≤ (low + high) / 2 := by
        by_contra hle
        rw [List.getElem_append_left (by omega), ha _ (List.getElem_mem _)] at hp
        exact hp rfl
      exact partitionBetween_append ha hb _ hlow hmem
  · omega
termination_by high - low

/-- Halving finds the place behind the items that pass a test, if no other item does. -/
theorem partitionPoint_append (ha : ∀ a ∈ as, p a = true) (hb : ∀ b ∈ bs, p b = false) :
    partitionPoint p (as ++ bs).toArray = as.length :=
  partitionBetween_append ha hb _ (Nat.zero_le _) (by simp)

end

/-! ## Where lines begin -/

variable {cs before after : List Char}

@[simp] theorem lineStartsFrom_append (offset : Nat) (cs ds : List Char) :
    lineStartsFrom offset (cs ++ ds) = lineStartsFrom offset cs ++ lineStartsFrom (offset + Text.byteLength cs) ds := by
  induction cs generalizing offset with
  | nil => simp [lineStartsFrom]
  | cons c cs ih => simp [lineStartsFrom, ih, Nat.add_assoc]

/-- A line begins behind the line feed that ends the line in front of it, and not behind the end of the text. -/
theorem mem_lineStartsFrom {offset start : Nat} (h : start ∈ lineStartsFrom offset cs) :
    offset < start ∧ start ≤ offset + Text.byteLength cs := by
  induction cs generalizing offset with
  | nil => cases h
  | cons c cs ih =>
    rw [Text.byteLength_cons]
    have hpos := Char.utf8Size_pos c
    rcases List.mem_append.1 h with hfeed | hrest
    · split at hfeed
      · rw [List.mem_singleton.1 hfeed]
        omega
      · cases hfeed
    · have := ih hrest
      omega

@[simp] theorem length_lineStartsFrom (offset : Nat) (cs : List Char) :
    (lineStartsFrom offset cs).length = cs.count '\n' := by
  induction cs generalizing offset with
  | nil => rfl
  | cons c cs ih =>
    rw [lineStartsFrom, List.length_append, ih, List.count_cons, Nat.add_comm]
    by_cases hc : c = '\n' <;> simp [hc]

/-- The characters behind the last line feed of a text. -/
def Text.lastLine (cs : List Char) : List Char := cs.rtakeWhile (· ≠ '\n')

/-- The last line of a text begins with the characters behind its last line feed. -/
theorem lineStarts_getLast (cs : List Char) :
    (0 :: lineStartsFrom 0 cs).getLast (List.cons_ne_nil _ _) + Text.byteLength (Text.lastLine cs) =
      Text.byteLength cs := by
  induction cs using List.reverseRecOn with
  | nil => rfl
  | append_singleton cs c ih =>
    by_cases hc : c = '\n'
    · subst hc
      have hsize : '\n'.utf8Size = 1 := rfl
      simp [lineStartsFrom, Text.lastLine, hsize]
    · have hline : Text.lastLine (cs ++ [c]) = Text.lastLine cs ++ [c] :=
        List.rtakeWhile_concat_pos _ _ _ (by simp [hc])
      have hstarts : lineStartsFrom 0 (cs ++ [c]) = lineStartsFrom 0 cs := by simp [lineStartsFrom, hc]
      simp only [hstarts, hline, Text.byteLength_append]
      omega

/-! ## Positions -/

/-- A position stands before another one if it is on an earlier line, or before it on the same line. -/
instance : LT Position := ⟨fun p q => p.line < q.line ∨ p.line = q.line ∧ p.column < q.column⟩

theorem Position.lt_iff {p q : Position} : p < q ↔ p.line < q.line ∨ p.line = q.line ∧ p.column < q.column := Iff.rfl

theorem Position.lt_irrefl (p : Position) : ¬p < p := by
  rw [lt_iff]
  omega

namespace LineIndex

/-- The lines that begin up to a place, and those that begin behind it. -/
theorem starts_append (before after : List Char) :
    (ofSource (before ++ after)).starts =
      ((0 :: lineStartsFrom 0 before) ++ lineStartsFrom (Text.byteLength before) after).toArray := by
  simp [ofSource]

/-- As many lines begin up to a place as there are line feeds in front of it, and one more. -/
theorem partitionPoint_starts (before after : List Char) :
    partitionPoint (· ≤ Text.byteLength before) (ofSource (before ++ after)).starts = before.count '\n' + 1 := by
  rw [starts_append, partitionPoint_append]
  · simp
  · refine List.forall_mem_cons.2 ⟨by simp, fun start h => ?_⟩
    have := (mem_lineStartsFrom h).2
    simpa using this
  · intro start h
    have := (mem_lineStartsFrom h).1
    simpa using this

/-- The line that holds a place begins with the characters behind the last line feed in front of the place. -/
theorem starts_getD (before after : List Char) :
    (ofSource (before ++ after)).starts.getD (before.count '\n') 0 + Text.byteLength (Text.lastLine before) =
      Text.byteLength before := by
  have hlt : before.count '\n' < (0 :: lineStartsFrom 0 before).length := by simp
  have hget : (ofSource (before ++ after)).starts.getD (before.count '\n') 0 =
      (0 :: lineStartsFrom 0 before)[before.count '\n'] := by
    rw [starts_append, Array.getD_eq_getD_getElem?, List.getElem?_toArray, List.getElem?_append_left hlt,
      List.getElem?_eq_getElem hlt, Option.getD_some]
  rw [hget, ← lineStarts_getLast before, List.getLast_eq_getElem]
  simp

end LineIndex

namespace Position

/-- The position of a place between two characters counts the line feeds in front of it and the characters behind the
last one of them. -/
theorem ofOffset_append (before after : List Char) :
    ofOffset (before ++ after) (Text.byteLength before) =
      ⟨1 + before.count '\n', 1 + (Text.lastLine before).length⟩ := by
  have hmin : min (Text.byteLength before) (Text.byteLength (before ++ after)) = Text.byteLength before := by simp
  have hstart := LineIndex.starts_getD before after
  obtain ⟨front, hfront⟩ := List.rtakeWhile_suffix (· ≠ '\n') before
  rw [← Text.lastLine] at hfront
  have hlength : Text.byteLength front + Text.byteLength (Text.lastLine before) = Text.byteLength before := by
    rw [← Text.byteLength_append, hfront]
  have hslice : Text.slice? (before ++ after) (Text.byteLength front) (Text.byteLength before) =
      some (Text.lastLine before) := by
    rw [← hlength]
    conv => enter [1, 1]; rw [← hfront]
    exact Text.slice?_append ..
  have heq : (LineIndex.ofSource (before ++ after)).starts.getD (before.count '\n') 0 = Text.byteLength front := by
    omega
  have hsource : (LineIndex.ofSource (before ++ after)).source = before ++ after := rfl
  simp only [ofOffset, LineIndex.position, hsource, hmin, LineIndex.partitionPoint_starts, Nat.add_sub_cancel, heq,
    hslice, Nat.add_comm]

/-- Positions grow from place to place. -/
theorem ofOffset_lt_append (before : List Char) (c : Char) (cs after : List Char) :
    ofOffset (before ++ (c :: cs) ++ after) (Text.byteLength before) <
      ofOffset (before ++ (c :: cs) ++ after) (Text.byteLength (before ++ (c :: cs))) := by
  rw [ofOffset_append (before ++ (c :: cs)) after, List.append_assoc, ofOffset_append before, lt_iff,
    List.count_append]
  by_cases hfeed : '\n' ∈ c :: cs
  · have := List.count_pos_iff.2 hfeed
    left
    dsimp only
    omega
  · have hline : Text.lastLine (before ++ (c :: cs)) = Text.lastLine before ++ (c :: cs) := by
      rw [Text.lastLine, List.rtakeWhile, List.reverse_append, List.takeWhile_append_of_pos, List.reverse_append,
        List.reverse_reverse]
      · rfl
      · intro d hd
        have hne : d ≠ '\n' := fun heq => hfeed (heq ▸ List.mem_reverse.1 hd)
        simpa using hne
    right
    rw [List.count_eq_zero.2 hfeed, hline, List.length_append]
    simp

theorem ofOffset_of_le {cs : List Char} {offset : Nat} (h : Text.byteLength cs ≤ offset) :
    ofOffset cs offset = ofOffset cs (Text.byteLength cs) := by
  have hsource : (LineIndex.ofSource cs).source = cs := rfl
  simp only [ofOffset, LineIndex.position, hsource, Nat.min_eq_right h, Nat.min_self]

theorem exists_append_of_isValid {text : String} {n : Nat} (h : String.Pos.Raw.IsValid text ⟨n⟩) :
    ∃ before after, text.toList = before ++ after ∧ Text.byteLength before = n := by
  obtain ⟨before, after, rfl, hn⟩ := String.Pos.Raw.isValid_iff_exists_append.1 h
  refine ⟨before.toList, after.toList, String.toList_append, ?_⟩
  rw [Text.byteLength_toList]
  exact (congrArg String.Pos.Raw.byteIdx hn).symm

theorem ofOffset_lt {text : String} {m n : Nat} (hm : String.Pos.Raw.IsValid text ⟨m⟩)
    (hn : String.Pos.Raw.IsValid text ⟨n⟩) (hlt : m < n) : ofOffset text.toList m < ofOffset text.toList n := by
  obtain ⟨before, rest, htext, rfl⟩ := exists_append_of_isValid hm
  obtain ⟨before', after, htext', rfl⟩ := exists_append_of_isValid hn
  have hprefix : before <+: text.toList := ⟨rest, htext.symm⟩
  have hprefix' : before' <+: text.toList := ⟨after, htext'.symm⟩
  -- of two texts in front of places the one with fewer bytes is the beginning of the other one
  rcases List.prefix_or_prefix_of_prefix hprefix hprefix' with ⟨_ | ⟨c, cs⟩, rfl⟩ | ⟨mid, rfl⟩
  · simp at hlt
  · rw [htext']
    exact ofOffset_lt_append before c cs after
  · rw [Text.byteLength_append] at hlt
    omega

/-- The position of a place between two characters is the number of line feeds in front of it and the number of
characters behind the last one of them, both counted from one. So positions grow strictly from place to place, and no
two places share one. Offsets past the end have the position of the end. -/
theorem ofOffset_counts (text : String) :
    (∀ before after : String, text = before ++ after →
      ofOffset text.toList before.utf8ByteSize =
        ⟨1 + before.toList.count '\n', 1 + (Text.lastLine before.toList).length⟩) ∧
    (∀ m n : Nat, String.Pos.Raw.IsValid text ⟨m⟩ → String.Pos.Raw.IsValid text ⟨n⟩ →
      (m < n → ofOffset text.toList m < ofOffset text.toList n) ∧
      (ofOffset text.toList m = ofOffset text.toList n → m = n)) ∧
    ∀ offset, text.utf8ByteSize ≤ offset → ofOffset text.toList offset = ofOffset text.toList text.utf8ByteSize := by
  refine ⟨fun before after htext => ?_, fun m n hm hn => ⟨ofOffset_lt hm hn, fun heq => ?_⟩, fun offset h => ?_⟩
  · rw [htext, String.toList_append, ← Text.byteLength_toList]
    exact ofOffset_append before.toList after.toList
  · rcases Nat.lt_trichotomy m n with hlt | rfl | hlt
    · exact absurd (ofOffset_lt hm hn hlt) (heq ▸ Position.lt_irrefl _)
    · rfl
    · exact absurd (ofOffset_lt hn hm hlt) (heq ▸ Position.lt_irrefl _)
  · rw [← Text.byteLength_toList] at h ⊢
    exact ofOffset_of_le h

/-- Behind a letter of two bytes on the fourth line. -/
theorem ofOffset_counts_wide :
    "ab\ncd\n\nä:x" = "ab\ncd\n\nä" ++ ":x" ∧ ofOffset "ab\ncd\n\nä:x".toList 9 = ⟨4, 2⟩ :=
  ⟨rfl, (ofOffset_counts "ab\ncd\n\nä:x").1 "ab\ncd\n\nä" ":x" rfl⟩

end Position

end StructuredText
