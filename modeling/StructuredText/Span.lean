/-!
# Spans

A span is a range of byte offsets into a text: `start` is its first byte and `stop` the byte after its last one.
-/

namespace StructuredText

/-- A range of byte offsets, `stop` excluded. -/
structure Span where
  start : Nat
  stop : Nat
deriving DecidableEq, Inhabited

namespace Span

/-- The span at `offset` that covers nothing. -/
def empty (offset : Nat) : Span := ⟨offset, offset⟩

/-- The smallest span around both. -/
def cover (a b : Span) : Span := ⟨min a.start b.start, max a.stop b.stop⟩

/-- The span moved `n` bytes to the right. -/
def shift (n : Nat) (s : Span) : Span := ⟨s.start + n, s.stop + n⟩

/-- A span does not end before it starts. -/
def Ordered (s : Span) : Prop := s.start ≤ s.stop

instance : DecidablePred Ordered := fun s => inferInstanceAs (Decidable (s.start ≤ s.stop))

/-- The written form `start..stop`. -/
def render (s : Span) : String := s!"{s.start}..{s.stop}"

theorem Ordered.empty (offset : Nat) : (Span.empty offset).Ordered := Nat.le_refl offset

theorem Ordered.cover {a b : Span} (ha : a.Ordered) : (a.cover b).Ordered :=
  Nat.le_trans (Nat.min_le_left _ _) (Nat.le_trans ha (Nat.le_max_left _ _))

end Span

end StructuredText
