import StructuredText.Proofs.Nodes.Unit

/-!
# What every tree looks like

Whatever a parse finds wrong, the tree that it gives has the shape the grammar asks for (`parse_wellShaped`). This does
not depend on where the tokens stand. The tokens of a text stand in order, and so the nodes of its tree are nested and
in order as well, but for a unit that is cut off behind its first word: its missing name stands at the next word, where
the unit has ended (`parse_nested`, `parse_not_nested`).
-/

namespace StructuredText

/-- In every tree, whatever the tokens are and whatever is reported about them, operators bind by their tiers and group
from the left, receivers and callees are accesses, targets and calls begin with a name, `THIS` or `SUPER`, bounds are no
ranges, and no list is empty that needs an item. -/
theorem parse_wellShaped {entry : Entry} {stream : Stream} {tree : Tree} (h : (parse entry stream).tree = some tree) :
    ∀ n : Node, n.Inside tree.root → n.WellShaped :=
  (parse_rooted h).shaped

/-- An assignment without its `;`. -/
def unclosedText : String := "y := a - b * c"

/-- The tree of the assignment. -/
def unclosedTree : Tree :=
  .statements ⟨[.assign (.name ⟨"y", ⟨0, 1⟩⟩)
    (.binary .sub (.name ⟨"a", ⟨5, 6⟩⟩)
      (.binary .mul (.name ⟨"b", ⟨9, 10⟩⟩) (.name ⟨"c", ⟨13, 14⟩⟩) ⟨9, 14⟩) ⟨5, 14⟩) ⟨0, 14⟩], ⟨0, 14⟩⟩

theorem parse_wellShaped_unclosed :
    (parse .statements (.ofText unclosedText)).tree = some unclosedTree ∧
    ∀ n : Node, n.Inside unclosedTree.root → n.WellShaped := by
  have htree : (parse .statements (.ofText unclosedText)).tree = some unclosedTree := rfl
  exact ⟨htree, parse_wellShaped htree⟩

/-- In every tree of a text, whatever is reported about the text, the nodes directly below a node lie inside it, and
those in a row follow each other without overlap. Only a unit that another one cuts off directly behind its first word
is not nested: it ends with that word, and the empty name that it is given stands at the other one. -/
theorem parse_nested {entry : Entry} {text : String} {tree : Tree}
    (h : (parse entry (.ofText text)).tree = some tree) :
    ∀ n : Node, n.Inside tree.root →
      n.Nested ∨ ∃ u, n = .unit u ∧ u.CutOff (Stream.ofText text).significant :=
  (parse_rooted h).fits (Stream.inOrder_ofText text)

/-- An algorithm that is cut off, and a method. -/
def cutOffText : String := "ALGORITHM METHOD m END_METHOD"

/-- The algorithm that is cut off. -/
def cutOffUnit : ProgramUnit := .algorithm ⟨⟨"", ⟨10, 10⟩⟩, ⟨[], []⟩, ⟨0, 9⟩⟩

/-- The tree of the algorithm and the method. -/
def cutOffTree : Tree := .source ⟨[cutOffUnit, .method ⟨⟨"m", ⟨17, 18⟩⟩, none, ⟨[], []⟩, ⟨10, 29⟩⟩], ⟨0, 29⟩⟩

theorem parse_nested_cutOff :
    (parse .source (.ofText cutOffText)).tree = some cutOffTree ∧
    ∀ n : Node, n.Inside cutOffTree.root →
      n.Nested ∨ ∃ u, n = .unit u ∧ u.CutOff (Stream.ofText cutOffText).significant := by
  have htree : (parse .source (.ofText cutOffText)).tree = some cutOffTree := rfl
  exact ⟨htree, parse_nested htree⟩

/-- The name of a unit that is cut off stands outside of the unit. -/
theorem parse_not_nested :
    (parse .source (.ofText cutOffText)).tree = some cutOffTree ∧
    ∃ n c : Node, n.Inside cutOffTree.root ∧ c ∈ n.children ∧ c.span = ⟨10, 10⟩ ∧ n.span = ⟨0, 9⟩ ∧ ¬c.Within n := by
  refine ⟨rfl, .unit cutOffUnit, .name ⟨"", ⟨10, 10⟩⟩, ?_, List.mem_cons_self, rfl, rfl, ?_⟩
  · exact .child List.mem_cons_self .refl
  · rintro ⟨-, hstop⟩
    exact absurd hstop (by decide)

end StructuredText
