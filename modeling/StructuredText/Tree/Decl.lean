import StructuredText.Tree.Expr

/-!
# Declarations

A block declares variables of one kind. A variable has a type, possibly an array of it, and may have a location, a
length and an initial value.
-/

namespace StructuredText

/-! ## Initial values -/

mutual

/-- The value behind the `:=` of a declaration. -/
inductive Initializer where
  /-- An expression. -/
  | value (value : Expr)
  /-- `[a, b, 3(c)]` -/
  | array (elements : List ArrayElement) (span : Span)
  /-- `(field := value, …)` -/
  | record (fields : List FieldInit) (span : Span)

/-- An element of an array's initial value. -/
inductive ArrayElement where
  /-- One value. -/
  | single (value : Initializer)
  /-- `count(values)`, the values as often as the count says. -/
  | repeated (count : Literal) (values : List Initializer) (span : Span)

/-- `field := value` in the initial value of a record. -/
inductive FieldInit where
  | mk (field : Name) (value : Initializer) (span : Span)

end

instance : Inhabited Initializer := ⟨.value default⟩

/-- The span of the whole initial value. -/
def Initializer.span : Initializer → Span
  | value e => e.span
  | array _ s | record _ s => s

/-- The span of the whole element. -/
def ArrayElement.span : ArrayElement → Span
  | single v => v.span
  | repeated _ _ s => s

/-- The span of the whole field. -/
def FieldInit.span : FieldInit → Span
  | mk _ _ s => s

/-! ## Variables -/

/-- `lower..upper` -/
structure ArrayBounds where
  lower : Expr
  upper : Expr
  span : Span
deriving Inhabited

/-- The dimensions of an array. -/
inductive ArrayShape where
  /-- `ARRAY [l..u, …] OF` -/
  | bounded (bounds : List ArrayBounds)
  /-- `ARRAY [*, …] OF`, with the number of stars -/
  | unbounded (count : Nat)
deriving Inhabited

/-- The number of dimensions. -/
def ArrayShape.dimensions : ArrayShape → Nat
  | bounded bounds => bounds.length
  | unbounded count => count

/-- `name [AT location] : [ARRAY [..] OF] type [[length]] [:= value];` -/
structure VarDecl where
  name : Name
  location : Option Name
  shape : Option ArrayShape
  type : TypeRef
  maxLength : Option Expr
  initial : Option Initializer
  span : Span
deriving Inhabited

/-- The kinds of variable blocks. -/
inductive BlockKind where
  | temp | input | output | inOut
deriving DecidableEq, Inhabited

namespace BlockKind

/-- The word that opens a block of the kind. -/
def spelling : BlockKind → String
  | temp => "VAR_TEMP" | input => "VAR_INPUT" | output => "VAR_OUTPUT" | inOut => "VAR_IN_OUT"

/-- The name of the kind in listings. -/
def label : BlockKind → String
  | temp => "Temp" | input => "Input" | output => "Output" | inOut => "InOut"

end BlockKind

/-- `VAR_… [CONSTANT] … END_VAR` -/
structure VarBlock where
  kind : BlockKind
  isConstant : Bool
  decls : List VarDecl
  span : Span
deriving Inhabited

end StructuredText
