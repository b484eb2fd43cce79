/-!
# Operators

Binary operators fall into nine tiers; an operator of a later tier binds tighter, and the operators of one tier
associate to the left.
-/

namespace StructuredText

/-- The tiers of binary operators, from the loosest to the tightest. -/
inductive BinaryTier where
  | subrange | or | xor | and | equality | comparison | addSub | mulDivMod | power
deriving DecidableEq, Inhabited

namespace BinaryTier

/-- The place of the tier, the loosest being 0. -/
def level : BinaryTier → Nat
  | subrange => 0 | or => 1 | xor => 2 | and => 3 | equality => 4 | comparison => 5 | addSub => 6 | mulDivMod => 7
  | power => 8

/-- The name of the tier in listings. -/
def label : BinaryTier → String
  | subrange => "Subrange" | or => "Or" | xor => "Xor" | and => "And" | equality => "Equality"
  | comparison => "Comparison" | addSub => "AddSub" | mulDivMod => "MulDivMod" | power => "Power"

end BinaryTier

/-- The binary operators. -/
inductive BinaryOp where
  | range | or | xor | and | eq | neq | lt | ltEq | gt | gtEq | add | sub | mul | div | mod | power
deriving DecidableEq, Inhabited

namespace BinaryOp

/-- The tier of the operator. -/
def tier : BinaryOp → BinaryTier
  | range => .subrange
  | or => .or
  | xor => .xor
  | and => .and
  | eq | neq => .equality
  | lt | ltEq | gt | gtEq => .comparison
  | add | sub => .addSub
  | mul | div | mod => .mulDivMod
  | power => .power

/-- How the operator is written. -/
def spelling : BinaryOp → String
  | range => ".." | or => "OR" | xor => "XOR" | and => "AND" | eq => "=" | neq => "<>"
  | lt => "<" | ltEq => "<=" | gt => ">" | gtEq => ">="
  | add => "+" | sub => "-" | mul => "*" | div => "/" | mod => "MOD" | power => "**"

/-- The name of the operator in listings. -/
def label : BinaryOp → String
  | range => "Range" | or => "Or" | xor => "Xor" | and => "And" | eq => "Eq" | neq => "Neq"
  | lt => "Lt" | ltEq => "LtEq" | gt => "Gt" | gtEq => "GtEq"
  | add => "Add" | sub => "Sub" | mul => "Mul" | div => "Div" | mod => "Mod" | power => "Power"

end BinaryOp

/-- The unary operators. -/
inductive UnaryOp where
  | neg | plus | not
deriving DecidableEq, Inhabited

namespace UnaryOp

/-- How the operator is written. -/
def spelling : UnaryOp → String
  | neg => "-" | plus => "+" | not => "NOT"

/-- The name of the operator in listings. -/
def label : UnaryOp → String
  | neg => "Neg" | plus => "Plus" | not => "Not"

end UnaryOp

end StructuredText
