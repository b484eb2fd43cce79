import StructuredText.Parse
import StructuredText.Proofs.Lexing.Letters

/-!
# Trees in capitals

What is read from a text in capitals is not what is read from the text: names and values are kept as they are written.
But it is the same in capitals, where the letters of all names, values and found words are put in upper case
(`Cased.capitals`), and everything else is left as it is. Two things are `Alike` if they are the same in capitals. What
is put together of parts that are alike is alike, whatever the constructor.
-/

namespace StructuredText

/-! ## Trees -/

/-- The name in capitals. -/
def Name.capitals (n : Name) : Name := ⟨Text.upperString n.text, n.span⟩

/-- The type with all names in capitals. -/
def TypeRef.capitals : TypeRef → TypeRef
  | elementary type span => .elementary type span
  | named name => .named name.capitals
  | reference target span => .reference target.capitals span

/-- The literal with its value and type name in capitals. -/
def Literal.capitals (l : Literal) : Literal :=
  ⟨l.kind, l.typeName.map Name.capitals, Text.upperString l.value, l.span⟩

/-- The selector in capitals. -/
def Selector.capitals (s : Selector) : Selector := ⟨Text.upperString s.digits, s.span⟩

mutual

/-- The expression with all names and values in capitals. -/
def Expr.capitals : Expr → Expr
  | .binary op left right span => .binary op left.capitals right.capitals span
  | .unary op operand span => .unary op operand.capitals span
  | .member receiver name span => .member receiver.capitals name.capitals span
  | .part receiver width selector span => .part receiver.capitals width selector.capitals span
  | .partAt receiver width index span => .partAt receiver.capitals width index.capitals span
  | .index receiver indices span => .index receiver.capitals (Expr.capitalsAll indices) span
  | .call callee args span => .call callee.capitals (Arg.capitalsAll args) span
  | .name name => .name name.capitals
  | .this span => .this span
  | .super span => .super span
  | .paren inner span => .paren inner.capitals span
  | .literal literal => .literal literal.capitals

/-- Each expression with all names and values in capitals. -/
def Expr.capitalsAll : List Expr → List Expr
  | [] => []
  | e :: es => e.capitals :: Expr.capitalsAll es

/-- The argument with all names and values in capitals. -/
def Arg.capitals : Arg → Arg
  | .positional value => .positional value.capitals
  | .input param value span => .input param.capitals value.capitals span
  | .output param negated value span => .output param.capitals negated value.capitals span

/-- Each argument with all names and values in capitals. -/
def Arg.capitalsAll : List Arg → List Arg
  | [] => []
  | a :: as => a.capitals :: Arg.capitalsAll as

end

mutual

/-- The statement with all names and values in capitals. -/
def Stmt.capitals : Stmt → Stmt
  | .ifThen condition thenBody elsifs elseBody span =>
    .ifThen condition.capitals (Stmt.capitalsAll thenBody) (ElsifBranch.capitalsAll elsifs)
      (Stmt.capitalsElse elseBody) span
  | .select selector arms elseBody span =>
    .select selector.capitals (CaseArm.capitalsAll arms) (Stmt.capitalsElse elseBody) span
  | .forLoop var first last step body span =>
    .forLoop var.capitals first.capitals last.capitals (step.map Expr.capitals) (Stmt.capitalsAll body) span
  | .whileLoop condition body span => .whileLoop condition.capitals (Stmt.capitalsAll body) span
  | .repeatLoop body condition span => .repeatLoop (Stmt.capitalsAll body) condition.capitals span
  | .assign target value span => .assign target.capitals value.capitals span
  | .call callee span => .call callee.capitals span
  | .leave span => .leave span
  | .next span => .next span
  | .exit span => .exit span
  | .nop span => .nop span

/-- Each statement with all names and values in capitals. -/
def Stmt.capitalsAll : List Stmt → List Stmt
  | [] => []
  | st :: sts => st.capitals :: Stmt.capitalsAll sts

/-- The statements behind an `ELSE` with all names and values in capitals. -/
def Stmt.capitalsElse : Option (List Stmt) → Option (List Stmt)
  | none => none
  | some sts => some (Stmt.capitalsAll sts)

/-- The branch with all names and values in capitals. -/
def ElsifBranch.capitals : ElsifBranch → ElsifBranch
  | .mk condition body span => .mk condition.capitals (Stmt.capitalsAll body) span

/-- Each branch with all names and values in capitals. -/
def ElsifBranch.capitalsAll : List ElsifBranch → List ElsifBranch
  | [] => []
  | b :: bs => b.capitals :: ElsifBranch.capitalsAll bs

/-- The arm with all names and values in capitals. -/
def CaseArm.capitals : CaseArm → CaseArm
  | .mk labels body span => .mk (labels.map Expr.capitals) (Stmt.capitalsAll body) span

/-- Each arm with all names and values in capitals. -/
def CaseArm.capitalsAll : List CaseArm → List CaseArm
  | [] => []
  | a :: as => a.capitals :: CaseArm.capitalsAll as

end

mutual

/-- The initial value with all names and values in capitals. -/
def Initializer.capitals : Initializer → Initializer
  | .value e => .value e.capitals
  | .array elements span => .array (ArrayElement.capitalsAll elements) span
  | .record fields span => .record (FieldInit.capitalsAll fields) span

/-- Each initial value with all names and values in capitals. -/
def Initializer.capitalsAll : List Initializer → List Initializer
  | [] => []
  | v :: vs => v.capitals :: Initializer.capitalsAll vs

/-- The element with all names and values in capitals. -/
def ArrayElement.capitals : ArrayElement → ArrayElement
  | .single value => .single value.capitals
  | .repeated count values span => .repeated count.capitals (Initializer.capitalsAll values) span

/-- Each element with all names and values in capitals. -/
def ArrayElement.capitalsAll : List ArrayElement → List ArrayElement
  | [] => []
  | e :: es => e.capitals :: ArrayElement.capitalsAll es

/-- The field with all names and values in capitals. -/
def FieldInit.capitals : FieldInit → FieldInit
  | .mk field value span => .mk field.capitals value.capitals span

/-- Each field with all names and values in capitals. -/
def FieldInit.capitalsAll : List FieldInit → List FieldInit
  | [] => []
  | f :: fs => f.capitals :: FieldInit.capitalsAll fs

end

/-- The bounds with all names and values in capitals. -/
def ArrayBounds.capitals (b : ArrayBounds) : ArrayBounds := ⟨b.lower.capitals, b.upper.capitals, b.span⟩

/-- The dimensions with all names and values in capitals. -/
def ArrayShape.capitals : ArrayShape → ArrayShape
  | bounded bounds => .bounded (bounds.map ArrayBounds.capitals)
  | unbounded count => .unbounded count

/-- The declaration with all names and values in capitals. -/
def VarDecl.capitals (d : VarDecl) : VarDecl :=
  ⟨d.name.capitals, d.location.map Name.capitals, d.shape.map ArrayShape.capitals, d.type.capitals,
    d.maxLength.map Expr.capitals, d.initial.map Initializer.capitals, d.span⟩

/-- The block with all names and values in capitals. -/
def VarBlock.capitals (b : VarBlock) : VarBlock := ⟨b.kind, b.isConstant, b.decls.map VarDecl.capitals, b.span⟩

/-- The body with all names and values in capitals. -/
def Body.capitals (b : Body) : Body := ⟨b.blocks.map VarBlock.capitals, b.statements.map Stmt.capitals⟩

/-- The algorithm with all names and values in capitals. -/
def Algorithm.capitals (a : Algorithm) : Algorithm := ⟨a.name.capitals, a.body.capitals, a.span⟩

/-- The method with all names and values in capitals. -/
def Method.capitals (m : Method) : Method :=
  ⟨m.name.capitals, m.returnType.map TypeRef.capitals, m.body.capitals, m.span⟩

/-- The unit with all names and values in capitals. -/
def ProgramUnit.capitals : ProgramUnit → ProgramUnit
  | algorithm a => .algorithm a.capitals
  | method m => .method m.capitals

/-- The file with all names and values in capitals. -/
def SourceFile.capitals (f : SourceFile) : SourceFile := ⟨f.units.map ProgramUnit.capitals, f.span⟩

/-- The statements with all names and values in capitals. -/
def StatementList.capitals (l : StatementList) : StatementList := ⟨l.statements.map Stmt.capitals, l.span⟩

/-- The initial value with all names and values in capitals. -/
def InitializerSource.capitals (i : InitializerSource) : InitializerSource :=
  ⟨i.target.map Name.capitals, i.value.capitals, i.span⟩

/-- The tree with all names and values in capitals. -/
def Tree.capitals : Tree → Tree
  | source file => .source file.capitals
  | algorithm a => .algorithm a.capitals
  | method m => .method m.capitals
  | statements list => .statements list.capitals
  | expression e => .expression e.capitals
  | initializer i => .initializer i.capitals

/-! ## Problems -/

/-- The problem with what was found in capitals. -/
def Problem.capitals : Problem → Problem
  | unexpected what found => .unexpected what (Text.upperString found)
  | malformedLiteral text fault => .malformedLiteral (Text.upperString text) fault
  | stray found => .stray (Text.upperString found)
  | strayOutside found => .strayOutside (Text.upperString found)
  | problem => problem

/-- The diagnostic with its message in capitals. -/
def Diagnostic.capitals (d : Diagnostic) : Diagnostic := { d with message := Text.upperString d.message }

/-- The report with what was found in capitals. -/
def Report.capitals (r : Report) : Report := ⟨r.problem.capitals, r.span⟩

/-! ## Streams -/

/-- The token with its text in capitals. -/
def Lexeme.capitals (t : Lexeme) : Lexeme := ⟨t.kind, t.span, Text.upperString t.text⟩

/-- The state of a parse of the text in capitals. -/
def ParserState.capitals (s : ParserState) : ParserState :=
  ⟨Text.upper s.source, s.stop, s.rest.map Lexeme.capitals, s.lastStop, s.reports.map Report.capitals⟩

/-- The part of a body with all names and values in capitals. -/
def BodyPart.capitals : BodyPart → BodyPart
  | block b => .block b.capitals
  | statements sts => .statements (sts.map Stmt.capitals)

/-! ## Capitals of any data -/

/-- Data that may have letters in it. -/
class Cased (α : Type) where
  /-- The same in capitals. -/
  capitals : α → α

open Cased (capitals)

instance : Cased Char := ⟨Char.toUpper⟩
instance : Cased String := ⟨Text.upperString⟩
instance : Cased Nat := ⟨id⟩
instance : Cased Bool := ⟨id⟩
instance : Cased PUnit := ⟨id⟩
instance : Cased Span := ⟨id⟩
instance : Cased TokenKind := ⟨id⟩
instance : Cased BlockKind := ⟨id⟩
instance [Cased α] : Cased (Option α) := ⟨Option.map capitals⟩
instance [Cased α] : Cased (List α) := ⟨List.map capitals⟩
instance : Cased Name := ⟨Name.capitals⟩
instance : Cased TypeRef := ⟨TypeRef.capitals⟩
instance : Cased Literal := ⟨Literal.capitals⟩
instance : Cased Selector := ⟨Selector.capitals⟩
instance : Cased Expr := ⟨Expr.capitals⟩
instance : Cased Arg := ⟨Arg.capitals⟩
instance : Cased Stmt := ⟨Stmt.capitals⟩
instance : Cased ElsifBranch := ⟨ElsifBranch.capitals⟩
instance : Cased CaseArm := ⟨CaseArm.capitals⟩
instance : Cased Initializer := ⟨Initializer.capitals⟩
instance : Cased ArrayElement := ⟨ArrayElement.capitals⟩
instance : Cased FieldInit := ⟨FieldInit.capitals⟩
instance : Cased ArrayBounds := ⟨ArrayBounds.capitals⟩
instance : Cased ArrayShape := ⟨ArrayShape.capitals⟩
instance : Cased VarDecl := ⟨VarDecl.capitals⟩
instance : Cased VarBlock := ⟨VarBlock.capitals⟩
instance : Cased Body := ⟨Body.capitals⟩
instance : Cased Algorithm := ⟨Algorithm.capitals⟩
instance : Cased Method := ⟨Method.capitals⟩
instance : Cased ProgramUnit := ⟨ProgramUnit.capitals⟩
instance : Cased SourceFile := ⟨SourceFile.capitals⟩
instance : Cased StatementList := ⟨StatementList.capitals⟩
instance : Cased InitializerSource := ⟨InitializerSource.capitals⟩
instance : Cased Tree := ⟨Tree.capitals⟩
instance : Cased BodyPart := ⟨BodyPart.capitals⟩
instance : Cased Lexeme := ⟨Lexeme.capitals⟩
instance : Cased Problem := ⟨Problem.capitals⟩
instance : Cased ParserState := ⟨ParserState.capitals⟩

instance [Cased α] : Cased (Parser.Turn α) where
  capitals
    | .more items => .more (capitals items)
    | .last items => .last (capitals items)

instance [Cased α] : Cased (EStateM.Result Abort ParserState α) where
  capitals
    | .ok a s => .ok (capitals a) (capitals s)
    | .error e s => .error e (capitals s)

/-! ### Rows of parts -/

/-- A function that takes a row part by part and puts each part in capitals. -/
theorem eq_capitals [Cased α] {all : List α → List α} (hnil : all [] = [])
    (hcons : ∀ a as, all (a :: as) = capitals a :: all as) (as : List α) : all as = capitals as := by
  induction as with
  | nil => exact hnil
  | cons a as ih =>
    rw [hcons, ih]
    rfl

theorem capitals_exprs : ∀ parts, Expr.capitalsAll parts = capitals parts := eq_capitals rfl fun _ _ => rfl

theorem capitals_args : ∀ parts, Arg.capitalsAll parts = capitals parts := eq_capitals rfl fun _ _ => rfl

theorem capitals_statements : ∀ parts, Stmt.capitalsAll parts = capitals parts := eq_capitals rfl fun _ _ => rfl

theorem capitals_branches : ∀ parts, ElsifBranch.capitalsAll parts = capitals parts := eq_capitals rfl fun _ _ => rfl

theorem capitals_arms : ∀ parts, CaseArm.capitalsAll parts = capitals parts := eq_capitals rfl fun _ _ => rfl

theorem capitals_initials : ∀ parts, Initializer.capitalsAll parts = capitals parts := eq_capitals rfl fun _ _ => rfl

theorem capitals_elements : ∀ parts, ArrayElement.capitalsAll parts = capitals parts := eq_capitals rfl fun _ _ => rfl

theorem capitals_fields : ∀ parts, FieldInit.capitalsAll parts = capitals parts := eq_capitals rfl fun _ _ => rfl

theorem capitals_else : ∀ sts : Option (List Stmt), Stmt.capitalsElse sts = capitals sts
  | none => rfl
  | some sts => congrArg some (capitals_statements sts)

/-! ## Parts that are alike -/

/-- The two are the same in capitals. -/
class Alike [Cased α] (a b : α) : Prop where
  capitals_eq : capitals a = capitals b

/-- Data without letters. -/
class Letterless (α : Type) [Cased α] : Prop where
  capitals_eq (a : α) : capitals a = a

instance : Letterless Nat := ⟨fun _ => rfl⟩
instance : Letterless Bool := ⟨fun _ => rfl⟩
instance : Letterless PUnit := ⟨fun _ => rfl⟩
instance : Letterless Span := ⟨fun _ => rfl⟩
instance : Letterless TokenKind := ⟨fun _ => rfl⟩
instance : Letterless BlockKind := ⟨fun _ => rfl⟩

section

variable [Cased α] [Cased β] [Cased γ] [Cased δ] [Cased ε] [Cased ζ]
  {a a' : α} {b b' : β} {c c' : γ} {d d' : δ} {e e' : ε}

theorem capitals_congr (a a' : α) [h : Alike a a'] : capitals a = capitals a' := h.capitals_eq

/-- Without letters, only the same things are alike. -/
theorem eq_of_alike [Letterless α] (a a' : α) [Alike a a'] : a = a' := by
  rw [← Letterless.capitals_eq a, capitals_congr a a', Letterless.capitals_eq]

instance (priority := low) alike_refl (a : α) : Alike a a := ⟨rfl⟩

/-! ### Functions that keep capitals -/

theorem Alike.map (f : α → β) (hf : ∀ a, capitals (f a) = f (capitals a)) [Alike a a'] : Alike (f a) (f a') :=
  ⟨by rw [hf, hf, capitals_congr a a']⟩

theorem Alike.map₂ (f : α → β → γ) (hf : ∀ a b, capitals (f a b) = f (capitals a) (capitals b)) [Alike a a']
    [Alike b b'] : Alike (f a b) (f a' b') :=
  ⟨by rw [hf, hf, capitals_congr a a', capitals_congr b b']⟩

theorem Alike.map₃ (f : α → β → γ → δ) (hf : ∀ a b c, capitals (f a b c) = f (capitals a) (capitals b) (capitals c))
    [Alike a a'] [Alike b b'] [Alike c c'] : Alike (f a b c) (f a' b' c') :=
  ⟨by rw [hf, hf, capitals_congr a a', capitals_congr b b', capitals_congr c c']⟩

theorem Alike.map₄ (f : α → β → γ → δ → ε)
    (hf : ∀ a b c d, capitals (f a b c d) = f (capitals a) (capitals b) (capitals c) (capitals d))
    [Alike a a'] [Alike b b'] [Alike c c'] [Alike d d'] : Alike (f a b c d) (f a' b' c' d') :=
  ⟨by rw [hf, hf, capitals_congr a a', capitals_congr b b', capitals_congr c c', capitals_congr d d']⟩

theorem Alike.map₅ (f : α → β → γ → δ → ε → ζ)
    (hf : ∀ a b c d e, capitals (f a b c d e) = f (capitals a) (capitals b) (capitals c) (capitals d) (capitals e))
    [Alike a a'] [Alike b b'] [Alike c c'] [Alike d d'] [Alike e e'] : Alike (f a b c d e) (f a' b' c' d' e') :=
  ⟨by
    rw [hf, hf, capitals_congr a a', capitals_congr b b', capitals_congr c c', capitals_congr d d',
      capitals_congr e e']⟩

/-! ### Lists and options -/

variable {as as' bs bs' : List α}

instance [Alike a a'] : Alike (some a) (some a') := .map some fun _ => rfl

instance {o o' : Option α} [Alike o o'] [Alike a a'] : Alike (o.getD a) (o'.getD a') :=
  .map₂ Option.getD fun o _ => by cases o <;> rfl

instance {o o' : Option α} [Alike o o'] : Alike o.isSome o'.isSome := .map Option.isSome fun o => by cases o <;> rfl

instance [Alike a a'] [Alike as as'] : Alike (a :: as) (a' :: as') := .map₂ List.cons fun _ _ => rfl

instance [Alike as as'] [Alike bs bs'] : Alike (as ++ bs) (as' ++ bs') := .map₂ (· ++ ·) fun _ _ => List.map_append

instance [Alike as as'] : Alike as.length as'.length := .map List.length fun _ => (List.length_map _).symm

end

/-! ### Names and spans -/

@[simp] theorem Text.upperString_append (x y : String) : upperString (x ++ y) = upperString x ++ upperString y := by
  simp [upperString, ← String.ofList_append]

section

variable {x x' y y' : String} {u u' v v' : Span} {n n' : Name}

instance [Alike x x'] [Alike y y'] : Alike (x ++ y) (x' ++ y') := .map₂ (· ++ ·) Text.upperString_append

instance [Alike u u'] [Alike v v'] : Alike (u.cover v) (u'.cover v') := .map₂ Span.cover fun _ _ => rfl

instance [Alike x x'] [Alike u u'] : Alike (Name.mk x u) (Name.mk x' u') := .map₂ Name.mk fun _ _ => rfl

instance [Alike n n'] : Alike n.text n'.text := .map Name.text fun _ => rfl

instance [Alike n n'] : Alike n.span n'.span := .map Name.span fun _ => rfl

end

/-! ### Expressions -/

section

variable {e e' l l' r r' : Expr} {es es' : List Expr} {as as' : List Arg} {a a' : Arg} {n n' : Name} {u u' : Span}
  {k k' : Selector} {x x' : String} {t t' : Literal}

instance [Alike l l'] [Alike r r'] [Alike u u'] (op : BinaryOp) : Alike (Expr.binary op l r u) (.binary op l' r' u') :=
  .map₃ (Expr.binary op) fun _ _ _ => rfl

instance [Alike e e'] [Alike u u'] (op : UnaryOp) : Alike (Expr.unary op e u) (.unary op e' u') :=
  .map₂ (Expr.unary op) fun _ _ => rfl

instance [Alike e e'] [Alike n n'] [Alike u u'] : Alike (Expr.member e n u) (.member e' n' u') :=
  .map₃ Expr.member fun _ _ _ => rfl

instance [Alike e e'] [Alike k k'] [Alike u u'] (width : Option AccessWidth) :
    Alike (Expr.part e width k u) (.part e' width k' u') :=
  .map₃ (Expr.part · width) fun _ _ _ => rfl

instance [Alike e e'] [Alike l l'] [Alike u u'] (width : AccessWidth) :
    Alike (Expr.partAt e width l u) (.partAt e' width l' u') :=
  .map₃ (Expr.partAt · width) fun _ _ _ => rfl

instance [Alike e e'] [Alike es es'] [Alike u u'] : Alike (Expr.index e es u) (.index e' es' u') :=
  .map₃ Expr.index fun _ es _ => congrArg (Expr.index _ · _) (capitals_exprs es)

instance [Alike e e'] [Alike as as'] [Alike u u'] : Alike (Expr.call e as u) (.call e' as' u') :=
  .map₃ Expr.call fun _ as _ => congrArg (Expr.call _ · _) (capitals_args as)

instance [Alike n n'] : Alike (Expr.name n) (.name n') := .map Expr.name fun _ => rfl

instance [Alike u u'] : Alike (Expr.this u) (.this u') := .map Expr.this fun _ => rfl

instance [Alike u u'] : Alike (Expr.super u) (.super u') := .map Expr.super fun _ => rfl

instance [Alike e e'] [Alike u u'] : Alike (Expr.paren e u) (.paren e' u') := .map₂ Expr.paren fun _ _ => rfl

instance [Alike t t'] : Alike (Expr.literal t) (.literal t') := .map Expr.literal fun _ => rfl

instance [Alike e e'] : Alike (Arg.positional e) (.positional e') := .map Arg.positional fun _ => rfl

instance [Alike n n'] [Alike e e'] [Alike u u'] : Alike (Arg.input n e u) (.input n' e' u') :=
  .map₃ Arg.input fun _ _ _ => rfl

instance [Alike n n'] [Alike e e'] [Alike u u'] (negated : Bool) :
    Alike (Arg.output n negated e u) (.output n' negated e' u') :=
  .map₃ (Arg.output · negated) fun _ _ _ => rfl

instance [Alike e e'] : Alike e.span e'.span := .map Expr.span fun e => by cases e <;> rfl

instance [Alike e e'] : Alike e.isCallable e'.isCallable := .map Expr.isCallable fun e => by cases e <;> rfl

instance [Alike t t'] : Alike t.span t'.span := .map Literal.span fun _ => rfl

end

/-! ### Literals -/

namespace Text

theorem upperString_eq_iff {x y : String} : upperString x = upperString y ↔ upper x.toList = upper y.toList := by
  rw [upperString, upperString, String.ofList_inj]

end Text

section

variable {x x' : String} {u u' : Span} {n n' : Name} {t t' : Literal}

theorem upper_toList (x x' : String) [h : Alike x x'] : Text.upper x.toList = Text.upper x'.toList :=
  Text.upperString_eq_iff.1 h.capitals_eq

theorem Alike.ofList {cs cs' : List Char} (h : Text.upper cs = Text.upper cs') :
    Alike (String.ofList cs) (String.ofList cs') :=
  ⟨Text.upperString_eq_iff.2 (by simpa using h)⟩

/-- What of a text does not depend on the case of its letters. -/
theorem eq_of_upper {f : List Char → α} (hf : ∀ cs, f (Text.upper cs) = f cs) [Alike x x'] :
    f x.toList = f x'.toList := by
  rw [← hf x.toList, upper_toList x x', hf]

/-- A function of texts that keeps capitals. -/
theorem Alike.ofUpper {f : List Char → List Char} (hf : ∀ cs, f (Text.upper cs) = Text.upper (f cs)) [Alike x x'] :
    Alike (String.ofList (f x.toList)) (String.ofList (f x'.toList)) :=
  .ofList (by rw [← hf, ← hf, upper_toList x x'])

instance : Caseless (· != '_') := ⟨by decide⟩
instance : Caseless (· == '#') := ⟨by decide⟩
instance : Caseless (· != '#') := ⟨by decide⟩

instance [Alike x x'] : Alike (withoutSeparators x) (withoutSeparators x') := .ofUpper fun cs => filter_upper _ cs

instance [Alike x x'] : Alike (withoutHash x) (withoutHash x') :=
  .ofUpper (f := fun cs => (cs.reverse.dropWhile (· == '#')).reverse) fun cs => by
    have hreverse (cs : List Char) : (Text.upper cs).reverse = Text.upper cs.reverse := List.map_reverse.symm
    rw [hreverse, dropWhile_upper, hreverse]

theorem ofName?_eq_of_alike (x x' : String) [Alike x x'] : LiteralType.ofName? x = LiteralType.ofName? x' := by
  have hsame : Text.upperString x = Text.upperString x' := capitals_congr x x'
  rw [← LiteralType.ofName?_upper x, hsame, LiteralType.ofName?_upper]

theorem byteLength_eq_of_alike (x x' : String) [Alike x x'] :
    Text.byteLength x.toList = Text.byteLength x'.toList := by
  rw [← Text.byteLength_upper, upper_toList x x', Text.byteLength_upper]

end

/-! ### Parts of texts -/

namespace Text

theorem splitAt?_upper (cs : List Char) (n : Nat) :
    splitAt? (upper cs) n = (splitAt? cs n).map (Prod.map upper upper) := by
  induction cs generalizing n with
  | nil => cases n <;> rfl
  | cons c cs ih =>
    cases n with
    | zero => rfl
    | succ n =>
      have hsize : c.toUpper.utf8Size = c.utf8Size := eq_toUpper_of_small (by decide) c
      simp only [upper_cons, splitAt?, hsize, ih]
      split
      · rw [Option.map_map, Option.map_map]
        rfl
      · rfl

theorem slice?_upper (cs : List Char) (start stop : Nat) :
    slice? (upper cs) start stop = (slice? cs start stop).map upper := by
  unfold slice?
  split
  · rw [splitAt?_upper]
    cases splitAt? cs start with
    | none => rfl
    | some cut =>
      show (splitAt? (upper cut.2) _ >>= fun part => pure part.1) = _
      rw [splitAt?_upper]
      show _ = Option.map upper (splitAt? cut.2 _ >>= fun part => pure part.1)
      cases splitAt? cut.2 (stop - start) <;> rfl
  · rfl

end Text

theorem textIn_upper (u : Span) (cs : List Char) : u.textIn (Text.upper cs) = Text.upperString (u.textIn cs) := by
  rw [Span.textIn, Span.textIn, Text.slice?_upper]
  cases Text.slice? cs u.start u.stop with
  | none => rfl
  | some inner => simp [Text.upperString]

instance {u u' : Span} {cs cs' : List Char} [Alike u u'] [Alike cs cs'] : Alike (u.textIn cs) (u'.textIn cs') :=
  .map₂ Span.textIn fun u cs => (textIn_upper u cs).symm

/-! ### Values of strings -/

namespace Quote

variable (q : Quote)

theorem inner_upper (cs : List Char) : inner (Text.upper cs) = Text.upper (inner cs) := by
  have hsize (c : Char) : c.toUpper.utf8Size = c.utf8Size := eq_toUpper_of_small (by decide) c
  cases cs with
  | nil => rfl
  | cons c cs =>
    have hlast : (Text.upper cs).getLast? = cs.getLast?.map Char.toUpper := List.getLast?_map
    rw [Text.upper_cons, inner, inner, hlast]
    cases cs.getLast? with
    | none => rfl
    | some d =>
      simp only [Option.map_some, hsize]
      split
      · exact List.map_dropLast.symm
      · rfl

theorem hexValue_upper (cs : List Char) : Text.hexValue (Text.upper cs) = Text.hexValue cs := by
  have hdigit (c : Char) : Text.hexDigitValue c.toUpper = Text.hexDigitValue c := eq_toUpper_of_small (by decide) c
  rw [Text.hexValue, Text.upper, List.foldl_map]
  simp only [hdigit, Text.hexValue]

/-- What an escape stands for does not depend on the case of its letters, unless it is none. -/
theorem unescape_upper (cs : List Char) :
    Text.upper (q.unescape (Text.upper cs)).1 = Text.upper (q.unescape cs).1 ∧
      (q.unescape (Text.upper cs)).2 = (q.unescape cs).2 := by
  cases cs with
  | nil => exact ⟨rfl, rfl⟩
  | cons c cs =>
    have hline := eq_toUpper_of_small (f := fun c => c == 'L' || c == 'l' || c == 'N' || c == 'n') (by decide) c
    have hpage := eq_toUpper_of_small (f := fun c => c == 'P' || c == 'p') (by decide) c
    have hreturn := eq_toUpper_of_small (f := fun c => c == 'R' || c == 'r') (by decide) c
    have htab := eq_toUpper_of_small (f := fun c => c == 'T' || c == 't') (by decide) c
    have hself := eq_toUpper_of_small (f := fun c => c == '$' || c == single.mark || c == double.mark) (by decide) c
    have hhex := eq_toUpper_of_small (f := isHexDigit) (by decide) c
    have hdigits : (c.toUpper :: Text.upper cs).takeWhile isHexDigit = Text.upper ((c :: cs).takeWhile isHexDigit) :=
      takeWhile_upper isHexDigit (c :: cs)
    have htake : (Text.upper ((c :: cs).takeWhile isHexDigit)).take q.codeDigits =
        Text.upper (((c :: cs).takeWhile isHexDigit).take q.codeDigits) := List.map_take.symm
    simp only [Text.upper_cons, unescape, hline, hpage, hreturn, htab, hself, hhex, hdigits, htake, hexValue_upper,
      Text.length_upper]
    iterate 6
      split
      · exact ⟨by simp, rfl⟩
    exact ⟨by simp, rfl⟩

theorem upper_valueFrom_upper (skip : Nat) (cs : List Char) :
    Text.upper (q.valueFrom skip (Text.upper cs)) = Text.upper (q.valueFrom skip cs) := by
  induction cs generalizing skip with
  | nil => cases skip <;> rfl
  | cons c cs ih =>
    cases skip with
    | succ skip => exact ih skip
    | zero =>
      obtain ⟨hvalue, hlength⟩ := q.unescape_upper cs
      simp only [Text.upper_cons, valueFrom, toUpper_beq (x := '$') rfl]
      split
      · rw [Text.upper_append, Text.upper_append, hvalue, hlength, ih]
      · rw [Text.upper_cons, Text.upper_cons, Text.toUpper_toUpper, ih]

theorem upper_read_upper (cs : List Char) : Text.upper (q.read (Text.upper cs)) = Text.upper (q.read cs) := by
  rw [read, inner_upper, upper_valueFrom_upper, read]

end Quote

section

variable {x x' : String} {u u' : Span} {n n' : Name} {t t' : Literal} {k k' : Option Name}

instance [Alike x x'] (q : Quote) : Alike (String.ofList (q.read x.toList)) (String.ofList (q.read x'.toList)) :=
  .ofList (eq_of_upper (f := fun cs => Text.upper (q.read cs)) q.upper_read_upper)

instance [Alike k k'] [Alike x x'] [Alike u u'] (kind : LiteralKind) :
    Alike (Literal.mk kind k x u) (.mk kind k' x' u') :=
  .map₃ (Literal.mk kind) fun _ _ _ => rfl

instance [Alike x x'] [Alike u u'] : Alike (Selector.mk x u) (.mk x' u') := .map₂ Selector.mk fun _ _ => rfl

instance [Alike n n'] : Alike (Selector.ofToken n) (.ofToken n') := by
  rw [Selector.ofToken, Selector.ofToken]
  infer_instance

instance [Alike n n'] (kind : LiteralKind) : Alike (Literal.splitAtHash kind n) (.splitAtHash kind n') := by
  have hname : Text.upper n.text.toList = Text.upper n'.text.toList := upper_toList _ _
  have hspan : n.span = n'.span := eq_of_alike n.span n'.span
  have hbefore : Text.upper (n.text.toList.takeWhile (· != '#')) =
      Text.upper (n'.text.toList.takeWhile (· != '#')) := by
    rw [← takeWhile_upper, ← takeWhile_upper, hname]
  have hafter : Text.upper (n.text.toList.dropWhile (· != '#')) = Text.upper (n'.text.toList.dropWhile (· != '#')) := by
    rw [← dropWhile_upper, ← dropWhile_upper, hname]
  have hlength := congrArg Text.byteLength hbefore
  rw [Text.byteLength_upper, Text.byteLength_upper] at hlength
  have := Alike.ofList hbefore
  simp only [Literal.splitAtHash]
  cases hd : n.text.toList.dropWhile (· != '#') with
  | nil =>
    cases hd' : n'.text.toList.dropWhile (· != '#') with
    | nil => infer_instance
    | cons c cs => rw [hd, hd'] at hafter; cases hafter
  | cons c cs =>
    cases hd' : n'.text.toList.dropWhile (· != '#') with
    | nil => rw [hd, hd'] at hafter; cases hafter
    | cons d ds =>
      rw [hd, hd'] at hafter
      have := Alike.ofList (List.cons.inj hafter).2
      rw [hlength, hspan]
      infer_instance

instance [Alike n n'] (kind : LiteralKind) : Alike (Literal.ofToken kind n) (.ofToken kind n') := by
  have hupper : Text.upperString n.text = Text.upperString n'.text := capitals_congr n.text n'.text
  cases kind <;> simp only [Literal.ofToken, hupper] <;> infer_instance

instance [Alike x x'] [Alike t t'] : Alike (t.signedValue x) (t'.signedValue x') :=
  .map₂ (fun x t => Literal.signedValue x t) fun x t => by
    show Text.upperString (t.signedValue x) = t.capitals.signedValue (Text.upperString x)
    obtain ⟨kind, typeName, value, span⟩ := t
    cases typeName with
    | none => simp [Literal.signedValue, Literal.capitals]
    | some name => simp [Literal.signedValue, Literal.capitals, Name.capitals, show Text.upperString "#" = "#" from rfl]

end

/-! ### Statements -/

section

variable {e e' f f' g g' : Expr} {es es' : List Expr} {n n' : Name} {u u' : Span} {o o' : Option Expr}
  {sts sts' : List Stmt} {os os' : Option (List Stmt)} {bs bs' : List ElsifBranch} {as as' : List CaseArm}

instance [Alike e e'] [Alike sts sts'] [Alike bs bs'] [Alike os os'] [Alike u u'] :
    Alike (Stmt.ifThen e sts bs os u) (.ifThen e' sts' bs' os' u') :=
  .map₅ Stmt.ifThen fun _ sts bs os _ => by
    rw [← capitals_statements sts, ← capitals_branches bs, ← capitals_else os]
    rfl

instance [Alike e e'] [Alike as as'] [Alike os os'] [Alike u u'] :
    Alike (Stmt.select e as os u) (.select e' as' os' u') :=
  .map₄ Stmt.select fun _ as os _ => by
    rw [← capitals_arms as, ← capitals_else os]
    rfl

instance [Alike n n'] [Alike e e'] [Alike f f'] [Alike o o'] [Alike sts sts'] [Alike u u'] :
    Alike (Stmt.forLoop n e f o sts u) (.forLoop n' e' f' o' sts' u') := by
  have hloop (n e f o sts u) : capitals (Stmt.forLoop n e f o sts u) =
      .forLoop (capitals n) (capitals e) (capitals f) (capitals o) (capitals sts) u := by
    rw [← capitals_statements sts]
    rfl
  exact ⟨by rw [hloop, hloop, capitals_congr n n', capitals_congr e e', capitals_congr f f', capitals_congr o o',
    capitals_congr sts sts', eq_of_alike u u']⟩

instance [Alike e e'] [Alike sts sts'] [Alike u u'] : Alike (Stmt.whileLoop e sts u) (.whileLoop e' sts' u') :=
  .map₃ Stmt.whileLoop fun _ sts _ => congrArg (Stmt.whileLoop _ · _) (capitals_statements sts)

instance [Alike sts sts'] [Alike e e'] [Alike u u'] : Alike (Stmt.repeatLoop sts e u) (.repeatLoop sts' e' u') :=
  .map₃ Stmt.repeatLoop fun sts _ _ => congrArg (Stmt.repeatLoop · _ _) (capitals_statements sts)

instance [Alike e e'] [Alike f f'] [Alike u u'] : Alike (Stmt.assign e f u) (.assign e' f' u') :=
  .map₃ Stmt.assign fun _ _ _ => rfl

instance [Alike e e'] [Alike u u'] : Alike (Stmt.call e u) (.call e' u') := .map₂ Stmt.call fun _ _ => rfl

instance [Alike u u'] : Alike (Stmt.leave u) (.leave u') := .map Stmt.leave fun _ => rfl

instance [Alike u u'] : Alike (Stmt.next u) (.next u') := .map Stmt.next fun _ => rfl

instance [Alike u u'] : Alike (Stmt.exit u) (.exit u') := .map Stmt.exit fun _ => rfl

instance [Alike u u'] : Alike (Stmt.nop u) (.nop u') := .map Stmt.nop fun _ => rfl

instance [Alike e e'] [Alike sts sts'] [Alike u u'] : Alike (ElsifBranch.mk e sts u) (.mk e' sts' u') :=
  .map₃ ElsifBranch.mk fun _ sts _ => congrArg (ElsifBranch.mk _ · _) (capitals_statements sts)

instance [Alike es es'] [Alike sts sts'] [Alike u u'] : Alike (CaseArm.mk es sts u) (.mk es' sts' u') :=
  .map₃ CaseArm.mk fun _ sts _ => congrArg (CaseArm.mk _ · _) (capitals_statements sts)

end

/-! ### Declarations -/

section

variable {e e' f f' : Expr} {n n' : Name} {u u' : Span} {t t' : TypeRef} {l l' : Literal} {v v' : Initializer}
  {vs vs' : List Initializer} {els els' : List ArrayElement} {fs fs' : List FieldInit} {bs bs' : List ArrayBounds}
  {on on' : Option Name} {os os' : Option ArrayShape} {oe oe' : Option Expr} {ov ov' : Option Initializer}
  {ds ds' : List VarDecl} {count count' : Nat}

instance [Alike u u'] (type : ElementaryType) : Alike (TypeRef.elementary type u) (.elementary type u') :=
  .map (TypeRef.elementary type) fun _ => rfl

instance [Alike n n'] : Alike (TypeRef.named n) (.named n') := .map TypeRef.named fun _ => rfl

instance [Alike t t'] [Alike u u'] : Alike (TypeRef.reference t u) (.reference t' u') :=
  .map₂ TypeRef.reference fun _ _ => rfl

instance [Alike e e'] : Alike (Initializer.value e) (.value e') := .map Initializer.value fun _ => rfl

instance [Alike els els'] [Alike u u'] : Alike (Initializer.array els u) (.array els' u') :=
  .map₂ Initializer.array fun els _ => congrArg (Initializer.array · _) (capitals_elements els)

instance [Alike fs fs'] [Alike u u'] : Alike (Initializer.record fs u) (.record fs' u') :=
  .map₂ Initializer.record fun fs _ => congrArg (Initializer.record · _) (capitals_fields fs)

instance [Alike v v'] : Alike (ArrayElement.single v) (.single v') := .map ArrayElement.single fun _ => rfl

instance [Alike l l'] [Alike vs vs'] [Alike u u'] : Alike (ArrayElement.repeated l vs u) (.repeated l' vs' u') :=
  .map₃ ArrayElement.repeated fun _ vs _ => congrArg (ArrayElement.repeated _ · _) (capitals_initials vs)

instance [Alike n n'] [Alike v v'] [Alike u u'] : Alike (FieldInit.mk n v u) (.mk n' v' u') :=
  .map₃ FieldInit.mk fun _ _ _ => rfl

instance [Alike e e'] [Alike f f'] [Alike u u'] : Alike (ArrayBounds.mk e f u) (.mk e' f' u') :=
  .map₃ ArrayBounds.mk fun _ _ _ => rfl

instance [Alike bs bs'] : Alike (ArrayShape.bounded bs) (.bounded bs') := .map ArrayShape.bounded fun _ => rfl

instance [Alike count count'] : Alike (ArrayShape.unbounded count) (.unbounded count') :=
  .map ArrayShape.unbounded fun _ => rfl

instance [Alike n n'] [Alike on on'] [Alike os os'] [Alike t t'] [Alike oe oe'] [Alike ov ov'] [Alike u u'] :
    Alike (VarDecl.mk n on os t oe ov u) (.mk n' on' os' t' oe' ov' u') := by
  have hdecl (n on os t oe ov u) : capitals (VarDecl.mk n on os t oe ov u) =
      ⟨capitals n, capitals on, capitals os, capitals t, capitals oe, capitals ov, u⟩ := rfl
  exact ⟨by rw [hdecl, hdecl, capitals_congr n n', capitals_congr on on', capitals_congr os os', capitals_congr t t',
    capitals_congr oe oe', capitals_congr ov ov', eq_of_alike u u']⟩

instance [Alike ds ds'] [Alike u u'] (kind : BlockKind) (isConstant : Bool) :
    Alike (VarBlock.mk kind isConstant ds u) (.mk kind isConstant ds' u') :=
  .map₂ (VarBlock.mk kind isConstant) fun _ _ => rfl

end

/-! ### Units -/

section

variable {n n' : Name} {u u' : Span} {b b' : Body} {bs bs' : List VarBlock} {sts sts' : List Stmt} {vb vb' : VarBlock}
  {ot ot' : Option TypeRef} {a a' : Algorithm} {m m' : Method} {us us' : List ProgramUnit} {on on' : Option Name}
  {v v' : Initializer} {ps ps' : List BodyPart}

instance [Alike vb vb'] : Alike (BodyPart.block vb) (.block vb') := .map BodyPart.block fun _ => rfl

instance [Alike sts sts'] : Alike (BodyPart.statements sts) (.statements sts') := .map BodyPart.statements fun _ => rfl

theorem capitals_ofParts (ps : List BodyPart) : capitals (Body.ofParts ps) = Body.ofParts (capitals ps) := by
  induction ps with
  | nil => rfl
  | cons p ps ih =>
    have hbody : Body.ofParts (ps.map BodyPart.capitals) = (Body.ofParts ps).capitals := ih.symm
    cases p with
    | block b =>
      show _ = Body.ofParts (.block b.capitals :: ps.map BodyPart.capitals)
      rw [Body.ofParts, Body.ofParts, hbody]
      rfl
    | statements sts =>
      show _ = Body.ofParts (.statements (sts.map Stmt.capitals) :: ps.map BodyPart.capitals)
      rw [Body.ofParts, Body.ofParts, hbody]
      show Body.mk _ ((sts ++ _).map _) = _
      rw [List.map_append]
      rfl

instance [Alike ps ps'] : Alike (Body.ofParts ps) (Body.ofParts ps') := .map Body.ofParts capitals_ofParts

instance [Alike n n'] [Alike b b'] [Alike u u'] : Alike (Algorithm.mk n b u) (.mk n' b' u') :=
  .map₃ Algorithm.mk fun _ _ _ => rfl

instance [Alike n n'] [Alike ot ot'] [Alike b b'] [Alike u u'] : Alike (Method.mk n ot b u) (.mk n' ot' b' u') :=
  .map₄ Method.mk fun _ _ _ _ => rfl

instance [Alike a a'] : Alike (ProgramUnit.algorithm a) (.algorithm a') := .map ProgramUnit.algorithm fun _ => rfl

instance [Alike m m'] : Alike (ProgramUnit.method m) (.method m') := .map ProgramUnit.method fun _ => rfl

instance [Alike us us'] [Alike u u'] : Alike (SourceFile.mk us u) (.mk us' u') := .map₂ SourceFile.mk fun _ _ => rfl

instance [Alike sts sts'] [Alike u u'] : Alike (StatementList.mk sts u) (.mk sts' u') :=
  .map₂ StatementList.mk fun _ _ => rfl

instance [Alike on on'] [Alike v v'] [Alike u u'] : Alike (InitializerSource.mk on v u) (.mk on' v' u') :=
  .map₃ InitializerSource.mk fun _ _ _ => rfl

end

end StructuredText
