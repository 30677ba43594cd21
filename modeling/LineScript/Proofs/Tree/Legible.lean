import LineScript.Proofs.Tree.Unplaced
import LineScript.Text.Alphabetic
import LineScript.Text.Decimal
import LineScript.Token.Word

/-!
# Legible trees

A tree is legible if it can be told from its text.  Its leaves are then words, numerals and
strings of the language; a block holds at most one statement, since nothing but a line end
separates two; and no expression that stands as a statement begins with a function, which
would be taken for a definition.  Of the tokens of a tree its text keeps no more than the
digits of an integer.
-/

namespace LineScript

/-! ## What a text keeps of a tree -/

/-- The token of a node whose token is forgotten. -/
def Token.forgotten : Token :=
  Expr.mark .illegal ""

/-- The name without its token. -/
def Name.bare (name : Name) : Name :=
  { name with token := .forgotten }

/-- The name of a type without its token. -/
def TypeName.bare (name : TypeName) : TypeName :=
  { name with token := .forgotten }

/-- The parameter without its tokens. -/
def Parameter.bare (parameter : Parameter) : Parameter :=
  ⟨parameter.declaredType.bare, parameter.name.bare⟩

mutual

/-- The expression without its tokens.  Of the token of an integer the digits are kept. -/
def Expr.bare : Expr → Expr
  | .identifier name => .identifier name.bare
  | .boolean _ value => .boolean .forgotten value
  | .integer token value => .integer (Expr.mark .integer token.text) value
  | .string _ value => .string .forgotten value
  | .unary _ operator operand => .unary .forgotten operator operand.bare
  | .binary _ left operator right => .binary .forgotten left.bare operator right.bare
  | .conditional _ condition consequence none =>
    .conditional .forgotten condition.bare consequence.bare none
  | .conditional _ condition consequence (some alternative) =>
    .conditional .forgotten condition.bare consequence.bare (some alternative.bare)
  | .call _ callee arguments => .call .forgotten callee.bare (Expr.bareAll arguments)
  | .function definition => .function definition.bare
termination_by structural expression => expression

/-- The expressions without their tokens. -/
def Expr.bareAll : List Expr → List Expr
  | [] => []
  | expression :: others => expression.bare :: Expr.bareAll others
termination_by structural expressions => expressions

/-- The block without its tokens. -/
def Block.bare : Block → Block
  | ⟨_, statements⟩ => ⟨.forgotten, Stmt.bareAll statements⟩
termination_by structural block => block

/-- The function without its tokens. -/
def FunctionDefinition.bare : FunctionDefinition → FunctionDefinition
  | ⟨_, name, parameters, returnType, body⟩ =>
    ⟨.forgotten, name.bare, parameters.map Parameter.bare, returnType.map TypeName.bare, body.bare⟩
termination_by structural definition => definition

/-- The statement without its tokens. -/
def Stmt.bare : Stmt → Stmt
  | .expression _ value => .expression .forgotten value.bare
  | .block content => .block content.bare
  | .var _ declaredType name value => .var .forgotten declaredType.bare name.bare value.bare
  | .ret _ value => .ret .forgotten value.bare
  | .function definition => .function definition.bare
  | .entrypoint _ name body => .entrypoint .forgotten name.bare body.bare
termination_by structural statement => statement

/-- The statements without their tokens. -/
def Stmt.bareAll : List Stmt → List Stmt
  | [] => []
  | statement :: others => statement.bare :: Stmt.bareAll others
termination_by structural statements => statements

end

attribute [simp] Name.bare TypeName.bare Expr.bare Expr.bareAll Block.bare
attribute [simp] FunctionDefinition.bare Stmt.bare Stmt.bareAll

/-- The program without its tokens. -/
def Program.bare (program : Program) : Program :=
  ⟨program.statements.map Stmt.bare⟩

theorem Expr.bareAll_eq_map (expressions : List Expr) :
    Expr.bareAll expressions = expressions.map Expr.bare := by
  induction expressions with
  | nil => rfl
  | cons expression others ih => simp [Expr.bareAll, ih]

/-! ## Trees that can be told from their text -/

/-- A word that has no meaning of its own. -/
structure IsIdentifier (text : String) : Prop where
  ne_nil : text.toList ≠ []
  isAlphabetic_eq : ∀ c ∈ text.toList, isAlphabetic c = true
  kind_eq : Word.kind text = .identifier

instance (text : String) : Decidable (IsIdentifier text) :=
  decidable_of_iff
    (text.toList ≠ [] ∧ text.toList.all isAlphabetic = true ∧ Word.kind text = .identifier)
    ⟨fun ⟨hne, halphabetic, hkind⟩ => ⟨hne, List.all_eq_true.mp halphabetic, hkind⟩,
      fun ⟨hne, halphabetic, hkind⟩ => ⟨hne, List.all_eq_true.mpr halphabetic, hkind⟩⟩

/-- ASCII digits that denote `value`. -/
structure IsNumeral (text : String) (value : Int64) : Prop where
  ne_nil : text.toList ≠ []
  isDigit_eq : ∀ c ∈ text.toList, c.isDigit = true
  value_eq : (Decimal.valueOfDigits text.toList : Int) = value.toInt

instance (text : String) (value : Int64) : Decidable (IsNumeral text value) :=
  decidable_of_iff
    (text.toList ≠ [] ∧ text.toList.all Char.isDigit = true ∧
      (Decimal.valueOfDigits text.toList : Int) = value.toInt)
    ⟨fun ⟨hne, hdigits, hvalue⟩ => ⟨hne, List.all_eq_true.mp hdigits, hvalue⟩,
      fun ⟨hne, hdigits, hvalue⟩ => ⟨hne, List.all_eq_true.mpr hdigits, hvalue⟩⟩

/-- The binary operators and the kinds of their tokens. -/
def binaryOperators : List (String × TokenKind) :=
  [("==", .equals), ("!=", .notEquals), ("<", .less), (">", .greater), ("+", .plus),
    ("-", .dash), ("*", .star), ("/", .slash), ("%", .percent)]

/-- The unary operators and the kinds of their tokens. -/
def unaryOperators : List (String × TokenKind) :=
  [("-", .dash), ("!", .exclamation)]

/-- The kind of the token that spells an operator. -/
def operatorKind (operator : String) : TokenKind :=
  ((binaryOperators ++ unaryOperators).lookup operator).getD .illegal

/-- Whether a function is what the expression begins with. -/
def Expr.beginsWithFunction : Expr → Bool
  | .function _ => true
  | .call _ callee _ => callee.beginsWithFunction
  | _ => false
termination_by structural expression => expression

/-- A parameter that can be told from its text. -/
structure Parameter.Legible (parameter : Parameter) : Prop where
  declaredType : parameter.declaredType.text ∈ Word.builtinTypes
  name : IsIdentifier parameter.name.text

instance (parameter : Parameter) : Decidable parameter.Legible :=
  decidable_of_iff
    (parameter.declaredType.text ∈ Word.builtinTypes ∧ IsIdentifier parameter.name.text)
    ⟨fun ⟨htype, hname⟩ => ⟨htype, hname⟩, fun ⟨htype, hname⟩ => ⟨htype, hname⟩⟩

mutual

/-- An expression that can be told from its text. -/
def Expr.Legible : Expr → Prop
  | .identifier name => IsIdentifier name.text
  | .boolean _ _ => True
  | .integer token value => IsNumeral token.text value
  | .string _ value => '"' ∉ value.toList
  | .unary _ operator operand => operator ∈ unaryOperators.map Prod.fst ∧ operand.Legible
  | .binary _ left operator right =>
    operator ∈ binaryOperators.map Prod.fst ∧ left.Legible ∧ right.Legible
  | .conditional _ condition consequence none => condition.Legible ∧ consequence.Legible
  | .conditional _ condition consequence (some alternative) =>
    condition.Legible ∧ consequence.Legible ∧ alternative.Legible
  | .call _ callee arguments => callee.Legible ∧ Expr.LegibleAll arguments
  | .function definition => definition.Legible
termination_by structural expression => expression

/-- Expressions that can be told from their text. -/
def Expr.LegibleAll : List Expr → Prop
  | [] => True
  | expression :: others => expression.Legible ∧ Expr.LegibleAll others
termination_by structural expressions => expressions

/-- A block that can be told from its text. -/
def Block.Legible : Block → Prop
  | ⟨_, statements⟩ => statements.length ≤ 1 ∧ Stmt.LegibleAll statements
termination_by structural block => block

/-- A function that can be told from its text. -/
def FunctionDefinition.Legible : FunctionDefinition → Prop
  | ⟨_, name, parameters, returnType, body⟩ =>
    IsIdentifier name.text ∧ (∀ parameter ∈ parameters, parameter.Legible) ∧
      (∀ type ∈ returnType, type.text ∈ Word.builtinTypes) ∧ body.Legible
termination_by structural definition => definition

/-- A statement that can be told from its text. -/
def Stmt.Legible : Stmt → Prop
  | .expression _ value => value.beginsWithFunction = false ∧ value.Legible
  | .block content => content.Legible
  | .var _ declaredType name value =>
    declaredType.text ∈ Word.builtinTypes ∧ IsIdentifier name.text ∧ value.Legible
  | .ret _ value => value.Legible
  | .function definition => definition.Legible
  | .entrypoint _ name body => IsIdentifier name.text ∧ body.Legible
termination_by structural statement => statement

/-- Statements that can be told from their text. -/
def Stmt.LegibleAll : List Stmt → Prop
  | [] => True
  | statement :: others => statement.Legible ∧ Stmt.LegibleAll others
termination_by structural statements => statements

end

mutual

instance Expr.decidableLegible : (expression : Expr) → Decidable expression.Legible
  | .identifier name => inferInstanceAs (Decidable (IsIdentifier name.text))
  | .boolean _ _ => .isTrue trivial
  | .integer token value => inferInstanceAs (Decidable (IsNumeral token.text value))
  | .string _ value => inferInstanceAs (Decidable ('"' ∉ value.toList))
  | .unary _ _ operand => @instDecidableAnd _ _ _ operand.decidableLegible
  | .binary _ left _ right =>
    @instDecidableAnd _ _ _ (@instDecidableAnd _ _ left.decidableLegible right.decidableLegible)
  | .conditional _ condition consequence none =>
    @instDecidableAnd _ _ condition.decidableLegible consequence.decidableLegible
  | .conditional _ condition consequence (some alternative) =>
    @instDecidableAnd _ _ condition.decidableLegible
      (@instDecidableAnd _ _ consequence.decidableLegible alternative.decidableLegible)
  | .call _ callee arguments =>
    @instDecidableAnd _ _ callee.decidableLegible (Expr.decidableLegibleAll arguments)
  | .function definition => definition.decidableLegible
termination_by structural expression => expression

instance Expr.decidableLegibleAll :
    (expressions : List Expr) → Decidable (Expr.LegibleAll expressions)
  | [] => .isTrue trivial
  | expression :: others =>
    @instDecidableAnd _ _ expression.decidableLegible (Expr.decidableLegibleAll others)
termination_by structural expressions => expressions

instance Block.decidableLegible : (block : Block) → Decidable block.Legible
  | ⟨_, statements⟩ => @instDecidableAnd _ _ _ (Stmt.decidableLegibleAll statements)
termination_by structural block => block

instance FunctionDefinition.decidableLegible :
    (definition : FunctionDefinition) → Decidable definition.Legible
  | ⟨_, _, _, _, body⟩ =>
    @instDecidableAnd _ _ _
      (@instDecidableAnd _ _ _ (@instDecidableAnd _ _ _ body.decidableLegible))
termination_by structural definition => definition

instance Stmt.decidableLegible : (statement : Stmt) → Decidable statement.Legible
  | .expression _ value => @instDecidableAnd _ _ _ value.decidableLegible
  | .block content => content.decidableLegible
  | .var _ _ _ value =>
    @instDecidableAnd _ _ _ (@instDecidableAnd _ _ _ value.decidableLegible)
  | .ret _ value => value.decidableLegible
  | .function definition => definition.decidableLegible
  | .entrypoint _ _ body => @instDecidableAnd _ _ _ body.decidableLegible
termination_by structural statement => statement

instance Stmt.decidableLegibleAll :
    (statements : List Stmt) → Decidable (Stmt.LegibleAll statements)
  | [] => .isTrue trivial
  | statement :: others =>
    @instDecidableAnd _ _ statement.decidableLegible (Stmt.decidableLegibleAll others)
termination_by structural statements => statements

end

/-- A program that can be told from its text. -/
def Program.Legible (program : Program) : Prop :=
  ∀ statement ∈ program.statements, statement.Legible

instance (program : Program) : Decidable program.Legible :=
  inferInstanceAs (Decidable (∀ statement ∈ program.statements, statement.Legible))

theorem Expr.legibleAll_iff {expressions : List Expr} :
    Expr.LegibleAll expressions ↔ ∀ e ∈ expressions, e.Legible := by
  induction expressions with
  | nil => simp [Expr.LegibleAll]
  | cons expression others ih => simp [Expr.LegibleAll, ih]

theorem Stmt.legibleAll_iff {statements : List Stmt} :
    Stmt.LegibleAll statements ↔ ∀ statement ∈ statements, statement.Legible := by
  induction statements with
  | nil => simp [Stmt.LegibleAll]
  | cons statement others ih => simp [Stmt.LegibleAll, ih]

/-! ## The tokens of a text -/

namespace Expr

/-- The token of an operator. -/
def operatorMark (operator : String) : Token :=
  mark (operatorKind operator) operator

/-- The tokens in parentheses. -/
def grouped (tokens : List Token) : List Token :=
  mark .openParen "(" :: (tokens ++ [mark .closeParen ")"])

/-- The tokens of several constructs, with commas between them. -/
def separated (parts : List (List Token)) : List Token :=
  [mark .comma ","].intercalate parts

end Expr

open LineScript.Expr (mark operatorMark grouped separated)

/-- The tokens of a parameter. -/
def Parameter.spelled (parameter : Parameter) : List Token :=
  [mark .typeName parameter.declaredType.text, mark .identifier parameter.name.text]

/-- The token of a return type, if there is one. -/
def TypeName.spelledOption : Option TypeName → List Token
  | none => []
  | some type => [mark .typeName type.text]

mutual

/-- The tokens of an expression as it is rendered. -/
def Expr.spelled : Expr → List Token
  | .identifier name => [mark .identifier name.text]
  | .boolean _ true => [mark .trueLiteral "true"]
  | .boolean _ false => [mark .falseLiteral "false"]
  | .integer token _ => [mark .integer token.text]
  | .string _ value => [mark .string value]
  | .unary _ operator operand => grouped (operatorMark operator :: operand.spelled)
  | .binary _ left operator right =>
    grouped (left.spelled ++ operatorMark operator :: right.spelled)
  | .conditional _ condition consequence none =>
    mark .kwIf "if" :: (grouped condition.spelled ++ consequence.spelled)
  | .conditional _ condition consequence (some alternative) =>
    mark .kwIf "if" :: (grouped condition.spelled ++
      (consequence.spelled ++ mark .kwElse "else" :: alternative.spelled))
  | .call _ callee arguments => callee.spelled ++ grouped (separated (Expr.spelledAll arguments))
  | .function definition => definition.spelled
termination_by structural expression => expression

/-- The tokens of expressions, one by one. -/
def Expr.spelledAll : List Expr → List (List Token)
  | [] => []
  | expression :: others => expression.spelled :: Expr.spelledAll others
termination_by structural expressions => expressions

/-- The tokens of a block as it is rendered. -/
def Block.spelled : Block → List Token
  | ⟨_, statements⟩ =>
    mark .openCurly "\x7b" :: ((Stmt.spelledAll statements).flatten ++ [mark .closeCurly "\x7d"])
termination_by structural block => block

/-- The tokens of a function as it is rendered. -/
def FunctionDefinition.spelled : FunctionDefinition → List Token
  | ⟨_, name, parameters, returnType, body⟩ =>
    mark .kwFunc "func" :: mark .identifier name.text ::
      (grouped (separated (parameters.map Parameter.spelled)) ++
        (TypeName.spelledOption returnType ++ body.spelled))
termination_by structural definition => definition

/-- The tokens of a statement as it is rendered. -/
def Stmt.spelled : Stmt → List Token
  | .expression _ value => value.spelled
  | .block content => content.spelled
  | .var _ declaredType name value =>
    mark .kwVar "var" :: mark .typeName declaredType.text :: mark .identifier name.text ::
      mark .assignment "=" :: value.spelled
  | .ret _ value => mark .kwReturn "return" :: value.spelled
  | .function definition => definition.spelled
  | .entrypoint _ name body =>
    mark .kwEfunc "efunc" :: mark .identifier name.text :: (grouped [] ++ body.spelled)
termination_by structural statement => statement

/-- The tokens of statements, one by one. -/
def Stmt.spelledAll : List Stmt → List (List Token)
  | [] => []
  | statement :: others => statement.spelled :: Stmt.spelledAll others
termination_by structural statements => statements

end

/-- The tokens of a program as it is rendered, up to the end of input. -/
def Program.spelled (program : Program) : List Token :=
  program.statements.flatMap fun statement => statement.spelled ++ [mark .newline "\n"]

theorem Expr.spelledAll_eq_map (expressions : List Expr) :
    Expr.spelledAll expressions = expressions.map Expr.spelled := by
  induction expressions with
  | nil => rfl
  | cons expression others ih => simp [Expr.spelledAll, ih]

end LineScript
