import LineScript.Proofs.Tree.Faithful
import LineScript.Proofs.Tree.Unplaced

/-!
# What parsers make

Expressions, statements and what they are put together from are nodes: they keep tokens, they
may or may not say what these say, and they can be stripped of their positions.  What is proved
of every rule of the grammar is stated for nodes, whatever the rule makes.
-/

namespace LineScript

/-- What can be stripped of its positions. -/
class Placed (α : Type) where
  unplaced : α → α

/-- What is made from tokens. -/
class Node (α : Type) extends Placed α where
  /-- The tokens that it keeps, in the order of the source. -/
  tokens : α → List Token
  /-- It says what its tokens say. -/
  Faithful : α → Prop

instance : Placed Token := ⟨Token.unplaced⟩

instance : Placed Diagnostic := ⟨Diagnostic.unplaced⟩

instance : Node Expr where
  unplaced := Expr.unplaced
  tokens := Expr.tokens
  Faithful := Expr.Faithful

instance : Node (List Expr) where
  unplaced := Expr.unplacedAll
  tokens := Expr.tokensAll
  Faithful := Expr.FaithfulAll

instance : Node Block where
  unplaced := Block.unplaced
  tokens := Block.tokens
  Faithful := Block.Faithful

instance : Node Parameter where
  unplaced := Parameter.unplaced
  tokens := Parameter.origins
  Faithful := Parameter.Faithful

instance : Node (List Parameter) where
  unplaced := List.map Parameter.unplaced
  tokens := List.flatMap Parameter.origins
  Faithful list := ∀ parameter ∈ list, parameter.Faithful

instance : Node (Option TypeName) where
  unplaced := Option.map TypeName.unplaced
  tokens := TypeName.originsOf
  Faithful type := ∀ name ∈ type, name.Faithful

instance : Node FunctionDefinition where
  unplaced := FunctionDefinition.unplaced
  tokens := FunctionDefinition.tokens
  Faithful := FunctionDefinition.Faithful

instance : Node Stmt where
  unplaced := Stmt.unplaced
  tokens := Stmt.tokens
  Faithful := Stmt.Faithful

instance : Node (List Stmt) where
  unplaced := Stmt.unplacedAll
  tokens := Stmt.tokensAll
  Faithful := Stmt.FaithfulAll

instance : Node (Option Stmt) where
  unplaced := Option.map Stmt.unplaced
  tokens statement := Stmt.tokensAll statement.toList
  Faithful statement := Stmt.FaithfulAll statement.toList

@[simp] theorem tokens_expr (e : Expr) : Node.tokens e = e.tokens := rfl

@[simp] theorem tokens_exprs (es : List Expr) : Node.tokens es = Expr.tokensAll es := rfl

@[simp] theorem tokens_block (block : Block) : Node.tokens block = block.tokens := rfl

@[simp]
theorem tokens_parameter (parameter : Parameter) : Node.tokens parameter = parameter.origins := rfl

@[simp]
theorem tokens_parameters (list : List Parameter) :
    Node.tokens list = list.flatMap Parameter.origins := rfl

@[simp]
theorem tokens_returnType (type : Option TypeName) :
    Node.tokens type = TypeName.originsOf type := rfl

@[simp]
theorem tokens_function (definition : FunctionDefinition) :
    Node.tokens definition = definition.tokens := rfl

@[simp] theorem tokens_stmt (statement : Stmt) : Node.tokens statement = statement.tokens := rfl

@[simp]
theorem tokens_stmts (statements : List Stmt) :
    Node.tokens statements = Stmt.tokensAll statements := rfl

@[simp]
theorem tokens_someStmt (statement : Option Stmt) :
    Node.tokens statement = Stmt.tokensAll statement.toList := rfl

/-- The value as it is, or without its positions. -/
def erase {α : Type} [Placed α] (blind : Bool) (value : α) : α :=
  if blind then Placed.unplaced value else value

section Erase

variable {blind : Bool}

@[simp]
theorem kind_erase (token : Token) : (erase blind token).kind = token.kind := by
  cases blind <;> rfl

@[simp]
theorem text_erase (token : Token) : (erase blind token).text = token.text := by
  cases blind <;> rfl

/-- Statements behind one that may be missing. -/
theorem erase_toList_append (statement : Option Stmt) (others : List Stmt) :
    (erase blind statement).toList ++ erase blind others =
      erase blind (statement.toList ++ others) := by
  cases blind <;> cases statement <;> rfl

end Erase

end LineScript
