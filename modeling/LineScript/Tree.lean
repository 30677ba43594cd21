import LineScript.Entrypoint
import LineScript.Token

/-!
# The syntax tree

Every node keeps the token that it was made from, so that a diagnostic can point at
it, beside the value that it stands for.  Parentheses that only group leave no node.
-/

namespace LineScript

/-- A name and its token. -/
structure Name where
  token : Token
  text : String
deriving DecidableEq, Repr

/-- The name of a type, where one is announced, and its token. -/
structure TypeName where
  token : Token
  text : String
deriving DecidableEq, Repr

/-- A name in a parameter list and its type. -/
structure Parameter where
  declaredType : TypeName
  name : Name
deriving DecidableEq, Repr

namespace Name

/-- The name that a token spells. -/
def ofToken (token : Token) : Name := ⟨token, token.text⟩

@[simp] theorem token_ofToken (token : Token) : (ofToken token).token = token := rfl

@[simp] theorem text_ofToken (token : Token) : (ofToken token).text = token.text := rfl

end Name

namespace TypeName

/-- The type name that a token spells. -/
def ofToken (token : Token) : TypeName := ⟨token, token.text⟩

end TypeName

mutual

/-- Expressions.  The token of an operation is its operator, that of a call its
opening parenthesis, that of a conditional the word before its condition. -/
inductive Expr where
  | identifier (name : Name)
  | boolean (token : Token) (value : Bool)
  | integer (token : Token) (value : Int64)
  | string (token : Token) (value : String)
  | unary (token : Token) (operator : String) (operand : Expr)
  | binary (token : Token) (left : Expr) (operator : String) (right : Expr)
  | conditional (token : Token) (condition : Expr) (consequence : Block)
      (alternative : Option Block)
  | call (token : Token) (callee : Expr) (arguments : List Expr)
  | function (definition : FunctionDefinition)

/-- Statements between curly braces.  The token is the opening brace. -/
structure Block where
  token : Token
  statements : List Stmt

/-- A function with its parameters; without a return type it returns nothing. -/
structure FunctionDefinition where
  token : Token
  name : Name
  parameters : List Parameter
  returnType : Option TypeName
  body : Block

/-- Statements.  The token of an expression statement is the first token of the
expression; every other statement begins with a token of its own. -/
inductive Stmt where
  | expression (token : Token) (value : Expr)
  | block (content : Block)
  | var (token : Token) (declaredType : TypeName) (name : Name) (value : Expr)
  | ret (token : Token) (value : Expr)
  | function (definition : FunctionDefinition)
  | entrypoint (token : Token) (name : Name) (body : Block)

end

/-- The statements of a source, in source order. -/
structure Program where
  statements : List Stmt

namespace FunctionDefinition

/-- The types of the parameters, in order. -/
def parameterTypes (definition : FunctionDefinition) : List String :=
  definition.parameters.map (·.declaredType.text)

end FunctionDefinition

namespace Expr

/-- The token that the expression was made from. -/
def token : Expr → Token
  | identifier name => name.token
  | boolean token _ | integer token _ | string token _ => token
  | unary token _ _ | binary token _ _ _ => token
  | conditional token _ _ _ | call token _ _ => token
  | function definition => definition.token

/-- The name of the type that the expression has on its face: literals have one,
and the type of anything else is unknown. -/
def literalType : Expr → String
  | integer _ _ => "int"
  | boolean _ _ => "bool"
  | string _ _ => "string"
  | _ => "unknown"

end Expr

namespace Stmt

/-- The token that the statement was made from. -/
def token : Stmt → Token
  | expression token _ | var token _ _ _ | ret token _ | entrypoint token _ _ => token
  | block content => content.token
  | function definition => definition.token

end Stmt

end LineScript
