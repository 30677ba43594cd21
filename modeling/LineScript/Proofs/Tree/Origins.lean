import LineScript.Tree

/-!
# The tokens of a tree

A node is made from the tokens of its own, which are listed here in the order in which
they stand in the source, with those of its parts between them.  Punctuation leaves no
node, and reserved words and signs can be in no node at all.
-/

namespace LineScript

namespace TokenKind

/-- The kinds whose tokens no node keeps. -/
def isPunctuation : TokenKind → Bool
  | newline | endOfInput | openParen | closeParen | closeCurly | comma | assignment | kwElse => true
  | _ => false

/-- The kinds that no construct of the language uses. -/
def isReserved : TokenKind → Bool
  | illegal | importDirective | dot | openBracket | closeBracket | kwFor | kwWhile | kwBreak
  | kwContinue | kwAs | kwMfunc => true
  | _ => false

theorem isPunctuation_of_isReserved {kind : TokenKind} (h : kind.isReserved) :
    kind.isPunctuation = false := by
  cases kind <;> first | rfl | cases h

/-- The kinds whose tokens nodes are made from. -/
def IsOrigin (kind : TokenKind) : Prop :=
  kind.isPunctuation = false ∧ kind.isReserved = false

instance (kind : TokenKind) : Decidable kind.IsOrigin :=
  inferInstanceAs (Decidable (_ ∧ _))

end TokenKind

/-- The tokens that are no punctuation. -/
def significant (tokens : List Token) : List Token :=
  tokens.filter fun token => !token.kind.isPunctuation

theorem significant_append (first second : List Token) :
    significant (first ++ second) = significant first ++ significant second :=
  List.filter_append first second

theorem significant_cons (token : Token) (others : List Token) :
    significant (token :: others) = significant [token] ++ significant others :=
  significant_append [token] others

theorem significant_of_isPunctuation {token : Token} (h : token.kind.isPunctuation)
    (others : List Token) : significant (token :: others) = significant others := by
  simp [significant, h]

theorem significant_of_isOrigin {token : Token} (h : token.kind.IsOrigin) (others : List Token) :
    significant (token :: others) = token :: significant others := by
  simp [significant, h.1]

/-- The tokens of a parameter: its type comes before its name. -/
def Parameter.origins (parameter : Parameter) : List Token :=
  [parameter.declaredType.token, parameter.name.token]

/-- The tokens of a return type, if there is one. -/
def TypeName.originsOf : Option TypeName → List Token
  | none => []
  | some name => [name.token]

mutual

/-- The tokens of an expression, in source order. -/
def Expr.origins : Expr → List Token
  | .identifier name => [name.token]
  | .boolean token _ => [token]
  | .integer token _ => [token]
  | .string token _ => [token]
  | .unary token _ operand => token :: operand.origins
  | .binary token left _ right => left.origins ++ token :: right.origins
  | .conditional token condition consequence none =>
    token :: condition.origins ++ consequence.origins
  | .conditional token condition consequence (some alternative) =>
    token :: condition.origins ++ consequence.origins ++ alternative.origins
  | .call _ callee arguments => callee.origins ++ Expr.originsAll arguments
  | .function definition => definition.origins
termination_by structural expression => expression

/-- The tokens of the expressions, in source order. -/
def Expr.originsAll : List Expr → List Token
  | [] => []
  | expression :: others => expression.origins ++ Expr.originsAll others
termination_by structural expressions => expressions

/-- The tokens of a block, in source order. -/
def Block.origins : Block → List Token
  | ⟨token, statements⟩ => token :: Stmt.originsAll statements
termination_by structural block => block

/-- The tokens of a function, in source order. -/
def FunctionDefinition.origins : FunctionDefinition → List Token
  | ⟨token, name, parameters, returnType, body⟩ =>
    token :: name.token :: parameters.flatMap Parameter.origins ++
      TypeName.originsOf returnType ++ body.origins
termination_by structural definition => definition

/-- The tokens of a statement, in source order.  The token of an expression statement is
the first one of its expression, and is listed there. -/
def Stmt.origins : Stmt → List Token
  | .expression _ value => value.origins
  | .block content => content.origins
  | .var token declaredType name value =>
    token :: declaredType.token :: name.token :: value.origins
  | .ret token value => token :: value.origins
  | .function definition => definition.origins
  | .entrypoint token name body => token :: name.token :: body.origins
termination_by structural statement => statement

/-- The tokens of the statements, in source order. -/
def Stmt.originsAll : List Stmt → List Token
  | [] => []
  | statement :: others => statement.origins ++ Stmt.originsAll others
termination_by structural statements => statements

end

/-- The tokens of a program, in source order. -/
def Program.origins (program : Program) : List Token :=
  Stmt.originsAll program.statements

end LineScript
