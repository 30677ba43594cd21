import LineScript.Token

/-!
# Grammars as tables

An expression begins with a token that has a prefix rule and goes on with tokens
that have infix rules; a statement may begin with a token that has a statement
rule.  A grammar says which rule a kind of token has.  The rules themselves are
named here and carried out by the parser, so that a grammar is data.
-/

namespace LineScript

/-- How tightly an operator binds, from the loosest to the tightest. -/
inductive Precedence where
  | lowest
  | equals
  | lessGreater
  | sum
  | product
  | unary
  | call
deriving DecidableEq, Repr

namespace Precedence

/-- The place of a precedence in their order. -/
def level : Precedence → Nat
  | lowest => 0
  | equals => 1
  | lessGreater => 2
  | sum => 3
  | product => 4
  | unary => 5
  | call => 6

instance : LT Precedence := ⟨fun looser tighter => looser.level < tighter.level⟩

instance (looser tighter : Precedence) : Decidable (looser < tighter) :=
  inferInstanceAs (Decidable (looser.level < tighter.level))

theorem lt_iff_level_lt {looser tighter : Precedence} :
    looser < tighter ↔ looser.level < tighter.level := Iff.rfl

end Precedence

/-- What an expression can begin with. -/
inductive PrefixRule where
  | identifier
  | integer
  | string
  | boolean
  | unary
  | grouping
  | conditional
  | function
deriving DecidableEq, Repr

/-- How an expression can go on after its left operand. -/
inductive InfixRule where
  | binary
  | call
deriving DecidableEq, Repr

/-- The forms of a statement. -/
inductive StmtRule where
  | expression
  | var
  | ret
  | function
  | entrypoint
  | block
deriving DecidableEq, Repr

/-- The rules that the kinds of token have.  An infix rule comes with the
precedence that its operator binds at. -/
structure Grammar where
  prefixRule : TokenKind → Option PrefixRule
  infixRule : TokenKind → Option (Precedence × InfixRule)
  stmtRule : TokenKind → Option StmtRule

namespace Grammar

/-- The grammar without rules. -/
def empty : Grammar :=
  ⟨fun _ => none, fun _ => none, fun _ => none⟩

/-- The grammar in which `kind` has the prefix rule `rule`. -/
def setPrefixRule (grammar : Grammar) (kind : TokenKind) (rule : PrefixRule) : Grammar :=
  { grammar with
    prefixRule := fun other => if other = kind then some rule else grammar.prefixRule other }

/-- The grammar in which `kind` has the infix rule `rule` and binds at `precedence`. -/
def setInfixRule (grammar : Grammar) (kind : TokenKind) (precedence : Precedence)
    (rule : InfixRule) : Grammar :=
  { grammar with
    infixRule := fun other =>
      if other = kind then some (precedence, rule) else grammar.infixRule other }

/-- The grammar in which `kind` has the statement rule `rule`. -/
def setStmtRule (grammar : Grammar) (kind : TokenKind) (rule : StmtRule) : Grammar :=
  { grammar with
    stmtRule := fun other => if other = kind then some rule else grammar.stmtRule other }

/-- The precedence of a kind of token: the lowest for one that is no operator. -/
def precedence (grammar : Grammar) (kind : TokenKind) : Precedence :=
  match grammar.infixRule kind with
  | some (precedence, _) => precedence
  | none => .lowest

/-- The grammar of the language. -/
def standard : Grammar where
  prefixRule
    | .identifier => some .identifier
    | .integer => some .integer
    | .string => some .string
    | .trueLiteral | .falseLiteral => some .boolean
    | .dash | .exclamation => some .unary
    | .openParen => some .grouping
    | .kwIf => some .conditional
    | .kwFunc => some .function
    | _ => none
  infixRule
    | .equals | .notEquals => some (.equals, .binary)
    | .less | .greater => some (.lessGreater, .binary)
    | .plus | .dash => some (.sum, .binary)
    | .star | .slash | .percent => some (.product, .binary)
    | .openParen => some (.call, .call)
    | _ => none
  stmtRule
    | .kwVar => some .var
    | .kwReturn => some .ret
    | .kwFunc => some .function
    | .kwEfunc => some .entrypoint
    | .openCurly => some .block
    | _ => none

end Grammar

end LineScript
