import LineScript.Grammar

/-!
# The kinds that have rules

Which kinds of token a construct of the standard grammar can begin or go on with.  Only
blocks begin with a brace, and only groups and arguments with a parenthesis; nothing
begins with a line end or at the end of input.
-/

namespace LineScript

namespace TokenKind

/-- Whether a kind neither nests, nor ends a line or the input. -/
def isPlain : TokenKind → Bool
  | .openCurly | .closeCurly | .newline | .endOfInput => false
  | _ => true

theorem isPlain_iff {kind : TokenKind} :
    kind.isPlain ↔
      kind ≠ .openCurly ∧ kind ≠ .closeCurly ∧ kind ≠ .newline ∧ kind ≠ .endOfInput := by
  cases kind <;> simp [isPlain]

theorem ne_endOfInput_of_isPlain {kind : TokenKind} (h : kind.isPlain) : kind ≠ .endOfInput :=
  (isPlain_iff.mp h).2.2.2

/-- Whether tokens of a kind only stand around and between the parts of a construct. -/
def isSeparator : TokenKind → Bool
  | .openParen | .closeParen | .comma | .assignment | .kwElse => true
  | _ => false

theorem isPlain_of_isSeparator {kind : TokenKind} (h : kind.isSeparator) : kind.isPlain := by
  cases kind <;> first | rfl | cases h

end TokenKind

namespace Grammar

variable {kind : TokenKind} {precedence : Precedence}

theorem isPlain_of_prefixRule {rule : PrefixRule} (h : standard.prefixRule kind = some rule) :
    kind.isPlain := by
  cases kind <;> first | rfl | cases h

theorem isPlain_of_infixRule {rule : InfixRule}
    (h : standard.infixRule kind = some (precedence, rule)) : kind.isPlain := by
  cases kind <;> first | rfl | cases h

end Grammar

/-! ## The kinds that a rule begins with -/

/-- The kinds of the binary operators. -/
def Grammar.binaryKinds : List TokenKind :=
  [.equals, .notEquals, .less, .greater, .plus, .dash, .star, .slash, .percent]

/-- The kinds of token that an expression begins with by a rule. -/
def PrefixRule.kinds : PrefixRule → List TokenKind
  | identifier => [.identifier]
  | integer => [.integer]
  | string => [.string]
  | boolean => [.trueLiteral, .falseLiteral]
  | unary => [.dash, .exclamation]
  | grouping => [.openParen]
  | conditional => [.kwIf]
  | function => [.kwFunc]

/-- The kinds of token that an expression goes on with by a rule. -/
def InfixRule.kinds : InfixRule → List TokenKind
  | binary => Grammar.binaryKinds
  | call => [.openParen]

/-- The kinds of token that a statement begins with by a rule. -/
def StmtRule.kinds : StmtRule → List TokenKind
  | expression => []
  | var => [.kwVar]
  | ret => [.kwReturn]
  | function => [.kwFunc]
  | entrypoint => [.kwEfunc]
  | block => [.openCurly]

namespace Grammar

variable {kind : TokenKind}

theorem mem_kinds_of_prefixRule {rule : PrefixRule} (h : standard.prefixRule kind = some rule) :
    kind ∈ rule.kinds := by
  cases kind <;> cases h <;> decide

theorem mem_kinds_of_infixRule {precedence : Precedence} {rule : InfixRule}
    (h : standard.infixRule kind = some (precedence, rule)) : kind ∈ rule.kinds := by
  cases kind <;> cases h <;> decide

theorem mem_kinds_of_stmtRule {rule : StmtRule} (h : standard.stmtRule kind = some rule) :
    kind ∈ rule.kinds := by
  cases kind <;> cases h <;> decide

theorem precedence_lt_unary (h : kind ∈ binaryKinds) : standard.precedence kind < .unary := by
  have hall : ∀ kind ∈ binaryKinds, standard.precedence kind < .unary := by decide
  exact hall kind h

end Grammar

end LineScript
