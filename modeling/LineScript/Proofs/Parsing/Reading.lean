import LineScript.Proofs.Parsing.Depth

/-!
# Reading one construct

Off the tokens of a construct its parser reads the construct and stops on the last of
them, if a token comes behind that cannot go on it.  Which tokens these are depends on the
construct alone: no operator that binds tighter goes on an operation, and no second block
goes on a conditional.  There is one lemma for each way in which an expression is built.
-/

namespace LineScript

section Reading

open Grammar LineScript.Parser

variable {depth : Nat} {minimum : Precedence} {cursor : Cursor} {last next : Token}
variable {rest : List Token}

/-- A parser that records nothing goes before another. -/
theorem bind_of_silent {α β : Type} {first : Parser α} {reached : Cursor} {value : α}
    (h : first cursor = ⟨.success value, [], reached⟩) (second : α → Parser β) :
    (first >>= second) cursor = second value reached :=
  bind_of_success h second

theorem expect_bind_mk {β : Type} {token : Token} {kind : TokenKind} (h : next.kind = kind)
    (behind : Token → Parser β) :
    (expect kind >>= behind) ⟨token, next :: rest⟩ = behind next ⟨next, rest⟩ := by
  have hpeek : (Cursor.mk token (next :: rest)).peek.kind = kind := h
  exact expect_bind_of_eq hpeek behind

/-- An expression goes on with what the prefix rule of its first token makes. -/
theorem expression_of_prefixRule (hwithin : cursor.Within depth) {rule : PrefixRule}
    (hrule : standard.prefixRule cursor.current.kind = some rule) {operand : Expr}
    {reached : Cursor}
    (hoperand : rule.parser (standard.parts depth) cursor = ⟨.success operand, [], reached⟩) :
    (standard.parts depth).expression minimum cursor =
      (standard.parts depth).operators minimum operand reached := by
  rw [expression_eq hwithin, Parser.expression, current_bind]
  simp only [hrule]
  rw [bind_of_success hoperand]
  rfl

/-- An expression ends before a token that does not bind tighter than asked for. -/
theorem operators_of_not_lt (hwithin : (Cursor.mk last (next :: rest)).Within depth)
    (operand : Expr) (hnext : ¬ minimum < standard.precedence next.kind) :
    (standard.parts depth).operators minimum operand ⟨last, next :: rest⟩ =
      ⟨.success operand, [], ⟨last, next :: rest⟩⟩ := by
  rw [operators_eq hwithin, Parser.operators, peek_bind, ite_eq]
  split
  · rfl
  cases hrule : standard.infixRule next.kind with
  | none => simp [Cursor.peek, hrule]
  | some found =>
      have hprecedence : ¬ minimum < found.1 := by
        simpa [precedence, hrule] using hnext
      simp [Cursor.peek, hrule, hprecedence]

/-- An expression goes on over an operator that binds tighter than asked for. -/
theorem operators_of_lt (hwithin : (Cursor.mk last (next :: rest)).Within depth)
    (operand : Expr) (rule : InfixRule)
    (hrule : standard.infixRule next.kind = some (standard.precedence next.kind, rule))
    (hnext : minimum < standard.precedence next.kind) {joined : Expr} {reached : Cursor}
    (hjoined : rule.parser standard (standard.parts depth) operand ⟨next, rest⟩ =
      ⟨.success joined, [], reached⟩) :
    (standard.parts depth).operators minimum operand ⟨last, next :: rest⟩ =
      (standard.parts depth).operators minimum joined reached := by
  have hline : (Cursor.mk last (next :: rest)).peek.kind ≠ .newline := by
    intro hline
    simp only [Cursor.peek, List.headD_cons] at hline
    simp [hline, standard] at hrule
  rw [operators_eq hwithin, Parser.operators, peek_bind, ite_eq,
    if_neg hline]
  simp only [Cursor.peek, List.headD_cons, hrule, if_pos hnext]
  rw [advance_bind, Cursor.advance, bind_of_success hjoined]
  rfl

/-- Off `tokens` the parser reads `parsed` and then looks for operators, if a token of a kind
that `follows` allows comes behind them. -/
def ReadsBefore (follows : TokenKind → Prop) (depth : Nat) (minimum : Precedence)
    (tokens : List Token) (parsed : Expr) : Prop :=
  ∀ (cursor : Cursor) (next : Token) (rest : List Token), cursor.Within depth →
    cursor.tokens = tokens ++ next :: rest → follows next.kind →
      ∃ before last, tokens = before ++ [last] ∧ cursor.Reaches ⟨last, next :: rest⟩ ∧
        (standard.parts depth).expression minimum cursor =
          (standard.parts depth).operators minimum parsed ⟨last, next :: rest⟩

variable {tokens : List Token} {parsed operand left right callee : Expr} {token : Token}
variable {leftTokens rightTokens : List Token}
variable {follows inner leftInner rightInner : TokenKind → Prop}

theorem reaches_of_tokens_eq {before : List Token}
    (h : cursor.tokens = (before ++ [last]) ++ next :: rest) :
    cursor.Reaches ⟨last, next :: rest⟩ :=
  ⟨before, by rw [Cursor.Passes, h, List.append_assoc]; rfl⟩

theorem tokens_advance_append (token : Token) (tokens : List Token) (next : Token)
    (rest : List Token) :
    (Cursor.mk token (tokens ++ next :: rest)).advance.tokens = tokens ++ next :: rest := by
  cases tokens <;> rfl

/-- What is no operator binds no tighter than anything. -/
theorem not_lt_precedence {kind : TokenKind} (h : standard.infixRule kind = none) :
    ¬ minimum < standard.precedence kind := by
  simp [precedence, h, Precedence.lt_iff_level_lt, Precedence.level]

theorem ReadsBefore.expression_eq (h : ReadsBefore follows depth minimum tokens parsed)
    (hwithin : cursor.Within depth) (htokens : cursor.tokens = tokens ++ next :: rest)
    (hfollows : follows next.kind)
    (hnext : ¬ minimum < standard.precedence next.kind) :
    ∃ before last, tokens = before ++ [last] ∧ cursor.Reaches ⟨last, next :: rest⟩ ∧
      (standard.parts depth).expression minimum cursor =
        ⟨.success parsed, [], ⟨last, next :: rest⟩⟩ := by
  obtain ⟨before, last, hlast, hreaches, hexpression⟩ := h cursor next rest hwithin htokens hfollows
  refine ⟨before, last, hlast, hreaches, ?_⟩
  rw [hexpression, operators_of_not_lt (hwithin.of_reaches hreaches) parsed hnext]

/-- An expression that is read by the prefix rule of its first token. -/
theorem readsBefore_of_prefixRule {rule : PrefixRule}
    (hrule : standard.prefixRule token.kind = some rule)
    (h : ∀ next rest, (Cursor.mk token (tokens ++ next :: rest)).Within depth →
      follows next.kind → ∃ before last, token :: tokens = before ++ [last] ∧
        rule.parser (standard.parts depth) ⟨token, tokens ++ next :: rest⟩ =
          ⟨.success parsed, [], ⟨last, next :: rest⟩⟩) :
    ReadsBefore follows depth minimum (token :: tokens) parsed := by
  intro cursor next rest hwithin htokens hnext
  have hcursor : cursor = ⟨token, tokens ++ next :: rest⟩ := Cursor.eq_of_tokens_eq htokens
  subst hcursor
  obtain ⟨before, last, hlast, hparsed⟩ := h next rest hwithin hnext
  exact ⟨before, last, hlast, reaches_of_tokens_eq (by rw [htokens, hlast]),
    expression_of_prefixRule hwithin hrule hparsed⟩

theorem readsBefore_atom (rule : PrefixRule) (hrule : standard.prefixRule token.kind = some rule)
    (hparsed : ∀ upcoming, rule.parser (standard.parts depth) ⟨token, upcoming⟩ =
      ⟨.success parsed, [], ⟨token, upcoming⟩⟩) :
    ReadsBefore follows depth minimum [token] parsed :=
  readsBefore_of_prefixRule hrule fun _ _ _ _ => ⟨[], token, rfl, hparsed _⟩

theorem readsBefore_unary (hkind : token.kind = .dash ∨ token.kind = .exclamation)
    (h : ReadsBefore inner depth .unary tokens operand)
    (hinner : ∀ kind, follows kind → inner kind ∧ ¬ .unary < standard.precedence kind) :
    ReadsBefore follows depth minimum (token :: tokens) (.unary token token.text operand) := by
  have hrule : standard.prefixRule token.kind = some .unary := by
    rcases hkind with hkind | hkind <;> rw [hkind] <;> rfl
  apply readsBefore_of_prefixRule hrule
  intro next rest hwithin hnext
  obtain ⟨hfollows, htight⟩ := hinner _ hnext
  obtain ⟨before, last, rfl, -, hoperand⟩ := h.expression_eq hwithin.advance
    (tokens_advance_append token tokens next rest) hfollows htight
  refine ⟨token :: before, last, rfl, ?_⟩
  rw [PrefixRule.parser, current_bind, advance_bind, bind_of_silent hoperand]
  rfl

theorem readsBefore_grouping {opening closing : Token} (hopening : opening.kind = .openParen)
    (hclosing : closing.kind = .closeParen) (h : ReadsBefore inner depth .lowest tokens parsed)
    (hinner : inner .closeParen) :
    ReadsBefore follows depth minimum (opening :: (tokens ++ [closing])) parsed := by
  have hrule : standard.prefixRule opening.kind = some .grouping := by rw [hopening]; rfl
  have hloose : ¬ .lowest < standard.precedence closing.kind :=
    not_lt_precedence (by rw [hclosing]; rfl)
  apply readsBefore_of_prefixRule hrule
  intro next rest hwithin _
  rw [List.append_assoc, List.singleton_append] at hwithin ⊢
  obtain ⟨before, last, rfl, -, hoperand⟩ := h.expression_eq hwithin.advance
    (tokens_advance_append opening tokens closing (next :: rest)) (by rwa [hclosing]) hloose
  refine ⟨opening :: (before ++ [last]), closing, by simp, ?_⟩
  rw [PrefixRule.parser, advance_bind, bind_of_silent hoperand, expect_bind_mk hclosing]
  rfl

theorem infixRule_of_mem_binaryKinds (h : token.kind ∈ binaryKinds) :
    standard.infixRule token.kind = some (standard.precedence token.kind, .binary) := by
  have hall : ∀ kind ∈ binaryKinds,
      standard.infixRule kind = some (standard.precedence kind, .binary) := by decide
  exact hall _ h

theorem readsBefore_binary (hkind : token.kind ∈ binaryKinds)
    (hminimum : minimum < standard.precedence token.kind)
    (hleft : ReadsBefore leftInner depth minimum leftTokens left)
    (hleftInner : leftInner token.kind)
    (hright : ReadsBefore rightInner depth (standard.precedence token.kind) rightTokens right)
    (hrightInner : ∀ kind, follows kind →
      rightInner kind ∧ ¬ standard.precedence token.kind < standard.precedence kind) :
    ReadsBefore follows depth minimum (leftTokens ++ token :: rightTokens)
      (.binary token left token.text right) := by
  intro cursor next rest hwithin htokens hnext
  obtain ⟨before, last, rfl, hreaches, hexpression⟩ :=
    hleft cursor token (rightTokens ++ next :: rest) hwithin (by simp [htokens]) hleftInner
  have hoperator : (Cursor.mk token (rightTokens ++ next :: rest)).Within depth :=
    (hwithin.of_reaches hreaches).advance
  have hfirst := tokens_advance_append token rightTokens next rest
  obtain ⟨behind, final, rfl, hrest, hoperand⟩ :=
    hright.expression_eq hoperator.advance hfirst (hrightInner _ hnext).1 (hrightInner _ hnext).2
  refine ⟨before ++ [last] ++ token :: behind, final, by simp, ?_, ?_⟩
  · exact hreaches.trans ((Cursor.reaches_advance _).trans ((Cursor.reaches_advance _).trans hrest))
  · rw [hexpression]
    apply operators_of_lt (hwithin.of_reaches hreaches) left .binary
      (infixRule_of_mem_binaryKinds hkind) hminimum
    rw [InfixRule.parser, current_bind, advance_bind, bind_of_success hoperand]
    rfl

/-- Off `tokens`, which begin an argument list, the parser reads `arguments` up to a closing
parenthesis. -/
def ReadsList (depth : Nat) (tokens : List Token) (arguments : List Expr) : Prop :=
  ∀ (cursor : Cursor) (closing : Token) (rest : List Token), cursor.Within depth →
    cursor.tokens = tokens ++ closing :: rest → closing.kind = .closeParen →
      ∃ before last, tokens = before ++ [last] ∧ cursor.Reaches ⟨last, closing :: rest⟩ ∧
        (standard.parts depth).arguments cursor =
          ⟨.success arguments, [], ⟨last, closing :: rest⟩⟩

theorem readsList_singleton (h : ReadsBefore inner depth .lowest tokens parsed)
    (hinner : inner .closeParen) : ReadsList depth tokens [parsed] := by
  intro cursor closing rest hwithin htokens hclosing
  have hloose : ¬ .lowest < standard.precedence closing.kind :=
    not_lt_precedence (by rw [hclosing]; rfl)
  obtain ⟨before, last, rfl, hreaches, hexpression⟩ :=
    h.expression_eq hwithin htokens (by rwa [hclosing]) hloose
  refine ⟨before, last, rfl, hreaches, ?_⟩
  rw [arguments_eq hwithin, Parser.arguments, bind_of_success hexpression,
    beforeKind_bind]
  simp [Cursor.peek, hclosing]

theorem readsList_cons {arguments : List Expr} {comma : Token} {others : List Token}
    (hcomma : comma.kind = .comma) (h : ReadsBefore inner depth .lowest tokens parsed)
    (hinner : inner .comma) (hothers : ReadsList depth others arguments) :
    ReadsList depth (tokens ++ comma :: others) (parsed :: arguments) := by
  intro cursor closing rest hwithin htokens hclosing
  have hloose : ¬ .lowest < standard.precedence comma.kind :=
    not_lt_precedence (by rw [hcomma]; rfl)
  have hsplit : cursor.tokens = tokens ++ comma :: (others ++ closing :: rest) := by
    simp [htokens]
  obtain ⟨before, last, rfl, hreaches, hexpression⟩ :=
    h.expression_eq hwithin hsplit (by rwa [hcomma]) hloose
  have hfirst := tokens_advance_append comma others closing rest
  obtain ⟨behind, final, rfl, hrest, hlist⟩ :=
    hothers _ closing rest (hwithin.of_reaches hreaches).advance.advance hfirst hclosing
  refine ⟨before ++ [last] ++ comma :: behind, final, by simp, ?_, ?_⟩
  · exact hreaches.trans ((Cursor.reaches_advance _).trans ((Cursor.reaches_advance _).trans hrest))
  · rw [arguments_eq hwithin, Parser.arguments, bind_of_success hexpression,
      beforeKind_bind]
    simp only [Cursor.peek, List.headD_cons, hcomma, decide_true, if_true]
    rw [advance_bind, advance_bind, bind_of_success hlist]
    rfl

theorem readsBefore_call_nil {closing : Token} (hkind : token.kind = .openParen)
    (hclosing : closing.kind = .closeParen) (hminimum : minimum < .call)
    (hcallee : ReadsBefore inner depth minimum leftTokens callee) (hinner : inner .openParen) :
    ReadsBefore follows depth minimum (leftTokens ++ token :: [closing])
      (.call token callee []) := by
  intro cursor next rest hwithin htokens _
  have hprecedence : standard.precedence token.kind = .call := by simp [hkind, standard, precedence]
  obtain ⟨before, last, rfl, hreaches, hexpression⟩ :=
    hcallee cursor token (closing :: next :: rest) hwithin (by simp [htokens])
      (by rwa [hkind])
  refine ⟨before ++ [last] ++ [token], closing, by simp, ?_, ?_⟩
  · exact hreaches.trans ((Cursor.reaches_advance _).trans (Cursor.reaches_advance _))
  · rw [hexpression]
    apply operators_of_lt (hwithin.of_reaches hreaches) callee .call
      (by simp [hkind, standard, precedence]) (by rwa [hprecedence])
    rw [InfixRule.parser, current_bind, beforeKind_bind]
    simp [Cursor.peek, hclosing, Cursor.advance]

theorem readsBefore_call {closing first : Token} {others : List Token} {arguments : List Expr}
    (hkind : token.kind = .openParen) (hclosing : closing.kind = .closeParen)
    (hminimum : minimum < .call) (hcallee : ReadsBefore inner depth minimum leftTokens callee)
    (hinner : inner .openParen) (hlist : ReadsList depth (first :: others) arguments)
    (hfirst : first.kind ≠ .closeParen) :
    ReadsBefore follows depth minimum (leftTokens ++ token :: (first :: others ++ [closing]))
      (.call token callee arguments) := by
  intro cursor next rest hwithin htokens _
  have hprecedence : standard.precedence token.kind = .call := by simp [hkind, standard, precedence]
  obtain ⟨before, last, rfl, hreaches, hexpression⟩ :=
    hcallee cursor token (first :: others ++ closing :: next :: rest) hwithin (by simp [htokens])
      (by rwa [hkind])
  have hopening : (Cursor.mk token (first :: others ++ closing :: next :: rest)).Within depth :=
    (hwithin.of_reaches hreaches).advance
  obtain ⟨behind, final, hfinal, hrest, harguments⟩ :=
    hlist _ closing (next :: rest) hopening.advance rfl hclosing
  have hpeek : (Cursor.mk final (closing :: next :: rest)).peek.kind = .closeParen := hclosing
  have hargument : (Cursor.mk token (first :: others ++ closing :: next :: rest)).peek.kind ≠
      .closeParen := hfirst
  refine ⟨before ++ [last] ++ token :: (first :: others), closing, by simp, ?_, ?_⟩
  · exact hreaches.trans ((Cursor.reaches_advance _).trans ((Cursor.reaches_advance _).trans
      (hrest.trans (Cursor.reaches_advance _))))
  · rw [hexpression]
    apply operators_of_lt (hwithin.of_reaches hreaches) callee .call
      (by simp [hkind, standard, precedence]) (by rwa [hprecedence])
    rw [InfixRule.parser, current_bind, beforeKind_bind]
    simp only [hargument, decide_false, Bool.false_eq_true, if_false]
    rw [advance_bind, bind_of_success harguments, expect_bind_of_eq hpeek]
    rfl

end Reading

end LineScript
