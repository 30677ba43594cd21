import LineScript.Proofs.Parsing.Reading

/-!
# Reading blocks, functions and statements

A block ends with its own closing brace, and so does everything that ends with a block,
whatever comes behind it.  Other statements end at a line end, which they take, or in front
of the closing brace of the block around them.
-/

namespace LineScript

open Grammar LineScript.Parser

/-- Off `tokens` the parser takes all of them and gives `value`, whatever comes behind. -/
def Parser.Takes {α : Type} (parser : Parser α) (depth : Nat) (tokens : List Token) (value : α) :
    Prop :=
  ∀ (cursor : Cursor) (next : Token) (rest : List Token), cursor.Within depth →
    cursor.tokens = tokens ++ next :: rest →
      ∃ before last, tokens = before ++ [last] ∧
        parser cursor = ⟨.success value, [], ⟨last, next :: rest⟩⟩

/-- The parser reads `tokens`, which are all the tokens of a statement, and gives `parsed`.  A
line end behind them is taken as well where the statement ends with an expression. -/
def ReadsStmt (depth : Nat) (tokens : List Token) (parsed : Stmt) : Prop :=
  ∀ (cursor : Cursor) (next : Token) (rest : List Token), cursor.Within depth →
    cursor.tokens = tokens ++ next :: rest → next.kind = .newline ∨ next.kind = .closeCurly →
      ∃ reached, cursor.Reaches reached ∧
        Parser.statement standard (standard.parts depth) cursor =
          ⟨.success (some parsed), [], reached⟩ ∧
        (reached.advance = ⟨next, rest⟩ ∨ next.kind = .newline ∧ reached = ⟨next, rest⟩)

section

variable {depth : Nat} {minimum : Precedence} {cursor reached last : Cursor} {next token : Token}
variable {tokens rest blockTokens : List Token} {statements others : List Stmt} {block : Block}

/-! ## Blocks -/

theorem statements_of_closeCurly (h : cursor.Within depth)
    (hclosing : cursor.current.kind = .closeCurly) :
    (standard.parts depth).statements cursor = ⟨.success [], [], cursor⟩ := by
  rw [statements_eq h, Parser.statements, statementsBy, current_bind]
  simp [hclosing]

/-- The kinds that no statement begins with. -/
def stmtStops : List TokenKind := [.closeCurly, .endOfInput, .newline]

theorem statements_of_statement (h : cursor.Within depth)
    (hfirst : cursor.current.kind ∉ stmtStops) {statement : Stmt}
    (hstatement : Parser.statement standard (standard.parts depth) cursor =
      ⟨.success (some statement), [], reached⟩)
    (hothers : (standard.parts depth).statements reached.advance = ⟨.success others, [], last⟩) :
    (standard.parts depth).statements cursor = ⟨.success (statement :: others), [], last⟩ := by
  simp only [stmtStops, List.mem_cons, List.not_mem_nil, or_false, not_or] at hfirst
  rw [statements_eq h, Parser.statements, statementsBy, current_bind]
  simp [hfirst, bind_of_success (attempt_of_success hstatement), bind_of_success hothers]

theorem block_of_statements (hfirst : cursor.peek.kind ≠ .newline)
    (hstatements : (standard.parts depth).statements cursor.advance =
      ⟨.success statements, [], reached⟩)
    (hreached : reached.current.kind ≠ .endOfInput) :
    Parser.block (standard.parts depth) cursor =
      ⟨.success ⟨cursor.current, statements⟩, [], reached⟩ := by
  have hskip : skipLineEnd cursor.advance = ⟨.success (), [], cursor.advance⟩ := by
    rw [skipLineEnd, atKind_bind]
    simp [hfirst]
  have hbody : blockBody (standard.parts depth) cursor.advance =
      ⟨.success statements, [], reached⟩ := by
    rw [blockBody, bind_of_success hstatements, current_bind]
    simp [hreached]
  rw [Parser.block, current_bind, advance_bind, bind_of_success hskip, bind_of_success hbody]
  rfl

theorem takes_block_nil {opening closing : Token} (hclosing : closing.kind = .closeCurly) :
    (Parser.block (standard.parts depth)).Takes depth [opening, closing] ⟨opening, []⟩ := by
  intro cursor next rest hwithin htokens
  have hcursor : cursor = ⟨opening, closing :: next :: rest⟩ := Cursor.eq_of_tokens_eq htokens
  subst hcursor
  refine ⟨[opening], closing, rfl, ?_⟩
  exact block_of_statements (by simp [Cursor.peek, hclosing])
    (statements_of_closeCurly hwithin.advance hclosing) (by simp [hclosing])

theorem takes_block_singleton {opening closing first : Token} {statement : Stmt}
    (hclosing : closing.kind = .closeCurly) (hfirst : first.kind ∉ stmtStops)
    (h : ReadsStmt depth (first :: tokens) statement) :
    (Parser.block (standard.parts depth)).Takes depth (opening :: (first :: tokens ++ [closing]))
      ⟨opening, [statement]⟩ := by
  intro cursor next rest hwithin htokens
  have hcursor : cursor = ⟨opening, first :: (tokens ++ closing :: next :: rest)⟩ :=
    Cursor.eq_of_tokens_eq (htokens.trans (by simp [Cursor.tokens]))
  subst hcursor
  obtain ⟨reached, hreaches, hstatement, hreached⟩ :=
    h _ closing (next :: rest) hwithin.advance rfl (.inr hclosing)
  have hbehind : reached.advance = ⟨closing, next :: rest⟩ := by
    rcases hreached with hreached | ⟨hline, -⟩
    · exact hreached
    · rw [hclosing] at hline
      cases hline
  have hothers : (standard.parts depth).statements reached.advance =
      ⟨.success [], [], ⟨closing, next :: rest⟩⟩ := by
    have hafter := (hwithin.advance.of_reaches hreaches).advance
    rw [hbehind] at hafter ⊢
    exact statements_of_closeCurly hafter hclosing
  refine ⟨opening :: first :: tokens, closing, by simp, ?_⟩
  apply block_of_statements ?_ (statements_of_statement hwithin.advance hfirst hstatement hothers)
    (by simp [hclosing])
  simp only [stmtStops, List.mem_cons, List.not_mem_nil, or_false, not_or] at hfirst
  exact hfirst.2.2

/-! ## Functions -/

/-- Between parentheses the parser reads `parameters` off `tokens`. -/
def ReadsParameters (depth : Nat) (tokens : List Token) (parameters : List Parameter) : Prop :=
  ∀ (opening closing : Token) (rest : List Token),
    (Cursor.mk opening (tokens ++ closing :: rest)).Within depth → closing.kind = .closeParen →
      parameterList (standard.parts depth) ⟨opening, tokens ++ closing :: rest⟩ =
        ⟨.success parameters, [], ⟨closing, rest⟩⟩

/-- In front of a closing parenthesis the parser reads `parameters` off `tokens`. -/
def ReadsSomeParameters (depth : Nat) (tokens : List Token) (parameters : List Parameter) :
    Prop :=
  ∀ (opening closing : Token) (rest : List Token),
    (Cursor.mk opening (tokens ++ closing :: rest)).Within depth → closing.kind = .closeParen →
      ∃ last, (standard.parts depth).parameters ⟨opening, tokens ++ closing :: rest⟩ =
        ⟨.success parameters, [], ⟨last, closing :: rest⟩⟩

variable {type name comma : Token} {parameters : List Parameter}

theorem parameter_eq (htype : type.kind = .typeName) (hname : name.kind = .identifier) :
    Parser.parameter ⟨token, type :: name :: rest⟩ =
      ⟨.success ⟨TypeName.ofToken type, Name.ofToken name⟩, [], ⟨name, rest⟩⟩ := by
  have hfirst : (Cursor.mk token (type :: name :: rest)).peek.kind = .typeName := htype
  have hsecond : (Cursor.mk type (name :: rest)).peek.kind = .identifier := hname
  rw [Parser.parameter, expect_bind_of_eq hfirst]
  exact expect_bind_of_eq hsecond _

theorem readsSomeParameters_singleton (htype : type.kind = .typeName)
    (hname : name.kind = .identifier) :
    ReadsSomeParameters depth [type, name] [⟨TypeName.ofToken type, Name.ofToken name⟩] := by
  intro opening closing rest hwithin hclosing
  have hfirst : Parser.parameter ⟨opening, type :: name :: closing :: rest⟩ = _ :=
    parameter_eq htype hname
  refine ⟨name, ?_⟩
  rw [parameters_eq hwithin, Parser.parameters]
  show (Parser.parameter >>= _) ⟨opening, type :: name :: closing :: rest⟩ = _
  rw [bind_of_success hfirst, beforeKind_bind]
  simp [Cursor.peek, hclosing]

theorem readsSomeParameters_cons (htype : type.kind = .typeName) (hname : name.kind = .identifier)
    (hcomma : comma.kind = .comma) (h : ReadsSomeParameters depth tokens parameters) :
    ReadsSomeParameters depth (type :: name :: comma :: tokens)
      (⟨TypeName.ofToken type, Name.ofToken name⟩ :: parameters) := by
  intro opening closing rest hwithin hclosing
  have hfirst : Parser.parameter ⟨opening, type :: name :: comma :: (tokens ++ closing :: rest)⟩ =
    _ := parameter_eq htype hname
  have hafter : (Cursor.mk comma (tokens ++ closing :: rest)).Within depth :=
    hwithin.advance.advance.advance
  obtain ⟨last, hothers⟩ := h comma closing rest hafter hclosing
  refine ⟨last, ?_⟩
  rw [parameters_eq hwithin, Parser.parameters]
  show (Parser.parameter >>= _) ⟨opening, type :: name :: comma :: (tokens ++ closing :: rest)⟩ = _
  rw [bind_of_success hfirst, beforeKind_bind]
  simp [Cursor.peek, Cursor.advance, hcomma, bind_of_success hothers]

theorem readsParameters_nil : ReadsParameters depth [] [] := by
  intro opening closing rest hwithin hclosing
  rw [parameterList, beforeKind_bind]
  simp [Cursor.peek, Cursor.advance, hclosing]

theorem ReadsSomeParameters.readsParameters {first : Token}
    (h : ReadsSomeParameters depth (first :: tokens) parameters)
    (hfirst : first.kind ≠ .closeParen) :
    ReadsParameters depth (first :: tokens) parameters := by
  intro opening closing rest hwithin hclosing
  obtain ⟨last, hsome⟩ := h opening closing rest hwithin hclosing
  have hopening : (Cursor.mk opening (first :: tokens ++ closing :: rest)).peek.kind ≠
      .closeParen := hfirst
  have hlast : (Cursor.mk last (closing :: rest)).peek.kind = .closeParen := hclosing
  rw [parameterList, beforeKind_bind]
  simp only [hopening, decide_false, Bool.false_eq_true, if_false]
  rw [bind_of_success hsome, expect_bind_of_eq hlast]
  rfl

/-- In front of a body the parser reads the return type off `tokens`, if there is one. -/
inductive ReadsType : List Token → Option TypeName → Prop where
  | none : ReadsType [] none
  | some {type : Token} (h : type.kind = .typeName) :
    ReadsType [type] (some (TypeName.ofToken type))

theorem ReadsType.exists_returnType {returnType : Option TypeName} (h : ReadsType tokens returnType)
    (hnext : next.kind = .openCurly) :
    ∃ last, Parser.returnType ⟨token, tokens ++ next :: rest⟩ =
      ⟨.success returnType, [], ⟨last, next :: rest⟩⟩ := by
  cases h with
  | none =>
      refine ⟨token, ?_⟩
      rw [Parser.returnType, beforeKind_bind]
      simp [Cursor.peek, hnext]
  | @some type htype =>
      refine ⟨type, ?_⟩
      rw [Parser.returnType, beforeKind_bind]
      simp [Cursor.peek, Cursor.advance, htype]

/-- A body, whose first token is an opening brace. -/
structure ReadsBody (depth : Nat) (tokens : List Token) (body : Block) : Prop where
  exists_brace : ∃ brace others, tokens = brace :: others ∧ brace.kind = .openCurly
  takes : (Parser.block (standard.parts depth)).Takes depth tokens body

/-- Behind a token that is passed over, a body is taken with its opening brace. -/
theorem ReadsBody.exists_expect (h : ReadsBody depth tokens block) {passed : List Token}
    (hwithin : cursor.Within depth) (htokens : cursor.tokens = passed ++ (tokens ++ next :: rest)) :
    ∃ before last, tokens = before ++ [last] ∧
      ∀ {α : Type} (token : Token) (behind : Block → Parser α),
        (expect .openCurly >>= fun _ => Parser.block (standard.parts depth) >>= behind)
            ⟨token, tokens ++ next :: rest⟩ =
          behind block ⟨last, next :: rest⟩ := by
  obtain ⟨⟨brace, others, rfl, hbrace⟩, htakes⟩ := h
  have hbody : (Cursor.mk brace (others ++ next :: rest)).Within depth :=
    hwithin.of_reaches ⟨passed, htokens⟩
  obtain ⟨before, last, hlast, hblock⟩ := htakes _ next rest hbody rfl
  refine ⟨before, last, hlast, fun token behind => ?_⟩
  rw [List.cons_append, expect_bind_mk hbrace, bind_of_silent hblock]

theorem takes_functionDefinition {opening closing : Token} {list typeTokens : List Token}
    {returnType : Option TypeName} (hname : name.kind = .identifier)
    (hopening : opening.kind = .openParen) (hclosing : closing.kind = .closeParen)
    (hlist : ReadsParameters depth list parameters) (htype : ReadsType typeTokens returnType)
    (hbody : ReadsBody depth blockTokens block) :
    (functionDefinition (standard.parts depth)).Takes depth
      (token :: name :: opening :: (list ++ closing :: (typeTokens ++ blockTokens)))
      ⟨token, Name.ofToken name, parameters, returnType, block⟩ := by
  intro cursor next rest hwithin htokens
  have hcursor : cursor = ⟨token, name :: opening ::
      (list ++ closing :: (typeTokens ++ (blockTokens ++ next :: rest)))⟩ :=
    Cursor.eq_of_tokens_eq (htokens.trans (by simp [Cursor.tokens]))
  subst hcursor
  have hparameters := hlist opening closing (typeTokens ++ (blockTokens ++ next :: rest))
    hwithin.advance.advance hclosing
  obtain ⟨lastType, hreturnType⟩ : ∃ last, Parser.returnType
      ⟨closing, typeTokens ++ (blockTokens ++ next :: rest)⟩ =
        ⟨.success returnType, [], ⟨last, blockTokens ++ next :: rest⟩⟩ := by
    obtain ⟨brace, others, rfl, hbrace⟩ := hbody.exists_brace
    exact htype.exists_returnType hbrace
  have hpassed : token :: name :: opening ::
      (list ++ closing :: (typeTokens ++ (blockTokens ++ next :: rest))) =
        (token :: name :: opening :: (list ++ closing :: typeTokens)) ++
          (blockTokens ++ next :: rest) := by simp
  obtain ⟨before, last, rfl, hbehind⟩ := hbody.exists_expect hwithin hpassed
  refine ⟨token :: name :: opening :: (list ++ closing :: (typeTokens ++ before)), last,
    by simp, ?_⟩
  rw [functionDefinition, current_bind, expect_bind_mk hname, expect_bind_mk hopening,
    bind_of_silent hparameters, bind_of_silent hreturnType, hbehind]
  rfl

/-- A function in an expression. -/
theorem readsBefore_function {follows : TokenKind → Prop} {definition : FunctionDefinition}
    (hkind : token.kind = .kwFunc)
    (h : (functionDefinition (standard.parts depth)).Takes depth (token :: tokens) definition) :
    ReadsBefore follows depth minimum (token :: tokens) (.function definition) := by
  have hrule : standard.prefixRule token.kind = some .function := by rw [hkind]; rfl
  apply readsBefore_of_prefixRule hrule
  intro next rest hwithin _
  obtain ⟨before, last, hlast, hdefinition⟩ := h _ next rest hwithin rfl
  refine ⟨before, last, hlast, ?_⟩
  rw [PrefixRule.parser, bind_of_silent hdefinition]
  rfl

/-! ## Conditionals -/

section

variable {inner : TokenKind → Prop} {opening closing word : Token} {conditionTokens : List Token}
variable {condition : Expr} {alternativeTokens : List Token} {alternative : Block}

/-- The condition and the first block of a conditional. -/
theorem exists_conditional (hopening : opening.kind = .openParen)
    (hclosing : closing.kind = .closeParen)
    (hcondition : ReadsBefore inner depth .lowest conditionTokens condition)
    (hinner : inner .closeParen) (hbody : ReadsBody depth blockTokens block)
    (hwithin : (Cursor.mk token
      (opening :: (conditionTokens ++ closing :: (blockTokens ++ next :: rest)))).Within depth) :
    ∃ before last, blockTokens = before ++ [last] ∧
      conditional (standard.parts depth)
          ⟨token, opening :: (conditionTokens ++ closing :: (blockTokens ++ next :: rest))⟩ =
        (do
          if ← beforeKind .kwElse then
            advance
            let _ ← expect .openCurly
            let alternative ← Parser.block (standard.parts depth)
            return .conditional token condition block (some alternative)
          else return .conditional token condition block none : Parser Expr)
          ⟨last, next :: rest⟩ := by
  have hloose : ¬ .lowest < standard.precedence closing.kind :=
    not_lt_precedence (by rw [hclosing]; rfl)
  have hfirst := tokens_advance_append opening conditionTokens closing (blockTokens ++ next :: rest)
  have hinside : (Cursor.mk opening
      (conditionTokens ++ closing :: (blockTokens ++ next :: rest))).advance.Within depth :=
    hwithin.advance.advance
  obtain ⟨_, lastCondition, -, -, hexpression⟩ :=
    hcondition.expression_eq hinside hfirst (by rwa [hclosing]) hloose
  have hpassed : token :: opening :: (conditionTokens ++ closing :: (blockTokens ++ next :: rest)) =
      (token :: opening :: (conditionTokens ++ [closing])) ++ (blockTokens ++ next :: rest) := by
    simp
  obtain ⟨before, last, hlast, hbehind⟩ := hbody.exists_expect hwithin hpassed
  refine ⟨before, last, hlast, ?_⟩
  rw [conditional, current_bind, expect_bind_mk hopening, advance_bind, bind_of_silent hexpression,
    expect_bind_mk hclosing, hbehind]

theorem readsBefore_conditional (hkind : token.kind = .kwIf) (hopening : opening.kind = .openParen)
    (hclosing : closing.kind = .closeParen)
    (hcondition : ReadsBefore inner depth .lowest conditionTokens condition)
    (hinner : inner .closeParen) (hbody : ReadsBody depth blockTokens block) :
    ReadsBefore (· ≠ .kwElse) depth minimum
      (token :: opening :: (conditionTokens ++ closing :: blockTokens))
      (.conditional token condition block none) := by
  have hrule : standard.prefixRule token.kind = some .conditional := by rw [hkind]; rfl
  apply readsBefore_of_prefixRule hrule
  intro next rest hwithin hnext
  rw [List.cons_append, List.append_assoc, List.cons_append] at hwithin ⊢
  obtain ⟨before, last, rfl, hconditional⟩ :=
    exists_conditional hopening hclosing hcondition hinner hbody hwithin
  refine ⟨token :: opening :: (conditionTokens ++ closing :: before), last, by simp, ?_⟩
  rw [PrefixRule.parser, hconditional, beforeKind_bind]
  simp [Cursor.peek, hnext]

theorem readsBefore_alternative {follows : TokenKind → Prop} (hkind : token.kind = .kwIf)
    (hopening : opening.kind = .openParen) (hclosing : closing.kind = .closeParen)
    (hword : word.kind = .kwElse)
    (hcondition : ReadsBefore inner depth .lowest conditionTokens condition)
    (hinner : inner .closeParen) (hbody : ReadsBody depth blockTokens block)
    (halternative : ReadsBody depth alternativeTokens alternative) :
    ReadsBefore follows depth minimum
      (token :: opening ::
        (conditionTokens ++ closing :: (blockTokens ++ word :: alternativeTokens)))
      (.conditional token condition block (some alternative)) := by
  have hrule : standard.prefixRule token.kind = some .conditional := by rw [hkind]; rfl
  apply readsBefore_of_prefixRule hrule
  intro next rest hwithin _
  simp only [List.cons_append, List.append_assoc] at hwithin ⊢
  obtain ⟨_, lastBlock, -, hconditional⟩ :=
    exists_conditional hopening hclosing hcondition hinner hbody hwithin
  have hpassed : token :: opening :: (conditionTokens ++ closing ::
      (blockTokens ++ word :: (alternativeTokens ++ next :: rest))) =
      (token :: opening :: (conditionTokens ++ closing :: (blockTokens ++ [word]))) ++
        (alternativeTokens ++ next :: rest) := by simp
  obtain ⟨before, last, rfl, hbehind⟩ := halternative.exists_expect hwithin hpassed
  refine ⟨token :: opening :: (conditionTokens ++ closing :: (blockTokens ++ word :: before)),
    last, by simp, ?_⟩
  rw [PrefixRule.parser, hconditional, beforeKind_bind]
  simp only [Cursor.peek, List.headD_cons, hword, decide_true, if_true]
  rw [advance_bind, Cursor.advance, hbehind]
  rfl

end

/-! ## Statements -/

section

variable {parsed : Stmt} {value : Expr} {inner : TokenKind → Prop} {first : Token}
variable {valueTokens : List Token}

theorem readsStmt_of_stmtRule {rule : StmtRule}
    (hrule : (standard.stmtRule token.kind).getD .expression = rule)
    (hline : token.kind ≠ .newline)
    (h : ∀ next rest, (Cursor.mk token (tokens ++ next :: rest)).Within depth →
      next.kind = .newline ∨ next.kind = .closeCurly →
        ∃ reached, (Cursor.mk token (tokens ++ next :: rest)).Reaches reached ∧
          rule.parser (standard.parts depth) ⟨token, tokens ++ next :: rest⟩ =
            ⟨.success parsed, [], reached⟩ ∧
          (reached.advance = ⟨next, rest⟩ ∨ next.kind = .newline ∧ reached = ⟨next, rest⟩)) :
    ReadsStmt depth (token :: tokens) parsed := by
  intro cursor next rest hwithin htokens hnext
  have hcursor : cursor = ⟨token, tokens ++ next :: rest⟩ := Cursor.eq_of_tokens_eq htokens
  subst hcursor
  obtain ⟨reached, hreaches, hparsed, hreached⟩ := h next rest hwithin hnext
  refine ⟨reached, hreaches, ?_, hreached⟩
  rw [Parser.statement, current_bind, ite_eq, if_neg hline, hrule, bind_of_silent hparsed]
  rfl

/-- A statement that ends with a block. -/
theorem readsStmt_of_takes {rule : StmtRule}
    (hrule : (standard.stmtRule token.kind).getD .expression = rule)
    (hline : token.kind ≠ .newline)
    (h : (rule.parser (standard.parts depth)).Takes depth (token :: tokens) parsed) :
    ReadsStmt depth (token :: tokens) parsed := by
  apply readsStmt_of_stmtRule hrule hline
  intro next rest hwithin _
  obtain ⟨before, last, hlast, hparsed⟩ := h _ next rest hwithin rfl
  have htokens : (Cursor.mk token (tokens ++ next :: rest)).tokens =
      (before ++ [last]) ++ next :: rest := by
    rw [← hlast]
    rfl
  exact ⟨_, reaches_of_tokens_eq htokens, hparsed, .inl rfl⟩

/-- A value takes the line end behind it. -/
theorem exists_lineEnd {α : Type} (result : α) (start : Token) :
    ∃ reached, (Cursor.mk start (next :: rest)).Reaches reached ∧
      (lineEnd >>= fun _ => pure result) ⟨start, next :: rest⟩ = ⟨.success result, [], reached⟩ ∧
      (reached.advance = ⟨next, rest⟩ ∨ next.kind = .newline ∧ reached = ⟨next, rest⟩) := by
  by_cases hnext : next.kind = .newline
  · have hline : lineEnd ⟨start, next :: rest⟩ = ⟨.success (), [], ⟨next, rest⟩⟩ := by
      rw [lineEnd, beforeKind_bind]
      simp [Cursor.peek, hnext, advance, Cursor.advance]
    exact ⟨⟨next, rest⟩, Cursor.reaches_advance ⟨start, next :: rest⟩,
      bind_of_silent hline _, .inr ⟨hnext, rfl⟩⟩
  · have hline : lineEnd ⟨start, next :: rest⟩ = ⟨.success (), [], ⟨start, next :: rest⟩⟩ := by
      rw [lineEnd, beforeKind_bind]
      simp [Cursor.peek, hnext]
    exact ⟨⟨start, next :: rest⟩, .refl _, bind_of_silent hline _, .inl rfl⟩

/-- A value and the line end behind it. -/
theorem exists_value {α : Type} (result : Expr → α)
    (h : ReadsBefore inner depth .lowest tokens value)
    (hinner : inner .newline ∧ inner .closeCurly) (hwithin : cursor.Within depth)
    (htokens : cursor.tokens = tokens ++ next :: rest)
    (hnext : next.kind = .newline ∨ next.kind = .closeCurly) :
    ∃ reached, cursor.Reaches reached ∧
      ((standard.parts depth).expression .lowest >>= fun value =>
          lineEnd >>= fun _ => pure (result value)) cursor =
        ⟨.success (result value), [], reached⟩ ∧
      (reached.advance = ⟨next, rest⟩ ∨ next.kind = .newline ∧ reached = ⟨next, rest⟩) := by
  have hfollows : inner next.kind := by
    rcases hnext with hnext | hnext <;> rw [hnext]
    · exact hinner.1
    · exact hinner.2
  have hloose : ¬ .lowest < standard.precedence next.kind :=
    not_lt_precedence (by rcases hnext with hnext | hnext <;> rw [hnext] <;> rfl)
  obtain ⟨_, last, -, hreaches, hexpression⟩ := h.expression_eq hwithin htokens hfollows hloose
  obtain ⟨reached, hrest, hline, hreached⟩ := exists_lineEnd (result value) last
  exact ⟨reached, hreaches.trans hrest, by rw [bind_of_silent hexpression, hline], hreached⟩

theorem readsStmt_expression (hrule : standard.stmtRule token.kind = none)
    (hline : token.kind ≠ .newline) (hinner : inner .newline ∧ inner .closeCurly)
    (h : ReadsBefore inner depth .lowest (token :: tokens) value) :
    ReadsStmt depth (token :: tokens) (.expression token value) := by
  have hexpression : (standard.stmtRule token.kind).getD .expression = .expression := by
    rw [hrule, Option.getD_none]
  apply readsStmt_of_stmtRule hexpression hline
  intro next rest hwithin hnext
  exact exists_value (fun value => Stmt.expression token value) h hinner hwithin rfl hnext

theorem readsStmt_ret (hkind : token.kind = .kwReturn) (hinner : inner .newline ∧ inner .closeCurly)
    (h : ReadsBefore inner depth .lowest tokens value) :
    ReadsStmt depth (token :: tokens) (.ret token value) := by
  have hrule : (standard.stmtRule token.kind).getD .expression = .ret := by rw [hkind]; rfl
  apply readsStmt_of_stmtRule hrule (by simp [hkind])
  intro next rest hwithin hnext
  obtain ⟨reached, hreaches, hvalue, hreached⟩ := exists_value (fun value => Stmt.ret token value) h
    hinner hwithin.advance (tokens_advance_append token tokens next rest) hnext
  exact ⟨reached, (Cursor.reaches_advance _).trans hreaches, hvalue, hreached⟩

theorem readsStmt_var {assignment : Token} (hkind : token.kind = .kwVar)
    (htype : type.kind = .typeName) (hname : name.kind = .identifier)
    (hassignment : assignment.kind = .assignment) (hinner : inner .newline ∧ inner .closeCurly)
    (h : ReadsBefore inner depth .lowest tokens value) :
    ReadsStmt depth (token :: type :: name :: assignment :: tokens)
      (.var token (TypeName.ofToken type) (Name.ofToken name) value) := by
  have hrule : (standard.stmtRule token.kind).getD .expression = .var := by rw [hkind]; rfl
  apply readsStmt_of_stmtRule hrule (by simp [hkind])
  intro next rest hwithin hnext
  have hinside : (Cursor.mk assignment (tokens ++ next :: rest)).Within depth :=
    hwithin.advance.advance.advance
  have hpassed : (Cursor.mk token (type :: name :: assignment :: (tokens ++ next :: rest))).Reaches
      ⟨assignment, tokens ++ next :: rest⟩ := ⟨[token, type, name], rfl⟩
  obtain ⟨reached, hreaches, hvalue, hreached⟩ := exists_value
    (fun value => Stmt.var token (TypeName.ofToken type) (Name.ofToken name) value) h hinner
    hinside.advance (tokens_advance_append assignment tokens next rest) hnext
  refine ⟨reached, hpassed.trans ((Cursor.reaches_advance _).trans hreaches), ?_, hreached⟩
  show Parser.var (standard.parts depth)
    ⟨token, type :: name :: assignment :: (tokens ++ next :: rest)⟩ = _
  rw [Parser.var, current_bind, expect_bind_mk htype, expect_bind_mk hname,
    expect_bind_mk hassignment, advance_bind]
  exact hvalue

theorem readsStmt_block (hkind : token.kind = .openCurly)
    (h : (Parser.block (standard.parts depth)).Takes depth (token :: tokens) block) :
    ReadsStmt depth (token :: tokens) (.block block) := by
  have hrule : (standard.stmtRule token.kind).getD .expression = .block := by
    rw [hkind]
    rfl
  apply readsStmt_of_takes hrule (by simp [hkind])
  intro cursor next rest hwithin htokens
  obtain ⟨before, last, hlast, hblock⟩ := h cursor next rest hwithin htokens
  refine ⟨before, last, hlast, ?_⟩
  rw [StmtRule.parser, bind_of_silent hblock]
  rfl

theorem readsStmt_function {definition : FunctionDefinition} (hkind : token.kind = .kwFunc)
    (h : (functionDefinition (standard.parts depth)).Takes depth (token :: tokens) definition) :
    ReadsStmt depth (token :: tokens) (.function definition) := by
  have hrule : (standard.stmtRule token.kind).getD .expression = .function := by
    rw [hkind]
    rfl
  apply readsStmt_of_takes hrule (by simp [hkind])
  intro cursor next rest hwithin htokens
  obtain ⟨before, last, hlast, hdefinition⟩ := h cursor next rest hwithin htokens
  refine ⟨before, last, hlast, ?_⟩
  rw [StmtRule.parser, bind_of_silent hdefinition]
  rfl

theorem readsStmt_entrypoint {opening closing : Token} (hkind : token.kind = .kwEfunc)
    (hname : name.kind = .identifier) (hopening : opening.kind = .openParen)
    (hclosing : closing.kind = .closeParen) (hbody : ReadsBody depth blockTokens block) :
    ReadsStmt depth (token :: name :: opening :: closing :: blockTokens)
      (.entrypoint token (Name.ofToken name) block) := by
  have hrule : (standard.stmtRule token.kind).getD .expression = .entrypoint := by
    rw [hkind]
    rfl
  apply readsStmt_of_takes hrule (by simp [hkind])
  intro cursor next rest hwithin htokens
  have hcursor : cursor = ⟨token, name :: opening :: closing :: (blockTokens ++ next :: rest)⟩ :=
    Cursor.eq_of_tokens_eq htokens
  subst hcursor
  have hpassed : token :: name :: opening :: closing :: (blockTokens ++ next :: rest) =
      [token, name, opening, closing] ++ (blockTokens ++ next :: rest) := rfl
  obtain ⟨before, last, rfl, hbehind⟩ := hbody.exists_expect hwithin hpassed
  refine ⟨token :: name :: opening :: closing :: before, last, rfl, ?_⟩
  rw [StmtRule.parser, entrypoint, current_bind, expect_bind_mk hname, expect_bind_mk hopening,
    expect_bind_mk hclosing, hbehind]
  rfl

end

end

end LineScript
