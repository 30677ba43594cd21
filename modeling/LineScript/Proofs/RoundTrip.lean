import LineScript.Proofs.Lexing.Rendering
import LineScript.Proofs.Parsing.Program
import LineScript.Proofs.Parsing.ReadingBlocks

/-!
# Rendering and reading back

A legible program that is rendered, cut into tokens and parsed comes back without a
diagnostic, and it differs from the program at most in its tokens.  The tokens that a tree
is spelled with stand between the two halves: rendering was shown to give them, and here
they are read back, by induction over trees and for any positions.
-/

namespace LineScript

open Grammar LineScript.Parser
open LineScript.Expr (mark operatorMark grouped separated)

/-! ## Taking spelled tokens apart -/

namespace Token.Alike

variable {tokens marks rest : List Token} {kind : TokenKind} {text : String}

theorem exists_mark (h : Alike tokens (mark kind text :: marks)) :
    ∃ token others, tokens = token :: others ∧ token.kind = kind ∧ token.text = text ∧
      Alike others marks := by
  obtain ⟨token, others, rfl, htoken, hothers⟩ := h.exists_cons
  obtain ⟨hkind, htext⟩ := Token.unplaced_eq_iff.mp htoken
  exact ⟨token, others, rfl, hkind, htext, hothers⟩

theorem eq_nil (h : Alike tokens []) : tokens = [] :=
  List.map_eq_nil_iff.mp h

theorem exists_grouped_append (h : Alike tokens (grouped marks ++ rest)) :
    ∃ opening inner closing behind, tokens = opening :: (inner ++ closing :: behind) ∧
      opening.kind = .openParen ∧ closing.kind = .closeParen ∧ Alike inner marks ∧
      Alike behind rest := by
  rw [grouped, List.cons_append, List.append_assoc] at h
  obtain ⟨opening, others, rfl, hopening, -, hothers⟩ := h.exists_mark
  obtain ⟨inner, final, rfl, hinner, hfinal⟩ := hothers.exists_append
  obtain ⟨closing, behind, rfl, hclosing, -, hbehind⟩ := hfinal.exists_mark
  exact ⟨opening, inner, closing, behind, rfl, hopening, hclosing, hinner, hbehind⟩

theorem exists_grouped (h : Alike tokens (grouped marks)) :
    ∃ opening inner closing, tokens = opening :: (inner ++ [closing]) ∧
      opening.kind = .openParen ∧ closing.kind = .closeParen ∧ Alike inner marks := by
  rw [← List.append_nil (grouped marks)] at h
  obtain ⟨opening, inner, closing, behind, rfl, hopening, hclosing, hinner, hbehind⟩ :=
    h.exists_grouped_append
  obtain rfl := hbehind.eq_nil
  exact ⟨opening, inner, closing, rfl, hopening, hclosing, hinner⟩

end Token.Alike

/-! ## Leaves -/

/-- Digits are read as the number that they denote. -/
theorem IsNumeral.readInt64?_eq {text : String} {value : Int64} (h : IsNumeral text value) :
    readInt64? text = some value := by
  have hsign {sign : Char} {digits : List Char} (heq : text.toList = sign :: digits) :
      sign.isDigit = true :=
    h.isDigit_eq sign (by rw [heq]; exact List.mem_cons_self)
  have hnat : Decimal.readNat? text.toList = some (Decimal.valueOfDigits text.toList) :=
    if_pos ⟨h.ne_nil, List.all_eq_true.mpr h.isDigit_eq⟩
  have hread : Decimal.readInt? text.toList = some value.toInt := by
    unfold Decimal.readInt?
    split
    · rename_i heq
      cases hsign heq
    · rename_i heq
      cases hsign heq
    · rw [hnat, Option.map_some, ← h.value_eq]
      rfl
  have hrange := And.intro value.minValue_le_toInt value.toInt_le
  rw [readInt64?, hread]
  simp only [if_pos hrange, Int64.ofInt_toInt]

/-! ## Expressions, blocks, functions and statements -/

/-- The kinds that an expression begins with, unless it begins with a function. -/
def openers : List TokenKind :=
  [.identifier, .trueLiteral, .falseLiteral, .integer, .string, .openParen, .kwIf]

/-- A token that the expression can begin with. -/
def Expr.Opens (e : Expr) (first : Token) : Prop :=
  first.kind ∈ openers ∨ first.kind = .kwFunc ∧ e.beginsWithFunction = true

theorem Expr.Opens.notMem_stmtStops {e : Expr} {first : Token} (h : e.Opens first) :
    first.kind ∉ stmtStops ∧ first.kind ≠ .closeParen := by
  have hopeners : ∀ kind ∈ openers, kind ∉ stmtStops ∧ kind ≠ .closeParen := by decide
  rcases h with hopener | ⟨hfunc, -⟩
  · exact hopeners _ hopener
  · rw [hfunc]
    decide

theorem Expr.Opens.stmtRule_eq {e : Expr} {first : Token} (h : e.Opens first)
    (hfunction : e.beginsWithFunction = false) : standard.stmtRule first.kind = none := by
  have hopeners : ∀ kind ∈ openers, standard.stmtRule kind = none := by decide
  rcases h with hopener | ⟨-, htrue⟩
  · exact hopeners _ hopener
  · rw [hfunction] at htrue
    cases htrue

/-- Whatever differs from the tokens of `e` only in positions is read as `e` wherever an
expression can stand.  No operand is read at the bound of a call, and a conditional goes on at
an `else`. -/
def Expr.Recovers (depth : Nat) (e : Expr) : Prop :=
  ∀ tokens, Token.Alike tokens e.spelled →
    ∃ parsed first others, parsed.bare = e.bare ∧ tokens = first :: others ∧ e.Opens first ∧
      ∀ minimum, minimum < .call → ReadsBefore (· ≠ .kwElse) depth minimum tokens parsed

/-- Whatever differs from the tokens of the block only in positions is read as this block. -/
def Block.Recovers (depth : Nat) (block : Block) : Prop :=
  ∀ tokens, Token.Alike tokens block.spelled →
    ∃ parsed, parsed.bare = block.bare ∧ ReadsBody depth tokens parsed

/-- Whatever differs from the tokens of the function only in positions is read as this
function. -/
def FunctionDefinition.Recovers (depth : Nat) (definition : FunctionDefinition) : Prop :=
  ∀ tokens, Token.Alike tokens definition.spelled →
    ∃ parsed first others, parsed.bare = definition.bare ∧ tokens = first :: others ∧
      first.kind = .kwFunc ∧
      (functionDefinition (standard.parts depth)).Takes depth tokens parsed

/-- Whatever differs from the tokens of the statement only in positions is read as this
statement. -/
def Stmt.Recovers (depth : Nat) (statement : Stmt) : Prop :=
  ∀ tokens, Token.Alike tokens statement.spelled →
    ∃ parsed first others, parsed.bare = statement.bare ∧ tokens = first :: others ∧
      first.kind ∉ stmtStops ∧ ReadsStmt depth tokens parsed

section

variable {depth : Nat} {tokens : List Token} {kind : TokenKind} {text : String}

/-- A leaf is read off its one token. -/
theorem Expr.recovers_leaf {e : Expr} (rule : PrefixRule) (hspelled : e.spelled = [mark kind text])
    (hrule : standard.prefixRule kind = some rule) (hopener : kind ∈ openers)
    (h : ∀ token : Token, token.kind = kind → token.text = text →
      ∃ parsed, parsed.bare = e.bare ∧ ∀ upcoming,
        rule.parser (standard.parts depth) ⟨token, upcoming⟩ =
          ⟨.success parsed, [], ⟨token, upcoming⟩⟩) :
    e.Recovers depth := by
  intro tokens halike
  rw [hspelled] at halike
  obtain ⟨token, others, rfl, rfl, rfl, hothers⟩ := halike.exists_mark
  obtain rfl := hothers.eq_nil
  obtain ⟨parsed, hparsed, hread⟩ := h token rfl rfl
  exact ⟨parsed, token, [], hparsed, rfl, .inl hopener,
    fun minimum _ => readsBefore_atom rule hrule hread⟩

theorem Expr.recovers_identifier (name : Name) : (Expr.identifier name).Recovers depth := by
  refine recovers_leaf .identifier rfl rfl (by decide) fun token _ htext => ?_
  exact ⟨.identifier (Name.ofToken token), by simp [htext], fun _ => rfl⟩

theorem Expr.recovers_boolean (token : Token) (value : Bool) :
    (Expr.boolean token value).Recovers depth := by
  cases value with
  | true =>
      refine recovers_leaf .boolean rfl rfl (by decide) fun token hkind _ => ?_
      exact ⟨.boolean token (token.kind = .trueLiteral), by simp [hkind], fun _ => rfl⟩
  | false =>
      refine recovers_leaf .boolean rfl rfl (by decide) fun token hkind _ => ?_
      exact ⟨.boolean token (token.kind = .trueLiteral), by simp [hkind], fun _ => rfl⟩

theorem Expr.recovers_integer {token : Token} {value : Int64} (h : IsNumeral token.text value) :
    (Expr.integer token value).Recovers depth := by
  refine recovers_leaf .integer rfl rfl (by decide) fun token _ htext => ?_
  refine ⟨.integer token value, by simp [htext], fun _ => ?_⟩
  simp [PrefixRule.parser, Parser.integer, htext, h.readInt64?_eq]

theorem Expr.recovers_string (token : Token) (value : String) :
    (Expr.string token value).Recovers depth := by
  refine recovers_leaf .string rfl rfl (by decide) fun token _ htext => ?_
  exact ⟨.string token token.text, by simp [htext], fun _ => rfl⟩

theorem Expr.Recovers.unary {token : Token} {operator : String} {operand : Expr}
    (hoperator : operator ∈ unaryOperators.map Prod.fst) (h : operand.Recovers depth) :
    (Expr.unary token operator operand).Recovers depth := by
  intro tokens halike
  obtain ⟨opening, inner, closing, rfl, hopening, hclosing, hinner⟩ := halike.exists_grouped
  obtain ⟨sign, others, rfl, hkind, htext, hothers⟩ := hinner.exists_mark
  obtain ⟨parsed, _, _, hparsed, -, -, hreads⟩ := h others hothers
  have hoperators : ∀ operator ∈ unaryOperators.map Prod.fst,
      operatorKind operator = .dash ∨ operatorKind operator = .exclamation := by decide
  have hunary (minimum : Precedence) : ReadsBefore (· = .closeParen) depth minimum (sign :: others)
      (.unary sign sign.text parsed) := by
    refine readsBefore_unary (by rw [hkind]; exact hoperators _ hoperator)
      (hreads .unary (by decide)) ?_
    rintro kind rfl
    exact ⟨by decide, not_lt_precedence rfl⟩
  refine ⟨.unary sign sign.text parsed, opening, _, by simp [htext, hparsed], rfl,
    .inl (by rw [hopening]; decide), fun minimum _ => ?_⟩
  exact readsBefore_grouping hopening hclosing (hunary .lowest) rfl

theorem Expr.Recovers.binary {token : Token} {operator : String} {left right : Expr}
    (hoperator : operator ∈ binaryOperators.map Prod.fst) (hleft : left.Recovers depth)
    (hright : right.Recovers depth) : (Expr.binary token left operator right).Recovers depth := by
  intro tokens halike
  obtain ⟨opening, inner, closing, rfl, hopening, hclosing, hinner⟩ := halike.exists_grouped
  obtain ⟨leftTokens, behind, rfl, hleftTokens, hbehind⟩ := hinner.exists_append
  obtain ⟨sign, rightTokens, rfl, hkind, htext, hrightTokens⟩ := hbehind.exists_mark
  obtain ⟨parsedLeft, _, _, hparsedLeft, -, -, hreadsLeft⟩ := hleft leftTokens hleftTokens
  obtain ⟨parsedRight, _, _, hparsedRight, -, -, hreadsRight⟩ := hright rightTokens hrightTokens
  have hoperators : ∀ operator ∈ binaryOperators.map Prod.fst,
      operatorKind operator ∈ binaryKinds ∧ operatorKind operator ≠ .kwElse ∧
        .lowest < standard.precedence (operatorKind operator) := by decide
  obtain ⟨hbinary, helse, hlowest⟩ := hoperators _ hoperator
  rw [← hkind] at hbinary helse hlowest
  have hcall : standard.precedence sign.kind < .call :=
    Nat.lt_trans (precedence_lt_unary hbinary) (by decide)
  have hoperation : ReadsBefore (· = .closeParen) depth .lowest (leftTokens ++ sign :: rightTokens)
      (.binary sign parsedLeft sign.text parsedRight) := by
    refine readsBefore_binary hbinary hlowest (hreadsLeft .lowest (by decide)) helse
      (hreadsRight _ hcall) ?_
    rintro kind rfl
    exact ⟨by decide, not_lt_precedence rfl⟩
  refine ⟨.binary sign parsedLeft sign.text parsedRight, opening, _,
    by simp [htext, hparsedLeft, hparsedRight], rfl, .inl (by rw [hopening]; decide),
    fun minimum _ => ?_⟩
  exact readsBefore_grouping hopening hclosing hoperation rfl

/-- The arguments of a call, if there are any. -/
theorem Expr.Recovers.list {first : Expr} {others : List Expr}
    (h : ∀ argument ∈ first :: others, argument.Recovers depth)
    (halike : Token.Alike tokens (separated ((first :: others).map Expr.spelled))) :
    ∃ arguments head tail, arguments.map Expr.bare = (first :: others).map Expr.bare ∧
      tokens = head :: tail ∧ head.kind ≠ .closeParen ∧ ReadsList depth tokens arguments := by
  induction others generalizing first tokens with
  | nil =>
      rw [List.map_singleton, separated, List.intercalate_singleton] at halike
      obtain ⟨parsed, head, tail, hparsed, rfl, hopens, hreads⟩ := h first (by simp) tokens halike
      exact ⟨[parsed], head, tail, by simp [hparsed], rfl, hopens.notMem_stmtStops.2,
        readsList_singleton (hreads .lowest (by decide)) (by decide)⟩
  | cons second others ih =>
      rw [List.map_cons, List.map_cons, separated, List.intercalate_cons_cons,
        List.append_assoc] at halike
      obtain ⟨before, behind, rfl, hbefore, hbehind⟩ := halike.exists_append
      obtain ⟨comma, rest, rfl, hcomma, -, hrest⟩ := hbehind.exists_mark
      obtain ⟨parsed, head, tail, hparsed, rfl, hopens, hreads⟩ := h first (by simp) before hbefore
      obtain ⟨arguments, _, _, harguments, -, -, hlist⟩ :=
        ih (fun argument hmem => h argument (List.mem_cons_of_mem _ hmem)) hrest
      refine ⟨parsed :: arguments, head, tail ++ comma :: rest, by simp [hparsed, harguments], rfl,
        hopens.notMem_stmtStops.2, ?_⟩
      exact readsList_cons hcomma (hreads .lowest (by decide)) (by decide) hlist

theorem Expr.Recovers.call {token : Token} {callee : Expr} {arguments : List Expr}
    (hcallee : callee.Recovers depth)
    (harguments : ∀ argument ∈ arguments, argument.Recovers depth) :
    (Expr.call token callee arguments).Recovers depth := by
  intro tokens halike
  obtain ⟨calleeTokens, behind, rfl, hcalleeTokens, hbehind⟩ := halike.exists_append
  obtain ⟨opening, list, closing, rfl, hopening, hclosing, hlist⟩ := hbehind.exists_grouped
  obtain ⟨parsed, first, others, hparsed, rfl, hopens, hreads⟩ := hcallee calleeTokens hcalleeTokens
  rw [Expr.spelledAll_eq_map] at hlist
  cases arguments with
  | nil =>
      obtain rfl := hlist.eq_nil
      refine ⟨.call opening parsed [], first, _, by simp [hparsed], rfl, hopens,
        fun minimum hminimum => ?_⟩
      exact readsBefore_call_nil hopening hclosing hminimum (hreads minimum hminimum) (by decide)
  | cons argument rest =>
      obtain ⟨parsedList, head, tail, hparsedList, rfl, hhead, hreadsList⟩ :=
        Expr.Recovers.list harguments hlist
      refine ⟨.call opening parsed parsedList, first, _,
        by simp only [bare, bareAll_eq_map, hparsed, hparsedList], rfl, hopens,
        fun minimum hminimum => ?_⟩
      exact readsBefore_call hopening hclosing hminimum (hreads minimum hminimum) (by decide)
        hreadsList hhead

theorem Expr.Recovers.conditional {token : Token} {condition : Expr} {consequence : Block}
    (hcondition : condition.Recovers depth) (hconsequence : consequence.Recovers depth) :
    (Expr.conditional token condition consequence none).Recovers depth := by
  intro tokens halike
  obtain ⟨word, behind, rfl, hword, -, hbehind⟩ := halike.exists_mark
  obtain ⟨opening, inner, closing, blockTokens, rfl, hopening, hclosing, hinner, hblockTokens⟩ :=
    hbehind.exists_grouped_append
  obtain ⟨parsed, _, _, hparsed, -, -, hreads⟩ := hcondition inner hinner
  obtain ⟨block, hblock, hbody⟩ := hconsequence blockTokens hblockTokens
  refine ⟨.conditional word parsed block none, word, _, by simp [hparsed, hblock], rfl,
    .inl (by rw [hword]; decide), fun minimum _ => ?_⟩
  exact readsBefore_conditional hword hopening hclosing (hreads .lowest (by decide)) (by decide)
    hbody

theorem Expr.Recovers.alternative {token : Token} {condition : Expr}
    {consequence alternative : Block} (hcondition : condition.Recovers depth)
    (hconsequence : consequence.Recovers depth) (halternative : alternative.Recovers depth) :
    (Expr.conditional token condition consequence (some alternative)).Recovers depth := by
  intro tokens halike
  obtain ⟨word, behind, rfl, hword, -, hbehind⟩ := halike.exists_mark
  obtain ⟨opening, inner, closing, blocks, rfl, hopening, hclosing, hinner, hblocks⟩ :=
    hbehind.exists_grouped_append
  obtain ⟨blockTokens, others, rfl, hblockTokens, hothers⟩ := hblocks.exists_append
  obtain ⟨otherwise, elseTokens, rfl, hotherwise, -, helseTokens⟩ := hothers.exists_mark
  obtain ⟨parsed, _, _, hparsed, -, -, hreads⟩ := hcondition inner hinner
  obtain ⟨block, hblock, hbody⟩ := hconsequence blockTokens hblockTokens
  obtain ⟨elseBlock, helseBlock, helseBody⟩ := halternative elseTokens helseTokens
  refine ⟨.conditional word parsed block (some elseBlock), word, _,
    by simp [hparsed, hblock, helseBlock], rfl, .inl (by rw [hword]; decide),
    fun minimum _ => ?_⟩
  exact readsBefore_alternative hword hopening hclosing hotherwise (hreads .lowest (by decide))
    (by decide) hbody helseBody

theorem FunctionDefinition.Recovers.expr {definition : FunctionDefinition}
    (h : definition.Recovers depth) : (Expr.function definition).Recovers depth := by
  intro tokens halike
  obtain ⟨parsed, first, others, hparsed, rfl, hfirst, htakes⟩ := h tokens halike
  exact ⟨.function parsed, first, others, by simp [hparsed], rfl,
    .inr ⟨hfirst, rfl⟩, fun minimum _ => readsBefore_function hfirst htakes⟩

theorem Block.recovers {token : Token} {statements : List Stmt} (hlength : statements.length ≤ 1)
    (h : ∀ statement ∈ statements, statement.Recovers depth) :
    (Block.mk token statements).Recovers depth := by
  intro tokens halike
  obtain ⟨opening, behind, rfl, hopening, -, hbehind⟩ := halike.exists_mark
  obtain ⟨inner, final, rfl, hinner, hfinal⟩ := hbehind.exists_append
  obtain ⟨closing, rest, rfl, hclosing, -, hrest⟩ := hfinal.exists_mark
  obtain rfl := hrest.eq_nil
  rcases statements with _ | ⟨statement, _ | ⟨second, others⟩⟩
  · obtain rfl := hinner.eq_nil
    exact ⟨⟨opening, []⟩, rfl, ⟨opening, [closing], rfl, hopening⟩, takes_block_nil hclosing⟩
  · rw [Stmt.spelledAll, Stmt.spelledAll, List.flatten_singleton] at hinner
    obtain ⟨parsed, first, others, hparsed, rfl, hfirst, hreads⟩ :=
      h statement List.mem_cons_self inner hinner
    refine ⟨⟨opening, [parsed]⟩, by simp [hparsed],
      ⟨opening, _, rfl, hopening⟩, ?_⟩
    exact takes_block_singleton hclosing hfirst hreads
  · simp at hlength

theorem Parameter.exists_alike {parameter : Parameter}
    (halike : Token.Alike tokens parameter.spelled) :
    ∃ type name, tokens = [type, name] ∧ type.kind = .typeName ∧ name.kind = .identifier ∧
      (Parameter.mk (.ofToken type) (.ofToken name)).bare = parameter.bare := by
  obtain ⟨type, behind, rfl, htype, htypeText, hbehind⟩ := halike.exists_mark
  obtain ⟨name, rest, rfl, hname, hnameText, hrest⟩ := hbehind.exists_mark
  obtain rfl := hrest.eq_nil
  refine ⟨type, name, rfl, htype, hname, ?_⟩
  simp [Parameter.bare, TypeName.ofToken, htypeText, hnameText]

/-- A parameter list, if it is not empty. -/
theorem Parameter.recovers_list (depth : Nat) {first : Parameter} {others : List Parameter}
    (halike : Token.Alike tokens (separated ((first :: others).map Parameter.spelled))) :
    ∃ parameters head tail,
      parameters.map Parameter.bare = (first :: others).map Parameter.bare ∧
      tokens = head :: tail ∧ head.kind = .typeName ∧
      ReadsSomeParameters depth tokens parameters := by
  induction others generalizing first tokens with
  | nil =>
      rw [List.map_singleton, separated, List.intercalate_singleton] at halike
      obtain ⟨type, name, rfl, htype, hname, hbare⟩ := Parameter.exists_alike halike
      exact ⟨[⟨.ofToken type, .ofToken name⟩], type, [name], by simp [hbare], rfl, htype,
        readsSomeParameters_singleton htype hname⟩
  | cons second others ih =>
      rw [List.map_cons, List.map_cons, separated, List.intercalate_cons_cons,
        List.append_assoc] at halike
      obtain ⟨before, behind, rfl, hbefore, hbehind⟩ := halike.exists_append
      obtain ⟨comma, list, rfl, hcomma, -, hlist⟩ := hbehind.exists_mark
      obtain ⟨type, name, rfl, htype, hname, hbare⟩ := Parameter.exists_alike hbefore
      obtain ⟨parameters, _, _, hparameters, -, -, hreads⟩ := ih hlist
      exact ⟨⟨.ofToken type, .ofToken name⟩ :: parameters, type, _, by simp [hbare, hparameters],
        rfl, htype, readsSomeParameters_cons htype hname hcomma hreads⟩

theorem Parameter.recovers_all (depth : Nat) {parameters : List Parameter}
    (halike : Token.Alike tokens (separated (parameters.map Parameter.spelled))) :
    ∃ parsed, parsed.map Parameter.bare = parameters.map Parameter.bare ∧
      ReadsParameters depth tokens parsed := by
  cases parameters with
  | nil =>
      obtain rfl := halike.eq_nil
      exact ⟨[], rfl, readsParameters_nil⟩
  | cons first others =>
      obtain ⟨parsed, head, tail, hparsed, rfl, hhead, hreads⟩ :=
        Parameter.recovers_list depth halike
      exact ⟨parsed, hparsed, hreads.readsParameters (by simp [hhead])⟩

theorem TypeName.recovers_option {type : Option TypeName}
    (halike : Token.Alike tokens (TypeName.spelledOption type)) :
    ∃ parsed, parsed.map TypeName.bare = type.map TypeName.bare ∧ ReadsType tokens parsed := by
  cases type with
  | none =>
      obtain rfl := halike.eq_nil
      exact ⟨none, rfl, .none⟩
  | some type =>
      obtain ⟨token, rest, rfl, hkind, htext, hrest⟩ := halike.exists_mark
      obtain rfl := hrest.eq_nil
      exact ⟨some (.ofToken token), by simp [TypeName.ofToken, htext], .some hkind⟩

theorem FunctionDefinition.recovers {token : Token} {name : Name} {parameters : List Parameter}
    {returnType : Option TypeName} {body : Block} (h : body.Recovers depth) :
    (FunctionDefinition.mk token name parameters returnType body).Recovers depth := by
  intro tokens halike
  obtain ⟨word, behind, rfl, hword, -, hbehind⟩ := halike.exists_mark
  obtain ⟨called, rest, rfl, hcalled, hcalledText, hrest⟩ := hbehind.exists_mark
  obtain ⟨opening, inner, closing, final, rfl, hopening, hclosing, hinner, hfinal⟩ :=
    hrest.exists_grouped_append
  obtain ⟨typeTokens, blockTokens, rfl, htypeTokens, hblockTokens⟩ := hfinal.exists_append
  obtain ⟨parsedList, hparsedList, hlist⟩ := Parameter.recovers_all depth hinner
  obtain ⟨type, htype, hreadsType⟩ := TypeName.recovers_option htypeTokens
  obtain ⟨block, hblock, hbody⟩ := h blockTokens hblockTokens
  refine ⟨⟨word, Name.ofToken called, parsedList, type, block⟩, word, _,
    by simp [hcalledText, hparsedList, htype, hblock], rfl, hword, ?_⟩
  exact takes_functionDefinition hcalled hopening hclosing hlist hreadsType hbody

/-! ## Statements -/

theorem Stmt.recovers_expression {token : Token} {value : Expr}
    (hfunction : value.beginsWithFunction = false) (h : value.Recovers depth) :
    (Stmt.expression token value).Recovers depth := by
  intro tokens halike
  obtain ⟨parsed, first, others, hparsed, rfl, hopens, hreads⟩ := h tokens halike
  have hfirst := hopens.notMem_stmtStops.1
  have hline : first.kind ≠ .newline := fun hline => hfirst (by rw [hline]; decide)
  refine ⟨.expression first parsed, first, others, by simp [hparsed], rfl, hfirst, ?_⟩
  exact readsStmt_expression (hopens.stmtRule_eq hfunction) hline (by decide)
    (hreads .lowest (by decide))

theorem Stmt.recovers_block {content : Block} (h : content.Recovers depth) :
    (Stmt.block content).Recovers depth := by
  intro tokens halike
  obtain ⟨parsed, hparsed, ⟨first, others, rfl, hfirst⟩, htakes⟩ := h tokens halike
  exact ⟨.block parsed, first, others, by simp [hparsed], rfl, by rw [hfirst]; decide,
    readsStmt_block hfirst htakes⟩

theorem Stmt.recovers_var {token : Token} {declaredType : TypeName} {name : Name} {value : Expr}
    (h : value.Recovers depth) : (Stmt.var token declaredType name value).Recovers depth := by
  intro tokens halike
  obtain ⟨word, behind, rfl, hword, -, hbehind⟩ := halike.exists_mark
  obtain ⟨type, rest, rfl, htype, htypeText, hrest⟩ := hbehind.exists_mark
  obtain ⟨called, final, rfl, hcalled, hcalledText, hfinal⟩ := hrest.exists_mark
  obtain ⟨assignment, valueTokens, rfl, hassignment, -, hvalueTokens⟩ := hfinal.exists_mark
  obtain ⟨parsed, _, _, hparsed, -, -, hreads⟩ := h valueTokens hvalueTokens
  refine ⟨.var word (.ofToken type) (.ofToken called) parsed, word, _, ?_, rfl,
    by rw [hword]; decide, ?_⟩
  · simp [TypeName.ofToken, htypeText, hcalledText, hparsed]
  · exact readsStmt_var hword htype hcalled hassignment (by decide) (hreads .lowest (by decide))

theorem Stmt.recovers_ret {token : Token} {value : Expr} (h : value.Recovers depth) :
    (Stmt.ret token value).Recovers depth := by
  intro tokens halike
  obtain ⟨word, valueTokens, rfl, hword, -, hvalueTokens⟩ := halike.exists_mark
  obtain ⟨parsed, _, _, hparsed, -, -, hreads⟩ := h valueTokens hvalueTokens
  exact ⟨.ret word parsed, word, _, by simp [hparsed], rfl, by rw [hword]; decide,
    readsStmt_ret hword (by decide) (hreads .lowest (by decide))⟩

theorem Stmt.recovers_function {definition : FunctionDefinition} (h : definition.Recovers depth) :
    (Stmt.function definition).Recovers depth := by
  intro tokens halike
  obtain ⟨parsed, first, others, hparsed, rfl, hfirst, htakes⟩ := h tokens halike
  exact ⟨.function parsed, first, others, by simp [hparsed], rfl, by rw [hfirst]; decide,
    readsStmt_function hfirst htakes⟩

theorem Stmt.recovers_entrypoint {token : Token} {name : Name} {body : Block}
    (h : body.Recovers depth) : (Stmt.entrypoint token name body).Recovers depth := by
  intro tokens halike
  obtain ⟨word, behind, rfl, hword, -, hbehind⟩ := halike.exists_mark
  obtain ⟨called, rest, rfl, hcalled, hcalledText, hrest⟩ := hbehind.exists_mark
  obtain ⟨opening, inner, closing, blockTokens, rfl, hopening, hclosing, hinner, hblockTokens⟩ :=
    hrest.exists_grouped_append
  obtain rfl := hinner.eq_nil
  obtain ⟨block, hblock, hbody⟩ := h blockTokens hblockTokens
  refine ⟨.entrypoint word (.ofToken called) block, word, _,
    by simp [hcalledText, hblock], rfl, by rw [hword]; decide, ?_⟩
  exact readsStmt_entrypoint hword hcalled hopening hclosing hbody

/-- Every legible tree is read back from tokens like its own. -/
theorem legible_recovers (depth : Nat) : Hereditary (fun e => e.Legible → e.Recovers depth)
    (fun block => block.Legible → block.Recovers depth)
    (fun definition => definition.Legible → definition.Recovers depth)
    (fun statement => statement.Legible → statement.Recovers depth) where
  identifier name _ := Expr.recovers_identifier name
  boolean token value _ := Expr.recovers_boolean token value
  integer _ _ h := Expr.recovers_integer h
  string token value _ := Expr.recovers_string token value
  unary _ _ _ ih h := (ih h.2).unary h.1
  binary _ _ _ _ ihleft ihright h := (ihleft h.2.1).binary h.1 (ihright h.2.2)
  conditional _ _ _ ihcondition ihconsequence h :=
    (ihcondition h.1).conditional (ihconsequence h.2)
  alternative _ _ _ _ ihcondition ihconsequence ihalternative h :=
    (ihcondition h.1).alternative (ihconsequence h.2.1) (ihalternative h.2.2)
  call _ _ _ ihcallee iharguments h :=
    (ihcallee h.1).call fun argument hmem =>
      iharguments argument hmem (Expr.legibleAll_iff.mp h.2 argument hmem)
  function _ ih h := (ih h).expr
  block _ _ ih h :=
    Block.recovers h.1 fun statement hmem =>
      ih statement hmem (Stmt.legibleAll_iff.mp h.2 statement hmem)
  definition _ _ _ _ _ ih h := FunctionDefinition.recovers (ih h.2.2.2)
  expressionStmt _ _ ih h := Stmt.recovers_expression h.1 (ih h.2)
  blockStmt _ ih h := Stmt.recovers_block (ih h)
  varStmt _ _ _ _ ih h := Stmt.recovers_var (ih h.2.2)
  retStmt _ _ ih h := Stmt.recovers_ret (ih h)
  functionStmt _ ih h := Stmt.recovers_function (ih h)
  entrypointStmt _ _ _ ih h := Stmt.recovers_entrypoint (ih h.2)

/-! ## Programs -/

/-- A line end behind a statement is either the statement's own or an empty statement. -/
theorem program_of_line {cursor : Cursor} {first line next : Token} {rest : List Token}
    {parsed : Stmt} {others : List Stmt} {last : Cursor} (hwithin : cursor.Within depth)
    (hfirst : first.kind ∉ stmtStops) (hreads : ReadsStmt depth (first :: tokens) parsed)
    (hline : line.kind = .newline)
    (htokens : cursor.tokens = first :: tokens ++ line :: next :: rest)
    (hothers : (standard.parts depth).program ⟨next, rest⟩ = ⟨.success others, [], last⟩) :
    (standard.parts depth).program cursor = ⟨.success (parsed :: others), [], last⟩ := by
  obtain ⟨reached, hreaches, hstatement, hreached⟩ :=
    hreads cursor line (next :: rest) hwithin htokens (.inl hline)
  have hcurrent : cursor.current.kind ≠ .endOfInput := by
    have hcursor : cursor = ⟨first, tokens ++ line :: next :: rest⟩ :=
      Cursor.eq_of_tokens_eq htokens
    rw [hcursor]
    rintro (hend : first.kind = _)
    exact hfirst (by rw [hend]; decide)
  have hafter : (Cursor.mk line (next :: rest)).Within depth :=
    hwithin.of_reaches ⟨first :: tokens, htokens⟩
  have hempty : Parser.statement standard (standard.parts depth) ⟨line, next :: rest⟩ =
      ⟨.success none, [], ⟨line, next :: rest⟩⟩ := by
    rw [Parser.statement, current_bind]
    simp [hline]
  rcases hreached with hreached | ⟨-, rfl⟩
  · have hskipped := program_of_statement hafter (by simp [hline]) hempty hothers
    rw [← hreached] at hskipped
    exact program_of_statement hwithin hcurrent hstatement hskipped
  · exact program_of_statement hwithin hcurrent hstatement hothers

/-- Legible statements, each with its line end, are read back up to the end of input. -/
theorem exists_program_eq {final : Token} (hfinal : final.kind = .endOfInput)
    {statements : List Stmt} (h : ∀ statement ∈ statements, statement.Legible) {cursor : Cursor}
    (hwithin : cursor.Within depth) (htokens : cursor.tokens = tokens ++ [final])
    (halike : Token.Alike tokens (Program.spelled ⟨statements⟩)) :
    ∃ parsed last, (standard.parts depth).program cursor = ⟨.success parsed, [], last⟩ ∧
      parsed.map Stmt.bare = statements.map Stmt.bare := by
  -- The end of input stays behind the statements that are left, so every line end has a token
  -- behind it.
  induction statements generalizing cursor tokens with
  | nil =>
      obtain rfl := halike.eq_nil
      have hcursor : cursor = ⟨final, []⟩ := Cursor.eq_of_tokens_eq htokens
      subst hcursor
      exact ⟨[], _, program_of_endOfInput hwithin hfinal, rfl⟩
  | cons statement others ih =>
      obtain ⟨hstatement, hothers⟩ := List.forall_mem_cons.mp h
      rw [Program.spelled, List.flatMap_cons, List.append_assoc] at halike
      obtain ⟨before, behind, rfl, hbefore, hbehind⟩ := halike.exists_append
      obtain ⟨line, rest, rfl, hline, -, hrest⟩ := hbehind.exists_mark
      obtain ⟨parsed, first, inner, hparsed, rfl, hfirst, hreads⟩ :=
        (legible_recovers depth).stmt statement hstatement before hbefore
      obtain ⟨next, upcoming, hnext⟩ : ∃ next upcoming, rest ++ [final] = next :: upcoming :=
        List.exists_cons_of_ne_nil (by simp)
      have hsource : cursor.tokens = first :: inner ++ line :: next :: upcoming := by
        rw [htokens, ← hnext]
        simp
      have hafter : (Cursor.mk next upcoming).Within depth :=
        hwithin.of_reaches ⟨first :: inner ++ [line], hsource.trans (by simp [Cursor.tokens])⟩
      obtain ⟨parsedOthers, last, hprogram, hparsedOthers⟩ := ih hothers hafter hnext.symm hrest
      exact ⟨parsed :: parsedOthers, last,
        program_of_line hwithin hfirst hreads hline hsource hprogram,
        by simp [hparsed, hparsedOthers]⟩

end

theorem Program.Legible.parse_eq {program : Program} (h : program.Legible) {tokens : List Token}
    (halike : Token.Alike tokens program.spelled) {final : Token}
    (hfinal : final.kind = .endOfInput) :
    ∃ parsed : Program, parse (tokens ++ [final]) = ⟨parsed, []⟩ ∧ parsed.bare = program.bare := by
  have hwithin := (Cursor.closed_ofTokens (tokens ++ [final])).within_depth
  have htokens : (Cursor.ofTokens (tokens ++ [final])).tokens = tokens ++ [final] := by
    rw [Cursor.tokens_ofTokens_append]
    simp [Cursor.ofTokens, Cursor.tokens, Cursor.closed, hfinal]
  obtain ⟨parsed, last, hprogram, hparsed⟩ := exists_program_eq hfinal h hwithin htokens halike
  exact ⟨⟨parsed⟩, LineScript.parse_eq hwithin hprogram, congrArg Program.mk hparsed⟩

/-- A legible program comes back from its text: the text is cut into tokens, no diagnostic is
recorded, and the program that is parsed differs from the first one only in its tokens. -/
theorem parse_render {program : Program} (h : program.Legible) :
    ∃ tokens, tokenize program.render = .ok tokens ∧ (parse tokens).diagnostics = [] ∧
      (parse tokens).program.bare = program.bare := by
  obtain ⟨tokens, last, htokenize, halike, hlast⟩ := h.lexes.exists_tokenize
  obtain ⟨parsed, hparse, hbare⟩ := h.parse_eq halike hlast
  exact ⟨tokens ++ [last], htokenize, by rw [hparse], by rw [hparse, hbare]⟩

/-- A function that calls another one unless it is given an empty string. -/
def guardedCall : Program :=
  let name (text : String) : Name := .ofToken (mark .identifier text)
  let type (text : String) : TypeName := .ofToken (mark .typeName text)
  let block (statement : Stmt) : Block := ⟨.forgotten, [statement]⟩
  let condition : Expr := .binary .forgotten (.identifier (name "x")) "==" (.string .forgotten "")
  let absent : Expr := .unary .forgotten "-" (.integer (mark .integer "01") 1)
  let present : Expr :=
    .call .forgotten (.identifier (name "f")) [.identifier (name "x"), .boolean .forgotten true]
  let choice : Expr := .conditional .forgotten condition (block (.ret .forgotten absent))
    (some (block (.ret .forgotten present)))
  ⟨[.function ⟨.forgotten, name "g", [⟨type "string", name "x"⟩], some (type "int"),
    block (.expression .forgotten choice)⟩]⟩

theorem parse_render_guardedCall :
    guardedCall.render =
        "func g(string x) int \x7b if ((x == \"\")) \x7b return (-01) \x7d else " ++
          "\x7b return f(x, true) \x7d \x7d\n" ∧
      guardedCall.Legible ∧
      ∃ tokens, tokenize guardedCall.render = .ok tokens ∧ (parse tokens).diagnostics = [] ∧
        (parse tokens).program.bare = guardedCall.bare := by
  have hlegible : guardedCall.Legible := by decide
  exact ⟨by decide +kernel, hlegible, parse_render hlegible⟩

end LineScript
