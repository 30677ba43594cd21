import LineScript.Proofs.Parsing.Cautious
import LineScript.Proofs.Parsing.Judgment

/-!
# The rules of the grammar

Every judgment that holds of the parsers for the parts of a construct holds of the parser for the
construct itself.  There is one lemma for each rule of the grammar, and each of them follows its
rule step by step, so that the properties of parsers that are stated as judgments need no proof
for any rule.
-/

namespace LineScript

open Located (cursor advance cursor_advance)

namespace Judgment

namespace OnParts

variable {σ : Type} [Located σ] {J : Judgment σ} {first second : Parts} {calls level : Nat}
variable {kept : List Token} {s : σ}

/-- An expression from the next token on. -/
theorem expression_behind (h : J.OnParts (calls + 1) first second) (minimum : Precedence)
    (hpast : J.At .past (calls + 1) level kept s) :
    J.Holds level (J.Makes (J.At .past (calls + 1) level) kept) (first.expression minimum)
      (second.expression minimum) (advance s) :=
  h.expression minimum (J.mono (J.advance_past hpast) (by omega))

/-! ## Blocks and function definitions -/

theorem skipLineEnd (hat : J.At .here (calls + 2) level kept s) (hlines : J.Lines level s) :
    J.Holds level (fun _ _ t => J.At .here (calls + 2) level kept t ∧ J.Lines level t)
      Parser.skipLineEnd Parser.skipLineEnd s := by
  apply atKind hat
  · intro hline
    have hnext := J.advance_rest (J.rest_newline hat hline) hlines
    exact lastStep ⟨J.mono hnext (by omega), J.lines_advance hlines⟩
  · intro _
    exact J.pure ⟨hat, hlines⟩

theorem blockBody (h : J.OnParts calls first second) (hat : J.At .here (calls + 2) level kept s)
    (hlines : J.Lines level s) :
    J.Holds level (J.Makes (J.At .closes calls level) kept) (Parser.blockBody first)
      (Parser.blockBody second) s := by
  apply J.bind (h.statements hat hlines)
  rintro statements _ t ⟨hfaithful, rfl, hstops⟩
  apply current hstops
  simp only [kind_erase]
  apply ite
  · intro hend
    apply J.bind (J.unclosed _ hstops hend)
    intro _ _ u hcloses
    exact J.pure ⟨hfaithful, rfl, hcloses⟩
  · intro hend
    exact J.pure ⟨hfaithful, rfl, J.closes_stops hstops hend⟩

/-- A block from the statements on, whatever stands in front of them. -/
theorem openBlock (h : J.OnParts calls first second)
    (hcurrent : (J.other s).current = erase J.blind (cursor s).current)
    (hat : J.At .here (calls + 2) level kept (advance s)) (hlines : J.Lines level (advance s)) :
    J.Holds level
      (fun block other t => block.token = (cursor s).current ∧ other = erase J.blind block ∧
        (J.faithful → Stmt.FaithfulAll block.statements) ∧
        J.At .closes calls level (kept ++ Stmt.tokensAll block.statements) t)
      (Parser.block first) (Parser.block second) s := by
  apply look hcurrent
  apply step
  apply J.bind (skipLineEnd hat hlines)
  rintro _ _ t ⟨hat, hlines⟩
  apply J.bind (h.blockBody hat hlines)
  rintro statements _ u ⟨hfaithful, rfl, hcloses⟩
  exact J.pure ⟨rfl, by cases J.blind <;> rfl, hfaithful, hcloses⟩

theorem block (h : J.OnParts calls first second) (hat : J.At .here calls level kept s)
    (hopen : (cursor s).current.kind = .openCurly) :
    J.Holds level (J.Makes (J.At .past calls level) kept) (Parser.block first)
      (Parser.block second) s := by
  obtain ⟨hinside, hlines⟩ := J.enter hat hopen
  apply J.nest (Parser.persists_block h.persists)
  apply conseq (h.openBlock (J.current_eq hat) hinside hlines)
  rintro ⟨token, statements⟩ _ t ⟨rfl, rfl, hfaithful, hcloses⟩
  exact ⟨fun hasked => ⟨hopen, hfaithful hasked⟩, rfl, by simpa using J.leave hcloses⟩

theorem parameter (hpast : J.At .past calls level kept s) :
    J.Holds level (J.Makes (J.At .past calls level) kept) Parser.parameter Parser.parameter s := by
  apply expect hpast (by decide)
  intro htype hat
  apply expect (J.keep hat (htype ▸ rfl)) (by decide)
  intro hname hat
  have hboth := J.mono (J.keep hat (hname ▸ rfl)) (by omega : calls ≤ calls + 3 + 3)
  exact J.pure ⟨fun _ => ⟨⟨htype, rfl⟩, ⟨hname, rfl⟩⟩, by cases J.blind <;> rfl,
    by simpa [Parameter.origins, TypeName.ofToken] using hboth⟩

theorem parameterList (h : J.OnParts calls first second) (hpast : J.At .past calls level kept s) :
    J.Holds level (J.Makes (J.At .past calls level) kept) (Parser.parameterList first)
      (Parser.parameterList second) s := by
  apply beforeKind hpast (by decide)
  · intro hclose hat
    apply step
    have hdrop := J.mono (J.drop hat (hclose ▸ rfl)) (by omega : calls ≤ calls + 3)
    exact J.pure ⟨by simp [Node.Faithful], by cases J.blind <;> rfl, by simpa using hdrop⟩
  · apply J.bind (h.parameters hpast)
    rintro list _ t ⟨hfaithful, rfl, hlist⟩
    apply expect hlist (by decide)
    intro hclose hat
    exact J.pure ⟨hfaithful, rfl, J.mono (J.drop hat (hclose ▸ rfl)) (by omega)⟩

theorem returnType (hpast : J.At .past calls level kept s) :
    J.Holds level (J.Makes (J.At .past calls level) kept) Parser.returnType Parser.returnType
      s := by
  apply beforeKind hpast (by decide)
  · intro htype hat
    apply step
    apply current hat
    have hkeep := J.mono (J.keep hat (htype ▸ rfl)) (by omega : calls ≤ calls + 3)
    refine J.pure ⟨?_, by cases J.blind <;> rfl, hkeep⟩
    rintro _ name ⟨⟩
    exact ⟨htype, rfl⟩
  · exact J.pure ⟨by simp [Node.Faithful], by cases J.blind <;> rfl,
      by simpa [TypeName.originsOf] using hpast⟩

theorem functionDefinition (h : J.OnParts calls first second) (hat : J.At .here calls level kept s)
    (hfunction : (cursor s).current.kind = .kwFunc) :
    J.Holds level (J.Makes (J.At .past calls level) kept) (Parser.functionDefinition first)
      (Parser.functionDefinition second) s := by
  apply current hat
  apply expect (J.keep hat (hfunction ▸ rfl)) (by decide)
  intro hname hat
  apply expect (J.keep hat (hname ▸ rfl)) (by decide)
  intro hparen hat
  apply J.bind (h.parameterList (J.mono (J.drop hat (hparen ▸ rfl)) (by omega)))
  rintro list _ t ⟨hlist, rfl, hpast⟩
  apply J.bind (returnType hpast)
  rintro type _ t ⟨htype, rfl, hpast⟩
  apply expect hpast (by decide)
  intro hopen hat
  apply J.bind (h.block (J.mono hat (by omega)) hopen)
  rintro body _ t ⟨hbody, rfl, hpast⟩
  exact J.pure
    ⟨fun hasked => ⟨hfunction, ⟨hname, rfl⟩, hlist hasked, htype hasked, hbody hasked⟩,
      by cases J.blind <;> rfl, by simpa using hpast⟩

/-! ## Expressions -/

theorem conditional (h : J.OnParts (calls + 1) first second)
    (hat : J.At .here (calls + 1) level kept s) (hif : (cursor s).current.kind = .kwIf) :
    J.Holds level (J.Makes (J.At .past (calls + 1) level) kept) (Parser.conditional first)
      (Parser.conditional second) s := by
  apply current hat
  apply expect (J.keep hat (hif ▸ rfl)) (by decide)
  intro hparen hat
  apply step
  apply J.bind (h.expression_behind .lowest (J.mono (J.drop hat (hparen ▸ rfl)) (by omega)))
  rintro condition _ t ⟨hcondition, rfl, hpast⟩
  apply expect hpast (by decide)
  intro hclose hat
  apply expect (J.drop hat (hclose ▸ rfl)) (by decide)
  intro hopen hat
  apply J.bind (h.block (J.mono hat (by omega)) hopen)
  rintro consequence _ t ⟨hconsequence, rfl, hpast⟩
  apply beforeKind hpast (by decide)
  · intro helse hat
    apply step
    apply expect (J.drop hat (helse ▸ rfl)) (by decide)
    intro hopen hat
    apply J.bind (h.block (J.mono hat (by omega)) hopen)
    rintro alternative _ t ⟨halternative, rfl, hpast⟩
    exact J.pure
      ⟨fun hasked => ⟨hif, hcondition hasked, hconsequence hasked, halternative hasked⟩,
        by cases J.blind <;> rfl, by simpa using hpast⟩
  · exact J.pure ⟨fun hasked => ⟨hif, hcondition hasked, hconsequence hasked⟩,
      by cases J.blind <;> rfl, by simpa using hpast⟩

theorem integer (hat : J.At .here calls level kept s)
    (hinteger : (cursor s).current.kind = .integer) :
    J.Holds level (J.Makes (J.At .past calls level) kept) Parser.integer Parser.integer s := by
  apply current hat
  simp only [text_erase]
  split
  · rename_i value hvalue
    exact J.pure ⟨fun _ => ⟨hinteger, by simp [hvalue]⟩, by cases J.blind <;> rfl,
      J.keep hat (hinteger ▸ rfl)⟩
  · rename_i hvalue
    apply J.bind (J.note _ hat)
    rintro _ _ t ⟨hcursor, hat⟩
    rw [← hcursor] at hinteger hvalue ⊢
    exact J.pure ⟨fun _ => ⟨hinteger, by simp [hvalue]⟩, by cases J.blind <;> rfl,
      J.keep hat (hinteger ▸ rfl)⟩

theorem prefixRule (h : J.OnParts (calls + 1) first second)
    (hat : J.At .here (calls + 1) level kept s) {rule : PrefixRule}
    (hrule : Grammar.standard.prefixRule (cursor s).current.kind = some rule) :
    J.Holds level (J.Makes (J.At .past (calls + 1) level) kept) (rule.parser first)
      (rule.parser second) s := by
  have hkind := Grammar.mem_kinds_of_prefixRule hrule
  have hkeep := J.keep hat (Grammar.isPlain_of_prefixRule hrule)
  cases rule with
  | identifier =>
      apply current hat
      exact J.pure ⟨fun _ => ⟨List.mem_singleton.mp hkind, rfl⟩, by cases J.blind <;> rfl, hkeep⟩
  | integer => exact integer hat (List.mem_singleton.mp hkind)
  | string =>
      apply current hat
      exact J.pure ⟨fun _ => ⟨List.mem_singleton.mp hkind, rfl⟩, by cases J.blind <;> rfl, hkeep⟩
  | boolean =>
      apply current hat
      exact J.pure ⟨fun _ => ⟨hkind, decide_eq_true_iff⟩, by cases J.blind <;> rfl, hkeep⟩
  | unary =>
      apply current hat
      apply step
      apply J.bind (h.expression_behind .unary hkeep)
      rintro operand _ t ⟨hoperand, rfl, hpast⟩
      exact J.pure ⟨fun hasked => ⟨hkind, rfl, hoperand hasked⟩, by cases J.blind <;> rfl,
        by simpa using hpast⟩
  | grouping =>
      have hparen := List.mem_singleton.mp hkind
      apply step
      apply J.bind (h.expression_behind .lowest (J.drop hat (hparen ▸ rfl)))
      rintro value _ t ⟨hvalue, rfl, hpast⟩
      apply expect hpast (by decide)
      intro hclose hat
      exact J.pure ⟨hvalue, rfl, J.mono (J.drop hat (hclose ▸ rfl)) (by omega)⟩
  | conditional => exact h.conditional hat (List.mem_singleton.mp hkind)
  | function =>
      apply J.bind (h.functionDefinition hat (List.mem_singleton.mp hkind))
      rintro definition _ t ⟨hdefinition, rfl, hpast⟩
      exact J.pure ⟨hdefinition, by cases J.blind <;> rfl, hpast⟩

/-- The operator is current, and it is kept behind its left operand. -/
theorem infixRule (h : J.OnParts (calls + 1) first second) {left : Expr}
    (hleft : J.faithful → left.Faithful) {rule : InfixRule}
    (hkind : J.faithful → (cursor s).current.kind ∈ rule.kinds)
    (hpast : J.At .past (calls + 1) level (kept ++ left.tokens ++ [(cursor s).current]) s) :
    J.Holds level (J.Makes (J.At .past (calls + 1) level) kept)
      (rule.parser .standard first left) (rule.parser .standard second (erase J.blind left)) s := by
  cases rule with
  | binary =>
      apply current hpast
      apply step
      rw [kind_erase]
      apply J.bind (h.expression_behind _ hpast)
      rintro right _ t ⟨hright, rfl, hpast⟩
      exact J.pure ⟨fun hasked => ⟨hkind hasked, rfl, hleft hasked, hright hasked⟩,
        by cases J.blind <;> rfl, by simpa using hpast⟩
  | call =>
      apply current hpast
      apply beforeKind hpast (by decide)
      · intro hclose hat
        apply step
        have hdrop := J.mono (J.drop hat (hclose ▸ rfl)) (by omega : calls + 1 ≤ calls + 1 + 3)
        exact J.pure ⟨fun hasked => ⟨List.mem_singleton.mp (hkind hasked), hleft hasked, trivial⟩,
          by cases J.blind <;> rfl, by simpa using hdrop⟩
      · apply step
        apply J.bind (h.arguments (J.mono (J.advance_past hpast) (by omega)))
        rintro arguments _ t ⟨harguments, rfl, hpast⟩
        apply expect hpast (by decide)
        intro hclose hat
        have hdrop := J.mono (J.drop hat (hclose ▸ rfl)) (by omega : calls + 1 ≤ calls + 1 + 3)
        exact J.pure ⟨fun hasked =>
            ⟨List.mem_singleton.mp (hkind hasked), hleft hasked, harguments hasked⟩,
          by cases J.blind <;> rfl, by simpa using hdrop⟩

/-! ## Statements -/

theorem lineEnd (hpast : J.At .past calls level kept s) :
    J.Holds level (fun _ _ t => J.At .rest calls level kept t) Parser.lineEnd Parser.lineEnd s := by
  apply beforeKind hpast (by decide)
  · intro hline hat
    exact lastStep (J.mono (J.rest_newline hat hline) (by omega))
  · exact J.pure (J.rest_past hpast)

/-- A value at the end of a statement is followed by the end of its line.  The tokens in front of
the value, `head`, are kept already. -/
theorem value_lineEnd {value value' : Parser Expr} {result result' : Expr → Stmt}
    {head : List Token}
    (h : J.Holds level (J.Makes (J.At .past calls level) (kept ++ head)) value value' s)
    (hfaithful : ∀ value : Expr, value.Faithful → J.faithful → (result value).Faithful)
    (hother : ∀ value, result' (erase J.blind value) = erase J.blind (result value))
    (htokens : ∀ value, (result value).tokens = head ++ value.tokens) :
    J.Holds level (J.Makes (J.At .rest calls level) kept)
      (value >>= fun value => Parser.lineEnd >>= fun _ => Pure.pure (result value))
      (value' >>= fun value => Parser.lineEnd >>= fun _ => Pure.pure (result' value)) s := by
  apply J.bind h
  rintro value _ t ⟨hvalue, rfl, hpast⟩
  apply J.bind (lineEnd hpast)
  intro _ _ u hrest
  refine J.pure ⟨fun hasked => hfaithful value (hvalue hasked) hasked, hother value, ?_⟩
  simpa [htokens] using hrest

theorem var (h : J.OnParts (calls + 1) first second) (hat : J.At .here (calls + 1) level kept s)
    (hvar : (cursor s).current.kind = .kwVar) :
    J.Holds level (J.Makes (J.At .rest (calls + 1) level) kept) (Parser.var first)
      (Parser.var second) s := by
  apply current hat
  apply expect (J.keep hat (hvar ▸ rfl)) (by decide)
  intro htype hat
  apply expect (J.keep hat (htype ▸ rfl)) (by decide)
  intro hname hat
  apply expect (J.keep hat (hname ▸ rfl)) (by decide)
  intro hsign hat
  apply step
  have hhead := J.mono (J.drop hat (hsign ▸ rfl)) (by omega : calls + 1 ≤ calls + 1 + 3 + 3 + 3)
  rw [List.append_assoc, List.append_assoc] at hhead
  apply value_lineEnd (h.expression_behind .lowest hhead)
  · exact fun _ hvalue _ => ⟨hvar, ⟨htype, rfl⟩, ⟨hname, rfl⟩, hvalue⟩
  · exact fun _ => by cases J.blind <;> rfl
  · exact fun _ => rfl

theorem entrypoint (h : J.OnParts calls first second) (hat : J.At .here calls level kept s)
    (hentrypoint : (cursor s).current.kind = .kwEfunc) :
    J.Holds level (J.Makes (J.At .past calls level) kept) (Parser.entrypoint first)
      (Parser.entrypoint second) s := by
  apply current hat
  apply expect (J.keep hat (hentrypoint ▸ rfl)) (by decide)
  intro hname hat
  apply expect (J.keep hat (hname ▸ rfl)) (by decide)
  intro hparen hat
  apply expect (J.drop hat (hparen ▸ rfl)) (by decide)
  intro hclose hat
  apply expect (J.drop hat (hclose ▸ rfl)) (by decide)
  intro hopen hat
  apply J.bind (h.block (J.mono hat (by omega)) hopen)
  rintro body _ t ⟨hbody, rfl, hpast⟩
  exact J.pure ⟨fun hasked => ⟨hentrypoint, ⟨hname, rfl⟩, hbody hasked⟩, by cases J.blind <;> rfl,
    by simpa using hpast⟩

theorem expressionStmt (h : J.OnParts (calls + 1) first second)
    (hat : J.At .here (calls + 2) level kept s) :
    J.Holds level (J.Makes (J.At .rest (calls + 1) level) kept) (StmtRule.expression.parser first)
      (StmtRule.expression.parser second) s := by
  apply current hat
  have hhead : J.At .here (calls + 2) level (kept ++ []) s := by rwa [List.append_nil]
  apply value_lineEnd (h.expression .lowest hhead)
  · exact fun _ hvalue _ => hvalue
  · exact fun _ => by cases J.blind <;> rfl
  · exact fun _ => rfl

theorem stmtRule (h : J.OnParts (calls + 1) first second)
    (hat : J.At .here (calls + 2) level kept s) :
    J.Holds level (J.Makes (J.At .rest (calls + 1) level) kept)
      (((Grammar.standard.stmtRule (cursor s).current.kind).getD .expression).parser first)
      (((Grammar.standard.stmtRule (cursor s).current.kind).getD .expression).parser second)
      s := by
  cases hrule : Grammar.standard.stmtRule (cursor s).current.kind with
  | none => exact h.expressionStmt hat
  | some rule =>
      have hkind := Grammar.mem_kinds_of_stmtRule hrule
      have hless : J.At .here (calls + 1) level kept s := J.mono hat (by omega)
      cases rule with
      | expression => exact h.expressionStmt hat
      | var => exact h.var hless (List.mem_singleton.mp hkind)
      | ret =>
          have hret := List.mem_singleton.mp hkind
          apply current hat
          apply step
          apply value_lineEnd (h.expression_behind .lowest (J.keep hless (hret ▸ rfl)))
          · exact fun _ hvalue _ => ⟨hret, hvalue⟩
          · exact fun _ => by cases J.blind <;> rfl
          · exact fun _ => rfl
      | function =>
          apply J.bind (h.functionDefinition hless (List.mem_singleton.mp hkind))
          rintro definition _ t ⟨hdefinition, rfl, hpast⟩
          exact J.pure ⟨hdefinition, by cases J.blind <;> rfl, J.rest_past hpast⟩
      | entrypoint =>
          apply conseq (h.entrypoint hless (List.mem_singleton.mp hkind))
          rintro statement _ t ⟨hstatement, rfl, hpast⟩
          exact ⟨hstatement, rfl, J.rest_past hpast⟩
      | block =>
          apply J.bind (h.block hless (List.mem_singleton.mp hkind))
          rintro content _ t ⟨hcontent, rfl, hpast⟩
          exact J.pure ⟨hcontent, by cases J.blind <;> rfl, J.rest_past hpast⟩

theorem statement (h : J.OnParts (calls + 1) first second)
    (hat : J.At .here (calls + 2) level kept s) :
    J.Holds level (J.Makes (J.At .rest (calls + 1) level) kept) (Parser.statement .standard first)
      (Parser.statement .standard second) s := by
  apply current hat
  simp only [kind_erase]
  apply ite
  · intro hline
    have hrest := J.mono (J.rest_newline hat hline) (by omega : calls + 1 ≤ calls + 2)
    exact J.pure ⟨fun _ => trivial, by cases J.blind <;> rfl, by simpa using hrest⟩
  · intro _
    apply J.bind (h.stmtRule hat)
    rintro statement _ t ⟨hstatement, rfl, hrest⟩
    exact J.pure ⟨fun hasked => ⟨hstatement hasked, trivial⟩, by cases J.blind <;> rfl,
      by simpa using hrest⟩

/-! ## The rules of the parts themselves

Here one more call fits in, which is the call of the rule. -/

theorem expression_rule (h : J.OnParts (calls + 1) first second) (minimum : Precedence)
    (hat : J.At .here (calls + 1) level kept s) :
    J.Holds level (J.Makes (J.At .past calls level) kept)
      (Parser.expression .standard first minimum) (Parser.expression .standard second minimum)
      s := by
  apply current hat
  simp only [kind_erase]
  split
  · exact J.fail hat
  · rename_i rule hrule
    apply J.bind (h.prefixRule hat hrule)
    rintro left _ t ⟨hleft, rfl, hpast⟩
    apply conseq (h.operators minimum hleft hpast)
    exact fun _ _ _ hmakes => hmakes.mono (by omega)

theorem operators_rule (h : J.OnParts (calls + 1) first second) (minimum : Precedence) {left : Expr}
    (hleft : J.faithful → left.Faithful) (hpast : J.At .past calls level (kept ++ left.tokens) s) :
    J.Holds level (J.Makes (J.At .past calls level) kept)
      (Parser.operators .standard first minimum left)
      (Parser.operators .standard second minimum (erase J.blind left)) s := by
  have hstop : J.Holds level (J.Makes (J.At .past calls level) kept) (Pure.pure left)
      (Pure.pure (erase J.blind left)) s := J.pure ⟨hleft, rfl, hpast⟩
  apply peek hpast
  simp only [kind_erase]
  apply ite
  · exact fun _ => hstop
  intro _
  split
  · exact hstop
  rename_i precedence rule hrule
  apply ite
  · intro _
    have hcurrent : (cursor s).peek = (cursor (advance s)).current := by
      rw [cursor_advance, Cursor.current_advance]
    have hplain := Grammar.isPlain_of_infixRule hrule
    have hat := J.advance_peek hpast (TokenKind.ne_endOfInput_of_isPlain hplain)
    rw [hcurrent] at hrule hplain
    apply step
    apply J.bind (h.infixRule hleft (fun _ => Grammar.mem_kinds_of_infixRule hrule)
      (J.mono (J.keep hat hplain) (by omega)))
    rintro joined _ t ⟨hjoined, rfl, hpast⟩
    apply conseq (h.operators minimum hjoined hpast)
    exact fun _ _ _ hmakes => hmakes.mono (by omega)
  · exact fun _ => hstop

theorem arguments_rule (h : J.OnParts (calls + 1) first second)
    (hat : J.At .here (calls + 2) level kept s) :
    J.Holds level (J.Makes (J.At .past calls level) kept) (Parser.arguments first)
      (Parser.arguments second) s := by
  apply J.bind (h.expression .lowest hat)
  rintro argument _ t ⟨hargument, rfl, hpast⟩
  apply beforeKind hpast (by decide)
  · intro hcomma hat
    apply step
    apply step
    have hdrop := J.mono (J.drop hat (hcomma ▸ rfl)) (by omega : calls + 1 ≤ calls + 1 + 3)
    apply J.bind (h.arguments (J.mono (J.advance_past hdrop) (by omega)))
    rintro others _ u ⟨hothers, rfl, hlast⟩
    exact J.pure ⟨fun hasked => ⟨hargument hasked, hothers hasked⟩, by cases J.blind <;> rfl,
      by simpa using J.mono hlast (by omega : calls ≤ calls + 1)⟩
  · exact J.pure ⟨fun hasked => ⟨hargument hasked, trivial⟩, by cases J.blind <;> rfl,
      by simpa using J.mono hpast (by omega : calls ≤ calls + 1)⟩

theorem parameters_rule (h : J.OnParts (calls + 1) first second)
    (hpast : J.At .past calls level kept s) :
    J.Holds level (J.Makes (J.At .past calls level) kept) (Parser.parameters first)
      (Parser.parameters second) s := by
  apply J.bind (parameter hpast)
  rintro declared _ t ⟨hdeclared, rfl, hpast⟩
  apply beforeKind hpast (by decide)
  · intro hcomma hat
    apply step
    apply J.bind (h.parameters (J.mono (J.drop hat (hcomma ▸ rfl)) (by omega)))
    rintro others _ u ⟨hothers, rfl, hlast⟩
    exact J.pure
      ⟨fun hasked => List.forall_mem_cons.mpr ⟨hdeclared hasked, hothers hasked⟩,
        by cases J.blind <;> rfl, by simpa using J.mono hlast (by omega : calls ≤ calls + 1)⟩
  · exact J.pure ⟨fun hasked => List.forall_mem_singleton.mpr (hdeclared hasked),
      by cases J.blind <;> rfl, by simpa using hpast⟩

theorem statements_rule (h : J.OnParts (calls + 1) first second)
    (hat : J.At .here (calls + 2) level kept s) (hlines : J.Lines level s) :
    J.Holds level (J.Makes (J.At .stops calls level) kept) (Parser.statements .standard first)
      (Parser.statementsBy (J.guard (Parser.statement .standard second)) second) s := by
  have hless {phase} {kept : List Token} {t : σ} (h : J.At phase (calls + 1) level kept t) :
      J.At phase calls level kept t := J.mono h (by omega)
  apply current hat
  simp only [kind_erase]
  apply ite
  · exact fun hstop => J.pure ⟨fun _ => trivial, by cases J.blind <;> rfl,
      by simpa using J.stops_here hat hstop⟩
  intro hgoes
  apply ite
  · intro hline
    apply step
    have hrest := J.mono (J.rest_newline hat hline) (by omega : calls + 1 ≤ calls + 2)
    apply conseq (h.statements (J.advance_rest hrest hlines) (J.lines_advance hlines))
    exact fun _ _ _ hmakes => ⟨hmakes.faithful, hmakes.other_eq, hless hmakes.state⟩
  intro _
  have hend : (cursor s).current.kind ≠ .endOfInput := fun heof => hgoes (.inr heof)
  apply J.bind (J.frame hlines (J.attempt hat hend (h.statement hat)))
  rintro _ _ t ⟨⟨statement, _, rfl, rfl, hstatement, rfl, hrest⟩ | ⟨diagnostic, rfl, rfl, hbroken⟩,
    hlines⟩
  · apply step
    apply J.bind (h.statements (J.advance_rest hrest hlines) (J.lines_advance hlines))
    rintro others _ u ⟨hothers, rfl, hstops⟩
    exact J.pure
      ⟨fun hasked => Stmt.faithfulAll_append.mpr ⟨hstatement hasked, hothers hasked⟩,
        erase_toList_append statement others, by simpa using hless hstops⟩
  · apply J.bind (J.frame hlines (J.recover hbroken))
    rintro _ _ u ⟨hskipped, hlines⟩
    apply current hskipped
    simp only [kind_erase]
    apply ite
    · exact fun hstop => J.pure ⟨fun _ => trivial, by cases J.blind <;> rfl,
        by simpa using J.stops_skipped (hless hskipped) hstop⟩
    · intro hgoes
      have hnext := J.advance_skipped hskipped hlines (fun hclose => hgoes (.inl hclose))
        fun heof => hgoes (.inr heof)
      apply step
      apply conseq (h.statements hnext (J.lines_advance hlines))
      exact fun _ _ _ hmakes => ⟨hmakes.faithful, hmakes.other_eq, hless hmakes.state⟩

end OnParts

/-! ## Programs -/

variable {σ : Type} [Located σ] {J : Judgment σ} {first second : Parts} {calls : Nat}

/-- The judgment can follow a program, which goes on behind any token. -/
structure ReadsPrograms (J : Judgment σ) : Prop where
  lines : ∀ level s, J.Lines level s
  guard_eq : ∀ parser, J.guard parser = parser
  advance_skipped : ∀ {calls level kept s}, J.At .skipped (calls + 1) level kept s →
    J.At .here (calls + 3) level kept (advance s)

/-- The judgment holds of the parsers of two collections for a program. -/
def OnProgram (J : Judgment σ) (calls : Nat) (first second : Parts) : Prop :=
  ∀ level kept s, J.At .here (calls + 2) level kept s →
    J.Holds level
      (fun value other t => J.Makes (J.At .stops calls level) kept value other t ∧
        (cursor t).current.kind = .endOfInput) first.program second.program s

theorem OnParts.program_rule (h : J.OnParts (calls + 1) first second)
    (hprograms : J.ReadsPrograms) (hprogram : J.OnProgram (calls + 1) first second) {level : Nat}
    {kept : List Token} {s : σ} (hat : J.At .here (calls + 2) level kept s) :
    J.Holds level
      (fun value other t => J.Makes (J.At .stops calls level) kept value other t ∧
        (cursor t).current.kind = .endOfInput)
      (Parser.program .standard first) (Parser.program .standard second) s := by
  apply atKind hat
  · intro hend
    exact J.pure ⟨⟨fun _ => trivial, by cases J.blind <;> rfl,
      by simpa using J.stops_here hat (.inr hend)⟩, hend⟩
  intro hend
  have hattempt := J.attempt hat hend (h.statement hat)
  rw [hprograms.guard_eq] at hattempt
  apply J.bind hattempt
  rintro _ _ t (⟨statement, _, rfl, rfl, hstatement, rfl, hrest⟩ | ⟨diagnostic, rfl, rfl, hbroken⟩)
  · apply step
    apply J.bind (hprogram _ _ _ (J.advance_rest hrest (hprograms.lines level t)))
    rintro others _ u ⟨⟨hothers, rfl, hstops⟩, hlast⟩
    have hless := J.mono hstops (by omega : calls ≤ calls + 1)
    exact J.pure
      ⟨⟨fun hasked => Stmt.faithfulAll_append.mpr ⟨hstatement hasked, hothers hasked⟩,
        erase_toList_append statement others, by simpa using hless⟩, hlast⟩
  · apply J.bind (J.recover hbroken)
    intro _ _ u hskipped
    apply step
    apply conseq (hprogram _ _ _ (hprograms.advance_skipped hskipped))
    exact fun _ _ _ ⟨hmakes, hlast⟩ =>
      ⟨⟨hmakes.faithful, hmakes.other_eq, J.mono hmakes.state (by omega)⟩, hlast⟩

end Judgment

/-! ## Rules that call each other -/

/-- The parsers that follow the rules of the standard grammar, with `parts` for the parts of a
construct.  A statement of a block is read as `guard` says. -/
def Parts.next (guard : Parser (Option Stmt) → Parser (Option Stmt)) (parts : Parts) : Parts where
  expression := Parser.expression .standard parts
  operators := Parser.operators .standard parts
  arguments := Parser.arguments parts
  parameters := Parser.parameters parts
  statements := Parser.statementsBy (guard (Parser.statement .standard parts)) parts
  program := Parser.program .standard parts

theorem Grammar.parts_succ (depth : Nat) :
    standard.parts (depth + 1) = (standard.parts depth).next id := rfl

theorem Grammar.cautiousParts_succ (depth : Nat) :
    standard.cautiousParts (depth + 1) = (standard.cautiousParts depth).next Parser.cautious := rfl

namespace Judgment

variable {σ : Type} [Located σ] {J : Judgment σ} {first second : Parts} {calls : Nat}

/-- What holds of the parsers for the parts holds of those that follow the rules with them. -/
theorem OnParts.next (h : J.OnParts (calls + 1) first second) :
    J.OnParts calls (first.next id) (second.next J.guard) where
  expression minimum := h.expression_rule minimum
  operators minimum _ := h.operators_rule minimum
  arguments := h.arguments_rule
  parameters := h.parameters_rule
  statements := h.statements_rule
  persists := Parser.persists_statementsBy h.persists _

/-- The judgment holds of parsers that are exhausted at once. -/
def AllowsExhaustion (J : Judgment σ) : Prop :=
  ∀ (α : Type) (level : Nat) (post : α → α → σ → Prop) (s : σ),
    J.Holds level post Parser.exhausted Parser.exhausted s

theorem AllowsExhaustion.onParts (h : J.AllowsExhaustion) {second : Nat → Parts}
    (hzero : second 0 = Parts.exhausted)
    (hsucc : ∀ depth, second (depth + 1) = (second depth).next J.guard) (depth calls : Nat) :
    J.OnParts calls (Grammar.standard.parts depth) (second depth) := by
  induction depth generalizing calls with
  | zero =>
      rw [hzero]
      exact
        { expression := fun _ _ => h _ _ _ _
          operators := fun _ _ _ _ => h _ _ _ _
          arguments := fun _ => h _ _ _ _
          parameters := fun _ => h _ _ _ _
          statements := fun _ _ => h _ _ _ _
          persists := Parser.persists_exhausted }
  | succ depth ih =>
      rw [hsucc, Grammar.parts_succ]
      exact (ih (calls + 1)).next

theorem AllowsExhaustion.onProgram (h : J.AllowsExhaustion) (hprograms : J.ReadsPrograms)
    (depth calls : Nat) :
    J.OnProgram calls (Grammar.standard.parts depth) (Grammar.standard.parts depth) := by
  have hguard : J.guard = id := funext hprograms.guard_eq
  have hparts (depth calls : Nat) :
      J.OnParts calls (Grammar.standard.parts depth) (Grammar.standard.parts depth) :=
    h.onParts rfl (fun depth => by rw [hguard, Grammar.parts_succ]) depth calls
  induction depth generalizing calls with
  | zero => exact fun _ _ _ _ => h _ _ _ _
  | succ depth ih =>
      intro level kept s hat
      exact (hparts depth (calls + 1)).program_rule hprograms (ih (calls + 1)) hat

end Judgment

end LineScript
