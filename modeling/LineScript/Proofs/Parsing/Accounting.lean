import LineScript.Proofs.Parsing.Provenance
import LineScript.Proofs.Tree.Induction

/-!
# Every token is accounted for

A parser that succeeds without recording anything has put each token that it moved over
into one node, unless it is punctuation.  So the tokens of a program without diagnostics
are those of its source.
-/

namespace LineScript

/-! ## The tokens that a faithful tree keeps -/

/-- The tokens are `origins` with punctuation between them, and none of them is reserved. -/
structure Spells (tokens origins : List Token) : Prop where
  significant_eq : significant tokens = origins
  not_reserved : ∀ token ∈ tokens, token.kind.isReserved = false

namespace Spells

variable {tokens origins others more : List Token} {token : Token}

theorem nil : Spells [] [] := ⟨rfl, by simp⟩

theorem append (h : Spells tokens origins) (hothers : Spells others more) :
    Spells (tokens ++ others) (origins ++ more) := by
  refine ⟨?_, fun token htoken => ?_⟩
  · rw [significant_append, h.significant_eq, hothers.significant_eq]
  rcases List.mem_append.mp htoken with hleft | hright
  · exact h.not_reserved token hleft
  · exact hothers.not_reserved token hright

theorem origin (horigin : token.kind.IsOrigin) : Spells [token] [token] :=
  ⟨significant_of_isOrigin horigin [], by simp [horigin.2]⟩

theorem cons (horigin : token.kind.IsOrigin) (h : Spells tokens origins) :
    Spells (token :: tokens) (token :: origins) :=
  (origin horigin).append h

theorem cons_openParen (hparen : token.kind = .openParen) (h : Spells tokens origins) :
    Spells (token :: tokens) origins := by
  have hspells : Spells [token] [] :=
    ⟨significant_of_isPunctuation (hparen ▸ rfl) [], by simp [hparen, TokenKind.isReserved]⟩
  exact hspells.append h

end Spells

theorem Name.Faithful.isOrigin {name : Name} (h : name.Faithful) : name.token.kind.IsOrigin :=
  h.kind_eq ▸ ⟨rfl, rfl⟩

theorem TypeName.Faithful.isOrigin {name : TypeName} (h : name.Faithful) :
    name.token.kind.IsOrigin :=
  h.kind_eq ▸ ⟨rfl, rfl⟩

theorem spells_parameters {parameters : List Parameter}
    (h : ∀ parameter ∈ parameters, parameter.Faithful) :
    Spells (parameters.flatMap Parameter.origins) (parameters.flatMap Parameter.origins) := by
  induction parameters with
  | nil => exact .nil
  | cons parameter others ih =>
      obtain ⟨hparameter, hothers⟩ := List.forall_mem_cons.mp h
      exact .cons hparameter.declaredType.isOrigin (.cons hparameter.name.isOrigin (ih hothers))

theorem spells_returnType {returnType : Option TypeName}
    (h : ∀ type ∈ returnType, type.Faithful) :
    Spells (TypeName.originsOf returnType) (TypeName.originsOf returnType) := by
  cases returnType with
  | none => exact .nil
  | some type => exact .origin (h type rfl).isOrigin

theorem spells_exprs {expressions : List Expr}
    (h : ∀ e ∈ expressions, e.Faithful → Spells e.tokens e.origins)
    (hfaithful : Expr.FaithfulAll expressions) :
    Spells (Expr.tokensAll expressions) (Expr.originsAll expressions) := by
  induction expressions with
  | nil => exact .nil
  | cons first others ih =>
      obtain ⟨hfirst, hothers⟩ := List.forall_mem_cons.mp h
      exact (hfirst hfaithful.1).append (ih hothers hfaithful.2)

theorem spells_stmts {statements : List Stmt}
    (h : ∀ statement ∈ statements, statement.Faithful →
      Spells statement.tokens statement.origins)
    (hfaithful : Stmt.FaithfulAll statements) :
    Spells (Stmt.tokensAll statements) (Stmt.originsAll statements) := by
  induction statements with
  | nil => exact .nil
  | cons first others ih =>
      obtain ⟨hfirst, hothers⟩ := List.forall_mem_cons.mp h
      exact (hfirst hfaithful.1).append (ih hothers hfaithful.2)

/-- Of the tokens that it keeps, a node that says what they say lists all but the parentheses of
calls. -/
theorem spells_hereditary :
    Hereditary (fun e => e.Faithful → Spells e.tokens e.origins)
      (fun block => block.Faithful → Spells block.tokens block.origins)
      (fun definition => definition.Faithful → Spells definition.tokens definition.origins)
      (fun statement => statement.Faithful → Spells statement.tokens statement.origins) := by
  have hliteral : ∀ kind ∈ [TokenKind.trueLiteral, .falseLiteral], kind.IsOrigin := by decide
  have hunary : ∀ kind ∈ [TokenKind.dash, .exclamation], kind.IsOrigin := by decide
  have hbinary : ∀ kind ∈ Grammar.binaryKinds, kind.IsOrigin := by decide
  exact
    { identifier _ h := .origin h.isOrigin
      boolean _ _ h := .origin (hliteral _ h.1)
      integer _ _ h := .origin (h.1 ▸ ⟨rfl, rfl⟩)
      string _ _ h := .origin (h.1 ▸ ⟨rfl, rfl⟩)
      unary _ _ _ hoperand h := .cons (hunary _ h.1) (hoperand h.2.2)
      binary _ _ _ _ hleft hright h :=
        (hleft h.2.2.1).append (.cons (hbinary _ h.1) (hright h.2.2.2))
      conditional _ _ _ hcondition hconsequence h :=
        (Spells.cons (h.1 ▸ ⟨rfl, rfl⟩) (hcondition h.2.1)).append (hconsequence h.2.2)
      alternative _ _ _ _ hcondition hconsequence halternative h :=
        ((Spells.cons (h.1 ▸ ⟨rfl, rfl⟩) (hcondition h.2.1)).append (hconsequence h.2.2.1)).append
          (halternative h.2.2.2)
      call _ _ _ hcallee harguments h :=
        (hcallee h.2.1).append (.cons_openParen h.1 (spells_exprs harguments h.2.2))
      function _ hdefinition h := hdefinition h
      block _ _ hstatements h := .cons (h.1 ▸ ⟨rfl, rfl⟩) (spells_stmts hstatements h.2)
      definition _ _ _ _ _ hbody h :=
        ((Spells.cons (h.1 ▸ ⟨rfl, rfl⟩) (.cons h.2.1.isOrigin (spells_parameters h.2.2.1))).append
          (spells_returnType h.2.2.2.1)).append (hbody h.2.2.2.2)
      expressionStmt _ _ hvalue h := hvalue h
      blockStmt _ hcontent h := hcontent h
      varStmt _ _ _ _ hvalue h :=
        .cons (h.1 ▸ ⟨rfl, rfl⟩) (.cons h.2.1.isOrigin (.cons h.2.2.1.isOrigin (hvalue h.2.2.2)))
      retStmt _ _ hvalue h := .cons (h.1 ▸ ⟨rfl, rfl⟩) (hvalue h.2)
      functionStmt _ hdefinition h := hdefinition h
      entrypointStmt _ _ _ hbody h :=
        .cons (h.1 ▸ ⟨rfl, rfl⟩) (.cons h.2.1.isOrigin (hbody h.2.2)) }

theorem Program.Faithful.spells {program : Program} (h : program.Faithful) :
    Spells program.tokens program.origins :=
  spells_stmts (fun statement _ => spells_hereditary.stmt statement) h

/-! ## Programs -/

/-- The end of input that closes a list is not significant. -/
theorem Cursor.significant_closed (first : Token) (others : List Token) :
    significant (closed first others) = significant others := by
  induction others generalizing first with
  | nil =>
      by_cases hfirst : first.kind = .endOfInput
      · simp [closed, hfirst]
      · rw [closed, if_neg hfirst]
        exact significant_of_isPunctuation rfl []
  | cons next rest ih => rw [closed, significant_cons, significant_cons next rest, ih]

theorem Cursor.significant_ofTokens (list : List Token) :
    significant (ofTokens list).tokens = significant list := by
  cases list with
  | nil => rfl
  | cons first others =>
      rw [ofTokens, tokens, significant_cons, significant_cons first others, significant_closed]

/-- Without diagnostics the tokens of a program and punctuation are all that its source has. -/
theorem spells_parse {list : List Token}
    (hend : ∀ token ∈ list.dropLast, token.kind ≠ .endOfInput)
    (hquiet : (parse list).diagnostics = []) :
    significant list = (parse list).program.origins ∧
      ∀ token ∈ (parse list).program.origins, token.kind.isReserved = false := by
  obtain ⟨last, hfaithful, hgathers, hreaches, hlast⟩ := exists_gathers_parse list
  have hspelled := hgathers.spelled hquiet
  have hspells := hfaithful.spells
  rw [Cursor.significant_ofTokens, hspells.significant_eq, Cursor.tokens,
    hreaches.upcoming_eq_nil hend hlast, significant_of_isPunctuation (hlast ▸ rfl)] at hspelled
  refine ⟨hspelled.trans (List.append_nil _), fun token htoken => hspells.not_reserved token ?_⟩
  rw [← hspells.significant_eq] at htoken
  exact (List.mem_filter.mp htoken).1

/-- If a program has no diagnostics, its tokens are those of its source, except for punctuation.
So a source with a reserved word or sign always has a diagnostic. -/
theorem parse_origins {list : List Token}
    (hend : ∀ token ∈ list.dropLast, token.kind ≠ .endOfInput) :
    ((parse list).diagnostics = [] → (parse list).program.origins = significant list) ∧
      ((∃ token ∈ list, token.kind.isReserved) → (parse list).diagnostics ≠ []) := by
  refine ⟨fun hquiet => (spells_parse hend hquiet).1.symm, ?_⟩
  rintro ⟨token, htoken, hreserved⟩ hquiet
  obtain ⟨hsignificant, hnot⟩ := spells_parse hend hquiet
  have hmem : token ∈ significant list := by
    simp [significant, htoken, TokenKind.isPunctuation_of_isReserved hreserved]
  rw [hsignificant] at hmem
  have hfalse := hnot token hmem
  rw [hreserved] at hfalse
  cases hfalse

/-- The tokens of `var int x = -(y)` and a line end. -/
def declaration : List Token :=
  [⟨.kwVar, "var", ⟨1, 1⟩⟩, ⟨.typeName, "int", ⟨1, 5⟩⟩, ⟨.identifier, "x", ⟨1, 9⟩⟩,
    ⟨.assignment, "=", ⟨1, 11⟩⟩, ⟨.dash, "-", ⟨1, 13⟩⟩, ⟨.openParen, "(", ⟨1, 14⟩⟩,
    ⟨.identifier, "y", ⟨1, 15⟩⟩, ⟨.closeParen, ")", ⟨1, 16⟩⟩, ⟨.newline, "\n", ⟨1, 17⟩⟩,
    .endAt ⟨2, 0⟩]

theorem parse_declaration_origins :
    (parse declaration).program.origins.map Token.text = ["var", "int", "x", "-", "y"] := by
  have hend : ∀ token ∈ declaration.dropLast, token.kind ≠ .endOfInput := by decide
  rw [(parse_origins hend).1 (by decide)]
  rfl

end LineScript
