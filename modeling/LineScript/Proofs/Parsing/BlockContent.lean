import LineScript.Proofs.Parsing.Locality
import LineScript.Proofs.Parsing.Provenance
import LineScript.Proofs.Parsing.ReadingBlocks
import LineScript.Proofs.Parsing.Termination

/-!
# Blocks read like programs

The lines between the braces of a block are read like the lines of a program, broken ones
included.  A block ends at a closing brace where a program records it and goes on.  So the two
are the same where no such brace comes: if the lines have no braces at all, or if the program
has no diagnostics.  Both are read statement by statement in two lists that are the same up to
the last line end, behind which the block has its closing brace and the program ends.
-/

namespace LineScript

/-! ## One statement of a block -/

namespace Grammar

open LineScript.Parser

variable {room : Nat} {cursor reached last : Cursor} {others : List Stmt}
variable {recorded more : List Diagnostic} {diagnostic : Diagnostic}

/-- No statement begins with a closing brace. -/
theorem statement_of_closeCurly (h : cursor.Within room)
    (hclose : cursor.current.kind = .closeCurly) :
    Parser.statement standard (standard.parts room) cursor =
      ⟨.failure ⟨.noPrefixRule .closeCurly, cursor.current.position⟩, [], cursor⟩ := by
  have hexpression : (standard.parts room).expression .lowest cursor =
      ⟨.failure ⟨.noPrefixRule .closeCurly, cursor.current.position⟩, [], cursor⟩ := by
    rw [expression_eq h, Parser.expression, current_bind, hclose]
    rfl
  have hrule : (StmtRule.expression.parser (standard.parts room)) cursor =
      ⟨.failure ⟨.noPrefixRule .closeCurly, cursor.current.position⟩, [], cursor⟩ := by
    rw [StmtRule.parser, current_bind, bind_of_failure hexpression]
  rw [Parser.statement, current_bind, hclose]
  exact bind_of_failure hrule _

/-- A line end is an empty statement. -/
theorem statement_of_newline (hline : cursor.current.kind = .newline) :
    Parser.statement standard (standard.parts room) cursor = ⟨.success none, [], cursor⟩ := by
  rw [Parser.statement, current_bind, ite_eq, if_pos hline]
  rfl

theorem statements_of_success (h : cursor.Within room)
    (hclose : cursor.current.kind ≠ .closeCurly) (hend : cursor.current.kind ≠ .endOfInput)
    {statement : Option Stmt}
    (hstatement : Parser.statement standard (standard.parts room) cursor =
      ⟨.success statement, recorded, reached⟩)
    (hothers : (standard.parts room).statements reached.advance =
      ⟨.success others, more, last⟩) :
    (standard.parts room).statements cursor =
      ⟨.success (statement.toList ++ others), recorded ++ more, last⟩ := by
  rw [statements_eq h, Parser.statements, statementsBy, current_bind]
  by_cases hline : cursor.current.kind = .newline
  · obtain ⟨hnone, rfl, rfl⟩ := Outcome.mk.inj ((statement_of_newline hline).symm.trans hstatement)
    obtain rfl := Verdict.success.inj hnone
    simp [hline, hothers]
  · simp [hclose, hend, hline, bind_of_success (attempt_of_success hstatement),
      bind_of_success hothers]

theorem statements_of_failure (h : cursor.Within room)
    (hclose : cursor.current.kind ≠ .closeCurly) (hend : cursor.current.kind ≠ .endOfInput)
    (hstatement : Parser.statement standard (standard.parts room) cursor =
      ⟨.failure diagnostic, recorded, reached⟩)
    (hskipped : (Cursor.resync 0 reached.current reached.upcoming).current.kind = .newline)
    (hothers : (standard.parts room).statements
        (Cursor.resync 0 reached.current reached.upcoming).advance =
      ⟨.success others, more, last⟩) :
    (standard.parts room).statements cursor =
      ⟨.success others, recorded ++ diagnostic :: more, last⟩ := by
  have hline : cursor.current.kind ≠ .newline := by
    intro hline
    rw [statement_of_newline hline] at hstatement
    cases hstatement
  have hrecover : Parser.recover diagnostic reached =
      ⟨.success (), [diagnostic], Cursor.resync 0 reached.current reached.upcoming⟩ := rfl
  rw [statements_eq h, Parser.statements, statementsBy, current_bind]
  simp [hclose, hend, hline, bind_of_success (attempt_of_failure hstatement),
    bind_of_success hrecover, hskipped, hothers]

/-- In a block, reading from `start` on gives the statements and diagnostics, and then what
reading from `next` on gives. -/
def PrecedesInBlock (room : Nat) (statements : List Stmt) (diagnostics : List Diagnostic)
    (start next : Cursor) : Prop :=
  ∀ others recorded last,
    (standard.parts room).statements next = ⟨.success others, recorded, last⟩ →
      (standard.parts room).statements start =
        ⟨.success (statements ++ others), diagnostics ++ recorded, last⟩

theorem PrecedesInBlock.trans {statements : List Stmt} {diagnostics : List Diagnostic}
    {start middle next : Cursor} (h : PrecedesInBlock room statements diagnostics start middle)
    (hnext : PrecedesInBlock room others more middle next) :
    PrecedesInBlock room (statements ++ others) (diagnostics ++ more) start next := by
  intro rest recorded last hrest
  rw [h _ _ _ (hnext rest recorded last hrest), List.append_assoc, List.append_assoc]

/-- The program from here on has no diagnostics. -/
def Quiet (room : Nat) (cursor : Cursor) : Prop :=
  ∀ statements recorded last,
    (standard.parts room).program cursor = ⟨.success statements, recorded, last⟩ → recorded = []

theorem Quiet.of_precedes {statements : List Stmt} {diagnostics : List Diagnostic}
    {start next : Cursor} (h : Quiet room start)
    (hprecedes : Precedes room statements diagnostics start next) : Quiet room next := by
  intro others recorded last hothers
  exact (List.append_eq_nil_iff.mp (h _ _ _ (hprecedes others recorded last hothers))).2

/-- No statement of a program fails if it has no diagnostics. -/
theorem Quiet.statement_ne (h : Quiet room cursor) (hwithin : cursor.Within room)
    (hend : cursor.current.kind ≠ .endOfInput) :
    Parser.statement standard (standard.parts room) cursor ≠
      ⟨.failure diagnostic, recorded, reached⟩ := by
  intro hstatement
  have hreaches := (statement_agree (Nat.le_refl room) (Nat.le_refl room) hwithin).reaches
  rw [hstatement] at hreaches
  have hnext := ((hwithin.of_reaches hreaches).of_reaches
    (Cursor.reaches_resync 0 reached.current reached.upcoming)).advance
  obtain ⟨others, more, last, hothers⟩ := exists_program hnext
  exact absurd (h _ _ _ (program_of_failure hwithin hend hstatement hothers)) (by simp)

end Grammar

/-! ## A block and a program side by side -/

namespace Border

variable {border : Border} {depth room : Nat} {left right : Cursor}

/-- Up to the border no closing brace ends the block at `left`: there is none, or the program
at `right` has no diagnostics. -/
def Calm (border : Border) (room : Nat) (left right : Cursor) : Prop :=
  (∀ reached other depth, left.Reaches reached → border.Before depth reached other →
      reached.current.kind ≠ .closeCurly) ∨
    Grammar.Quiet room right

theorem Calm.of_reaches {next next' : Cursor} {statements : List Stmt}
    {diagnostics : List Diagnostic} (h : border.Calm room left right) (hreaches : left.Reaches next)
    (hprecedes : Grammar.Precedes room statements diagnostics right next') :
    border.Calm room next next' :=
  h.imp (fun hopen reached other depth hreached => hopen reached other depth
    (hreaches.trans hreached)) fun hquiet => hquiet.of_precedes hprecedes

/-- No closing brace is where a statement can begin. -/
theorem Calm.current_ne (h : border.Calm room left right) (hbefore : border.Before depth left right)
    (hline : border.token.kind = .newline) (hright : right.Within room) :
    left.current.kind ≠ .closeCurly := by
  intro hclose
  rcases h with hopen | hquiet
  · exact hopen left right depth (.refl left) hbefore hclose
  · have hne := hbefore.current_ne_endOfInput hline
    rw [hbefore.current_eq] at hclose hne
    exact hquiet.statement_ne hright hne (Grammar.statement_of_closeCurly hright hclose)

/-- One statement of a block is read like one of a program. -/
theorem exists_precedesInBlock (hline : border.token.kind = .newline)
    (hbefore : border.Before depth left right) (hleft : left.Within room)
    (hright : right.Within room) (hcalm : border.Calm room left right) :
    ∃ statements diagnostics stopped stopped',
      Grammar.PrecedesInBlock room statements diagnostics left stopped.advance ∧
      Grammar.Precedes room statements diagnostics right stopped'.advance ∧
      left.Reaches stopped ∧ right.Reaches stopped' ∧
      border.Together stopped.advance stopped'.advance := by
  have hclose := hcalm.current_ne hbefore hline hright
  have hne := hbefore.current_ne_endOfInput hline
  have hne' : right.current.kind ≠ .endOfInput := hbefore.current_eq ▸ hne
  obtain ⟨recorded, stopped, stopped', hreaches, hreaches', hresult⟩ :=
    hbefore.exists_statement hleft hright
  rcases hresult with ⟨statement, hstatement, hstatement', htogether⟩ |
    ⟨diagnostic, deeper, hstatement, hstatement', hfails⟩
  · exact ⟨statement.toList, recorded, stopped, stopped',
      fun _ _ _ => Grammar.statements_of_success hleft hclose hne hstatement,
      fun _ _ _ => Grammar.program_of_statement hright hne' hstatement',
      hreaches, hreaches', htogether⟩
  · have hopen := hcalm.resolve_right fun hquiet => hquiet.statement_ne hright hne' hstatement'
    have hskips := hreaches.trans (Cursor.reaches_resync 0 stopped.current stopped.upcoming)
    obtain ⟨hresync, hstops⟩ := hfails.recover
    -- The statement is skipped up to a line end, for there is no brace to stop at.
    have hskipped : (Cursor.resync 0 stopped.current stopped.upcoming).current.kind = .newline := by
      rcases hstops with hend | ⟨-, hnewline | hbrace⟩
      · exact absurd hend (hresync.current_ne_endOfInput hline)
      · exact hnewline
      · exact absurd hbrace (hopen _ _ _ hskips hresync)
    refine ⟨[], recorded ++ [diagnostic], Cursor.resync 0 stopped.current stopped.upcoming,
      Cursor.resync 0 stopped'.current stopped'.upcoming, fun others more last hothers => ?_,
      fun others more last hothers => ?_, hskips,
      hreaches'.trans (Cursor.reaches_resync 0 _ _), hresync.advance⟩
    · rw [List.append_assoc]
      exact Grammar.statements_of_failure hleft hclose hne hstatement hskipped hothers
    · rw [List.append_assoc]
      exact Grammar.program_of_failure hright hne' hstatement' hothers

/-- Up to the border a block is read like a program. -/
theorem exists_precedesInBlock_border (hline : border.token.kind = .newline)
    (hbefore : border.Before depth left right) (hleft : left.Within room)
    (hright : right.Within room) (hcalm : border.Calm room left right) :
    ∃ statements diagnostics,
      Grammar.PrecedesInBlock room statements diagnostics left
        (Cursor.mk border.token border.left).advance ∧
      Grammar.Precedes room statements diagnostics right
        (Cursor.mk border.token border.right).advance := by
  apply exists_to_border (border.Calm room) .trans .trans ?_ hline hbefore hleft hright hcalm
  intro depth left right hbefore hleft hright hcalm
  obtain ⟨statements, diagnostics, stopped, stopped', hprecedes, hprecedes', hreaches, hreaches',
    hnext⟩ := exists_precedesInBlock hline hbefore hleft hright hcalm
  have hnextCalm := hcalm.of_reaches (hreaches.trans stopped.reaches_advance) hprecedes'
  exact ⟨statements, diagnostics, stopped, stopped', hprecedes, hprecedes', hreaches, hreaches',
    hnext, hnextCalm⟩

end Border

/-! ## Where the lines between the braces are shared -/

namespace Border

variable {border : Border} {body : List Token}

/-- Tokens behind which no brace is open are a shared stretch. -/
theorem shared_of_depthBehind {depth : Nat} (hend : ∀ token ∈ body, token.kind ≠ .endOfInput)
    (h : Token.depthBehind depth body = some 0) :
    border.Shared depth (body ++ border.token :: border.left)
      (body ++ border.token :: border.right) := by
  induction body generalizing depth with
  | nil => exact .border (.inr (Option.some_inj.mp h))
  | cons token others ih =>
      obtain ⟨htoken, hothers⟩ := List.forall_mem_cons.mp hend
      obtain ⟨inner, hdepth, hrest⟩ := Option.bind_eq_some_iff.mp h
      exact .cons htoken hdepth (ih hothers hrest)

/-- Without a closing brace up to the border nothing ends a block. -/
theorem calm_of_forall {room : Nat} {left right : Cursor} (hline : border.token.kind = .newline)
    (hleft : left.tokens = body ++ border.token :: border.left)
    (hbody : ∀ token ∈ body, token.kind ≠ .closeCurly) : border.Calm room left right := by
  refine .inl fun reached other depth hreaches hbefore => ?_
  obtain ⟨passed, hpassed⟩ := hreaches
  obtain ⟨ahead, hahead, -⟩ := Shared.exists_append hbefore
  have hsplit : body = passed ++ ahead := by
    rw [Cursor.Passes, hleft, hahead, ← List.append_assoc] at hpassed
    exact List.append_cancel_right hpassed
  cases ahead with
  | nil =>
      obtain ⟨hcurrent, -⟩ := List.cons.inj hahead
      simp [hcurrent, hline]
  | cons first others =>
      obtain ⟨hcurrent, -⟩ := List.cons.inj hahead
      exact hcurrent ▸ hbody first (by simp [hsplit])

end Border

/-- Behind the lines of a program no brace is open if they have none, or if nothing is recorded. -/
theorem depthBehind_of_calm {line : Token} {body : List Token} (hline : line.kind = .newline)
    (hend : ∀ token ∈ body, token.kind ≠ .endOfInput)
    (hcalm : (∀ token ∈ body, token.kind ≠ .openCurly ∧ token.kind ≠ .closeCurly) ∨
      (parse (body ++ [line])).diagnostics = []) : Token.depthBehind 0 body = some 0 := by
  rcases hcalm with hflat | hquiet
  · exact Token.depthBehind_of_other hflat 0
  · have hbehind := depthBehind_of_quiet (by simpa using hend) hquiet
    have hother : ∀ token ∈ line :: Cursor.closed line [],
        token.kind ≠ .openCurly ∧ token.kind ≠ .closeCurly := by
      simp [Cursor.closed, hline, Token.endAt]
    rw [Cursor.tokens_ofTokens_append, Token.depthBehind_append] at hbehind
    simpa [Cursor.ofTokens, Cursor.tokens, Token.depthBehind_of_other hother] using hbehind

/-- A list that ends earlier needs no more room. -/
theorem Cursor.Within.of_append {room : Nat} {front rest : List Token} {line next : Token}
    (h : (ofTokens (front ++ line :: next :: rest)).Within room) :
    (ofTokens (front ++ [line])).Within room := by
  have htokens : (ofTokens (front ++ line :: next :: rest)).tokens =
      front ++ line :: next :: Cursor.closed next rest :=
    tokens_ofTokens_append front line (next :: rest)
  have hlength := congrArg List.length htokens
  have hle := length_upcoming_ofTokens_le (front ++ [line])
  have hleRoom := h.length_le
  simp only [tokens, List.length_append, List.length_cons] at hlength
  rw [List.length_append, List.length_singleton] at hle
  exact ⟨closed_ofTokens _, by omega⟩

/-- The statements of a block are those of the program that its lines are. -/
theorem statements_eq_parse {room : Nat} {line closing : Token} {body rest : List Token}
    (hline : line.kind = .newline) (hclosing : closing.kind = .closeCurly)
    (hend : ∀ token ∈ body, token.kind ≠ .endOfInput)
    (hcalm : (∀ token ∈ body, token.kind ≠ .openCurly ∧ token.kind ≠ .closeCurly) ∨
      (parse (body ++ [line])).diagnostics = [])
    (hroom : (Cursor.ofTokens (body ++ line :: closing :: rest)).Within room) :
    (Grammar.standard.parts room).statements (Cursor.ofTokens (body ++ line :: closing :: rest)) =
      ⟨.success (parse (body ++ [line])).program.statements, (parse (body ++ [line])).diagnostics,
        ⟨closing, Cursor.closed closing rest⟩⟩ := by
  let border : Border :=
    ⟨line, Cursor.closed line (closing :: rest), Cursor.closed line [], .inl hline,
      by simp [hline]⟩
  have hleft : (Cursor.ofTokens (body ++ line :: closing :: rest)).tokens =
      body ++ border.token :: border.left :=
    Cursor.tokens_ofTokens_append body line (closing :: rest)
  have hright : (Cursor.ofTokens (body ++ [line])).tokens = body ++ border.token :: border.right :=
    Cursor.tokens_ofTokens_append body line []
  have hroom' := hroom.of_append
  have hbefore : border.Before 0 (Cursor.ofTokens (body ++ line :: closing :: rest))
      (Cursor.ofTokens (body ++ [line])) := by
    unfold Border.Before
    rw [hleft, hright]
    exact Border.shared_of_depthBehind hend (depthBehind_of_calm hline hend hcalm)
  have hcalmBorder : border.Calm room (Cursor.ofTokens (body ++ line :: closing :: rest))
      (Cursor.ofTokens (body ++ [line])) := by
    rcases hcalm with hflat | hquiet
    · exact Border.calm_of_forall hline hleft fun token htoken => (hflat token htoken).2
    · refine .inr fun statements recorded last hprogram => ?_
      rwa [parse_eq hroom' hprogram] at hquiet
  obtain ⟨statements, diagnostics, hprecedes, hprecedes'⟩ :=
    Border.exists_precedesInBlock_border hline hbefore hroom hroom' hcalmBorder
  have hreaches : (Cursor.ofTokens (body ++ line :: closing :: rest)).Reaches
      ⟨border.token, border.left⟩ := ⟨body, hleft⟩
  have hreaches' : (Cursor.ofTokens (body ++ [line])).Reaches ⟨border.token, border.right⟩ :=
    ⟨body, hright⟩
  have hlast : (Cursor.mk border.token border.right).advance.current.kind = .endOfInput := by
    simp [border, Cursor.closed, hline, Cursor.peek, Token.endAt]
  have hclosed := hprecedes _ _ _
    (statements_of_closeCurly (hroom.of_reaches hreaches).advance hclosing)
  have hprogram := hprecedes' _ _ _
    (Grammar.program_of_endOfInput (hroom'.of_reaches hreaches').advance hlast)
  rw [parse_eq hroom' hprogram]
  exact hclosed

/-- A block whose first line is empty has the statements behind that line. -/
theorem block_of_newline {room : Nat} {cursor reached : Cursor} {statements : List Stmt}
    {recorded : List Diagnostic} (hline : cursor.advance.current.kind = .newline)
    (hstatements : (Grammar.standard.parts room).statements cursor.advance.advance =
      ⟨.success statements, recorded, reached⟩)
    (hreached : reached.current.kind ≠ .endOfInput) :
    Parser.block (Grammar.standard.parts room) cursor =
      ⟨.success ⟨cursor.current, statements⟩, recorded, reached⟩ := by
  have hskip : Parser.skipLineEnd cursor.advance =
      ⟨.success (), [], cursor.advance.advance⟩ := by
    rw [Parser.skipLineEnd, Parser.atKind_bind, hline]
    rfl
  have hbody : Parser.blockBody (Grammar.standard.parts room) cursor.advance.advance =
      ⟨.success statements, recorded, reached⟩ := by
    rw [Parser.blockBody, Parser.bind_of_success hstatements, Parser.current_bind]
    simp [hreached]
  rw [Parser.block, Parser.current_bind, Parser.advance_bind, Parser.bind_of_success hskip,
    Parser.bind_of_success hbody]
  simp

/-- The lines between the braces of a block have the statements and diagnostics that they have as
a program, and the block ends at its closing brace, whatever comes behind it: if the lines have
no braces, however broken they are, or if the program has no diagnostics. -/
theorem block_eq_parse {opening first line closing : Token} {body rest : List Token}
    (hfirst : first.kind = .newline) (hline : line.kind = .newline)
    (hclosing : closing.kind = .closeCurly) (hend : ∀ token ∈ body, token.kind ≠ .endOfInput)
    (hcalm : (∀ token ∈ body, token.kind ≠ .openCurly ∧ token.kind ≠ .closeCurly) ∨
      (parse (body ++ [line])).diagnostics = []) :
    let cursor := Cursor.ofTokens (opening :: first :: body ++ line :: closing :: rest)
    Parser.block (cursor.parts .standard) cursor =
      ⟨.success ⟨opening, (parse (body ++ [line])).program.statements⟩,
        (parse (body ++ [line])).diagnostics, ⟨closing, Cursor.closed closing rest⟩⟩ := by
  intro cursor
  have hlines : cursor.advance.advance = Cursor.ofTokens (body ++ line :: closing :: rest) := by
    cases body <;> rfl
  have hroom : cursor.advance.advance.Within cursor.depth :=
    (Cursor.closed_ofTokens _).within_depth.advance.advance
  rw [hlines] at hroom
  have hstatements := statements_eq_parse hline hclosing hend hcalm hroom
  rw [← hlines] at hstatements
  exact block_of_newline hfirst hstatements (by simp [hclosing])

/-- The tokens of a block in braces of their own lines. -/
def braced (body : List Token) : Cursor :=
  Cursor.ofTokens
    (⟨.openCurly, "\x7b", ⟨1, 1⟩⟩ :: ⟨.newline, "\n", ⟨1, 2⟩⟩ :: body ++
      ⟨.newline, "\n", ⟨3, 2⟩⟩ :: ⟨.closeCurly, "\x7d", ⟨4, 1⟩⟩ :: [.endAt ⟨4, 1⟩])

/-- Lines without braces, of which the first is broken: the tokens of `(` and, on the next
line, `y`. -/
def brokenLines : List Token :=
  [⟨.openParen, "(", ⟨2, 1⟩⟩, ⟨.newline, "\n", ⟨2, 2⟩⟩, ⟨.identifier, "y", ⟨3, 1⟩⟩]

/-- Lines with a block: the tokens of `{}` and, on the next line, `y`. -/
def nestedLines : List Token :=
  [⟨.openCurly, "\x7b", ⟨2, 1⟩⟩, ⟨.closeCurly, "\x7d", ⟨2, 2⟩⟩, ⟨.newline, "\n", ⟨2, 3⟩⟩,
    ⟨.identifier, "y", ⟨3, 1⟩⟩]

/-- Of the two blocks only the first has a diagnostic, and both end at their own brace. -/
theorem block_braced :
    Parser.block ((braced brokenLines).parts .standard) (braced brokenLines) =
        ⟨.success ⟨(braced brokenLines).current,
            (parse (brokenLines ++ [⟨.newline, "\n", ⟨3, 2⟩⟩])).program.statements⟩,
          (parse (brokenLines ++ [⟨.newline, "\n", ⟨3, 2⟩⟩])).diagnostics,
          ⟨⟨.closeCurly, "\x7d", ⟨4, 1⟩⟩, [.endAt ⟨4, 1⟩]⟩⟩ ∧
      (parse (brokenLines ++ [⟨.newline, "\n", ⟨3, 2⟩⟩])).diagnostics.length = 1 ∧
      Parser.block ((braced nestedLines).parts .standard) (braced nestedLines) =
        ⟨.success ⟨(braced nestedLines).current,
            (parse (nestedLines ++ [⟨.newline, "\n", ⟨3, 2⟩⟩])).program.statements⟩, [],
          ⟨⟨.closeCurly, "\x7d", ⟨4, 1⟩⟩, [.endAt ⟨4, 1⟩]⟩⟩ :=
  ⟨block_eq_parse rfl rfl rfl (by decide) (.inl (by decide)), by decide,
    block_eq_parse rfl rfl rfl (by decide) (.inr (by decide))⟩

end LineScript
