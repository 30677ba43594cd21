import LineScript.Proofs.Parsing.Tracing

/-!
# The depth suffices

Recursion is bounded by a depth given in advance.  On a closed token list this bound is
never met: between two moves of the cursor the rules call each other at most three deep,
so four levels for each token to come are enough, whatever the tokens are.  From there on
a deeper bound changes nothing, and the parsers for the parts of a construct satisfy
their own rules as equations without a bound.
-/

namespace LineScript

/-- The token list is closed, and `room` is enough for every parser that starts here. -/
structure Cursor.Within (cursor : Cursor) (room : Nat) : Prop where
  closed : cursor.Closed
  length_le : 4 * cursor.upcoming.length + 3 ≤ room

theorem Cursor.Within.of_reaches {room : Nat} {start reached : Cursor} (h : start.Within room)
    (hreaches : start.Reaches reached) : reached.Within room :=
  ⟨hreaches.closed h.closed, by have := hreaches.length_le; have := h.length_le; omega⟩

theorem Cursor.Within.advance {room : Nat} {cursor : Cursor} (h : cursor.Within room) :
    cursor.advance.Within room :=
  h.of_reaches cursor.reaches_advance

theorem Cursor.Within.mono {room more : Nat} {cursor : Cursor} (h : cursor.Within room)
    (hle : room ≤ more) : cursor.Within more :=
  ⟨h.closed, Nat.le_trans h.length_le hle⟩

/-- The depth of a cursor is room enough to start there. -/
theorem Cursor.Closed.within_depth {cursor : Cursor} (h : cursor.Closed) :
    cursor.Within cursor.depth :=
  ⟨h, by unfold Cursor.depth; omega⟩

/-! ## Room for the rules that call each other -/

namespace Cursor

/-- Four levels for each token to come, and `calls` for the rules that are called before the next
move, fit into `room`.  Where the current token has been read, so do the calls with which reading
goes on, even if the list ends there. -/
structure HasRoom (room : Nat) (phase : Phase) (calls : Nat) (cursor : Cursor) : Prop where
  closed : cursor.Closed
  length_le : 4 * cursor.upcoming.length + calls ≤ room
  calls_le : phase ≠ .here → calls + 2 ≤ room

namespace HasRoom

variable {room calls : Nat} {phase other : Phase} {cursor reached : Cursor}

/-- A token that can be moved over leaves room, also for what is called where the list ends. -/
theorem of_ne_endOfInput (h : HasRoom room .here calls cursor)
    (hend : cursor.current.kind ≠ .endOfInput) : HasRoom room phase calls cursor := by
  have hlength := List.length_pos_iff.mpr (h.closed.upcoming_ne_nil hend)
  have hle := h.length_le
  exact ⟨h.closed, hle, fun _ => by omega⟩

/-- Two calls less fit in wherever the list goes on. -/
theorem of_here (h : HasRoom room .here (calls + 2) cursor) : HasRoom room phase calls cursor := by
  have hle := h.length_le
  exact ⟨h.closed, by omega, fun _ => by omega⟩

/-- It does not matter what has been done with the current token, once it has been read. -/
theorem of_ne_here (h : HasRoom room phase calls cursor) (hphase : phase ≠ .here) :
    HasRoom room other calls cursor :=
  ⟨h.closed, h.length_le, fun _ => h.calls_le hphase⟩

theorem mono (h : HasRoom room phase calls cursor) {fewer : Nat} (hfewer : fewer ≤ calls) :
    HasRoom room phase fewer cursor := by
  have hle := h.length_le
  refine ⟨h.closed, by omega, fun hphase => ?_⟩
  have hcalls := h.calls_le hphase
  omega

/-- A token that can be moved over pays for more calls behind it. -/
theorem advance_of_pos (h : HasRoom room phase calls cursor) (hlength : 0 < cursor.upcoming.length)
    {more : Nat} (hmore : more ≤ calls + 4) : HasRoom room .here more cursor.advance := by
  have hle := h.length_le
  refine ⟨h.closed.advance, ?_, fun hhere => absurd rfl hhere⟩
  rw [length_upcoming_advance]
  omega

theorem advance_openCurly (h : HasRoom room .here calls cursor)
    (hopen : cursor.current.kind = .openCurly) :
    HasRoom room .here (calls + 2) cursor.advance := by
  have hend : cursor.current.kind ≠ .endOfInput := by simp [hopen]
  exact h.advance_of_pos (List.length_pos_iff.mpr (h.closed.upcoming_ne_nil hend)) (by omega)

theorem advance_peek (h : HasRoom room phase calls cursor)
    (hpeek : cursor.peek.kind ≠ .endOfInput) : HasRoom room .here (calls + 3) cursor.advance :=
  h.advance_of_pos (List.length_pos_iff.mpr (h.closed.upcoming_ne_nil_of_peek hpeek)) (by omega)

theorem advance (h : HasRoom room phase (calls + 1) cursor) (hphase : phase ≠ .here) :
    HasRoom room .here (calls + 3) cursor.advance := by
  have hle := h.length_le
  have hcalls := h.calls_le hphase
  refine ⟨h.closed.advance, ?_, fun hhere => absurd rfl hhere⟩
  rw [length_upcoming_advance]
  omega

theorem reach (h : HasRoom room phase calls cursor) (hreaches : cursor.Reaches reached) :
    HasRoom room phase calls reached := by
  have hlength := hreaches.length_le
  have hle := h.length_le
  exact ⟨hreaches.closed h.closed, by omega, h.calls_le⟩

end HasRoom

end Cursor

/-! ## Parsers that agree -/

/-- Two parsers come to the same end at `cursor`, which is no exhaustion. -/
structure Parser.Agree {α : Type} (left right : Parser α) (cursor : Cursor) : Prop where
  outcome_eq : left cursor = right cursor
  verdict_ne : (left cursor).verdict ≠ .exhausted
  reaches : cursor.Reaches (left cursor).cursor

theorem map_erase_false {α : Type} [Placed α] (list : List α) : list.map (erase false) = list :=
  List.map_id' list

theorem Parser.Traces.agree {α : Type} {fails : Diagnostic → Trace → Prop}
    {post : α → α → Trace → Prop} {first second : Parser α} {cursor : Cursor}
    (h : Traces false True fails post first second ⟨[], cursor⟩)
    (hother : ∀ value other t, post value other t → other = value) : Agree first second cursor := by
  cases h with
  | success hfirst hsecond hreaches hpost =>
      rw [map_erase_false, hother _ _ _ hpost] at hsecond
      exact ⟨hfirst.trans hsecond.symm, by rw [hfirst]; simp, by rwa [hfirst]⟩
  | failure hfirst hsecond hreaches _ =>
      rw [map_erase_false] at hsecond
      exact ⟨hfirst.trans hsecond.symm, by rw [hfirst]; simp, by rwa [hfirst]⟩
  | exhausted _ _ _ htotal => exact absurd trivial htotal

/-- The room for the rules that call each other. -/
def watchRoom (room : Nat) : Tracing where
  At phase calls _ _ s := s.cursor.HasRoom room phase calls
  Lines _ _ := True
  mono h hle := h.mono hle
  keep h hplain := h.of_ne_endOfInput (TokenKind.ne_endOfInput_of_isPlain hplain)
  drop h hkind := h.of_ne_endOfInput
    (TokenKind.ne_endOfInput_of_isPlain (TokenKind.isPlain_of_isSeparator hkind))
  enter h hopen := ⟨h.advance_openCurly hopen, trivial⟩
  leave h := h.of_ne_here nofun
  rest_past h := h.of_ne_here nofun
  rest_newline h hline := h.of_ne_endOfInput fun hend => nomatch hline.symm.trans hend
  advance_past h := h.advance nofun
  advance_peek h hpeek := h.advance_peek hpeek
  advance_rest h _ := h.advance nofun
  advance_skipped h _ _ _ := h.advance nofun
  stops_here h _ := h.of_here
  stops_skipped h _ := h.of_ne_here nofun
  closes_stops h _ := h.of_ne_here nofun
  lines_advance h := h
  fails _ _ := True
  lines _ _ := trivial
  resume h := h.advance nofun
  fail _ _ := trivial
  missing _ _ := trivial
  note _ h := h
  unclosed _ h _ := h.of_ne_here nofun
  broken h hend hreaches _ := ((h.mono (Nat.le_succ _)).of_ne_endOfInput hend).reach hreaches
  recover h hreaches := (h.of_ne_here nofun).reach hreaches

/-- Two parsers with room come to the same end, which is no exhaustion. -/
def agreement (room : Nat) : Judgment Trace :=
  (watchRoom room).judgment false True False

/-! ## Every depth from the length of the list on -/

section Agreement

variable {room depth more calls : Nat} {cursor : Cursor}

/-- With more calls than room there is nowhere to start. -/
theorem agreement_of_lt {first second : Parts} (hcalls : room < calls)
    (hpersists : first.statements.Persists) :
    (agreement room).OnParts calls first second ∧
      (agreement room).OnProgram calls first second := by
  have hnone {phase : Phase} {some : Nat} {cursor : Cursor} (hsome : calls ≤ some)
      (hat : cursor.HasRoom room phase some) : False := by
    have := hat.length_le
    omega
  constructor
  · exact
      { expression := fun _ hat => (hnone (by omega) hat).elim
        operators := fun _ _ _ hat => (hnone (by omega) hat).elim
        arguments := fun hat => (hnone (by omega) hat).elim
        parameters := fun hat => (hnone (by omega) hat).elim
        statements := fun hat _ => (hnone (by omega) hat).elim
        persists := hpersists }
  · exact fun _ _ _ hat => (hnone (by omega) hat).elim

/-- Two depths that both suffice, besides the calls that are made already, give the same
parsers. -/
theorem agreement_parts (hdepth : room < depth + calls) (hmore : room < more + calls) :
    (agreement room).OnParts calls (Grammar.standard.parts depth) (Grammar.standard.parts more) ∧
      (agreement room).OnProgram calls (Grammar.standard.parts depth)
        (Grammar.standard.parts more) := by
  induction depth generalizing more calls with
  | zero => exact agreement_of_lt (by omega) (Grammar.persists_parts_statements _ _)
  | succ depth ih =>
      cases more with
      | zero => exact agreement_of_lt (by omega) (Grammar.persists_parts_statements _ _)
      | succ more =>
          obtain ⟨hparts, hprogram⟩ := ih (by omega : room < depth + (calls + 1))
            (by omega : room < more + (calls + 1))
          exact ⟨hparts.next, fun _ _ _ hat =>
            hparts.program_rule ((watchRoom room).readsPrograms _ _ _) hprogram hat⟩

/-- Room to start with the current token. -/
theorem Cursor.Within.here (h : cursor.Within room) :
    (agreement room).At .here 3 0 [] ⟨[], cursor⟩ :=
  ⟨h.closed, h.length_le, fun hphase => absurd rfl hphase⟩

/-- Room to go on behind the current token, whatever is kept already. -/
theorem Cursor.Within.past (h : cursor.Within room) (kept : List Token) :
    (agreement room).At .past 1 0 kept ⟨[], cursor⟩ := by
  have hle := h.length_le
  have hroom : cursor.HasRoom room .past 1 := ⟨h.closed, by omega, fun _ => by omega⟩
  exact hroom

end Agreement

/-! ## Wherever there is room -/

namespace Grammar

variable {room depth more : Nat} {cursor : Cursor}

section Agree

variable (hdepth : room ≤ depth) (hmore : room ≤ more) (h : cursor.Within room)

include hdepth hmore

theorem onParts_agreement :
    (agreement room).OnParts 1 (standard.parts depth) (standard.parts more) :=
  (agreement_parts (Nat.lt_succ_of_le hdepth) (Nat.lt_succ_of_le hmore)).1

include h

theorem expression_agree (minimum : Precedence) :
    ((standard.parts depth).expression minimum).Agree ((standard.parts more).expression minimum)
      cursor :=
  ((onParts_agreement hdepth hmore).expression minimum ((agreement room).mono h.here
    (by decide))).agree fun _ _ _ hmakes => hmakes.other_eq

theorem operators_agree (minimum : Precedence) (left : Expr) :
    ((standard.parts depth).operators minimum left).Agree
      ((standard.parts more).operators minimum left) cursor :=
  ((onParts_agreement hdepth hmore).operators minimum False.elim (h.past ([] ++ left.tokens))).agree
    fun _ _ _ hmakes => hmakes.other_eq

theorem arguments_agree :
    (standard.parts depth).arguments.Agree (standard.parts more).arguments cursor :=
  ((onParts_agreement hdepth hmore).arguments h.here).agree fun _ _ _ hmakes => hmakes.other_eq

theorem parameters_agree :
    (standard.parts depth).parameters.Agree (standard.parts more).parameters cursor :=
  ((onParts_agreement hdepth hmore).parameters (h.past [])).agree fun _ _ _ hmakes =>
    hmakes.other_eq

theorem statements_agree :
    (standard.parts depth).statements.Agree (standard.parts more).statements cursor :=
  ((onParts_agreement hdepth hmore).statements h.here trivial).agree fun _ _ _ hmakes =>
    hmakes.other_eq

theorem program_agree :
    (standard.parts depth).program.Agree (standard.parts more).program cursor :=
  ((agreement_parts (Nat.lt_succ_of_le hdepth) (Nat.lt_succ_of_le hmore)).2 0 [] ⟨[], cursor⟩
    h.here).agree fun _ _ _ hmakes => hmakes.1.other_eq

theorem statement_agree :
    (Parser.statement .standard (standard.parts depth)).Agree
      (Parser.statement .standard (standard.parts more)) cursor :=
  ((onParts_agreement hdepth hmore).statement ((agreement room).mono h.here
    (by decide))).agree fun _ _ _ hmakes => hmakes.other_eq

theorem parameterList_agree :
    (Parser.parameterList (standard.parts depth)).Agree
      (Parser.parameterList (standard.parts more)) cursor :=
  ((onParts_agreement hdepth hmore).parameterList (h.past [])).agree fun _ _ _ hmakes =>
    hmakes.other_eq

/-- A block, also one whose opening brace is missing. -/
theorem block_agree :
    (Parser.block (standard.parts depth)).Agree (Parser.block (standard.parts more)) cursor :=
  ((onParts_agreement hdepth hmore).openBlock rfl h.advance.here trivial).agree
    fun _ _ _ hmakes => hmakes.2.1

/-- The arguments of a call, also of one whose opening parenthesis is missing. -/
theorem call_agree (callee : Expr) :
    (InfixRule.call.parser .standard (standard.parts depth) callee).Agree
      (InfixRule.call.parser .standard (standard.parts more) callee) cursor :=
  ((onParts_agreement hdepth hmore).infixRule False.elim False.elim
    (h.past ([] ++ callee.tokens ++ [cursor.current]))).agree fun _ _ _ hmakes => hmakes.other_eq

end Agree

/-! With room for a cursor, the parsers for the parts satisfy their rules there as equations. -/

section Equations

variable (h : cursor.Within depth)

include h

theorem expression_eq (minimum : Precedence) :
    (standard.parts depth).expression minimum cursor =
      Parser.expression standard (standard.parts depth) minimum cursor :=
  (expression_agree (Nat.le_refl depth) (Nat.le_succ depth) h minimum).outcome_eq

theorem operators_eq (minimum : Precedence) (operand : Expr) :
    (standard.parts depth).operators minimum operand cursor =
      Parser.operators standard (standard.parts depth) minimum operand cursor :=
  (operators_agree (Nat.le_refl depth) (Nat.le_succ depth) h minimum operand).outcome_eq

theorem arguments_eq :
    (standard.parts depth).arguments cursor =
      Parser.arguments (standard.parts depth) cursor :=
  (arguments_agree (Nat.le_refl depth) (Nat.le_succ depth) h).outcome_eq

theorem parameters_eq :
    (standard.parts depth).parameters cursor =
      Parser.parameters (standard.parts depth) cursor :=
  (parameters_agree (Nat.le_refl depth) (Nat.le_succ depth) h).outcome_eq

theorem statements_eq :
    (standard.parts depth).statements cursor =
      Parser.statements standard (standard.parts depth) cursor :=
  (statements_agree (Nat.le_refl depth) (Nat.le_succ depth) h).outcome_eq

theorem program_eq :
    (standard.parts depth).program cursor =
      Parser.program standard (standard.parts depth) cursor :=
  (program_agree (Nat.le_refl depth) (Nat.le_succ depth) h).outcome_eq

/-- Any two depths that are room enough read the same program. -/
theorem program_eq_of_within {more : Nat} (hmore : cursor.Within more) :
    (standard.parts depth).program cursor = (standard.parts more).program cursor := by
  have hroom : cursor.Within (4 * cursor.upcoming.length + 3) := ⟨h.closed, Nat.le_refl _⟩
  exact (program_agree h.length_le hmore.length_le hroom).outcome_eq

end Equations

end Grammar

end LineScript
