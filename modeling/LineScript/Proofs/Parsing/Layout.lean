import LineScript.Proofs.Parsing.Program

/-!
# Parsers do not look at positions

A parser that starts on tokens without positions leaves what it leaves on the tokens with them,
only that the positions are missing there too.
-/

namespace LineScript

/-- Nothing is kept an eye on. -/
def watchNothing : Tracing where
  At _ _ _ _ _ := True
  Lines _ _ := True
  mono _ _ := trivial
  keep _ _ := trivial
  drop _ _ := trivial
  enter _ _ := ⟨trivial, trivial⟩
  leave _ := trivial
  rest_past _ := trivial
  rest_newline _ _ := trivial
  advance_past _ := trivial
  advance_peek _ _ := trivial
  advance_rest _ _ := trivial
  advance_skipped _ _ _ _ := trivial
  stops_here _ _ := trivial
  stops_skipped _ _ := trivial
  closes_stops _ _ := trivial
  lines_advance _ := trivial
  fails _ _ := True
  lines _ _ := trivial
  resume _ := trivial
  fail _ _ := trivial
  missing _ _ := trivial
  note _ _ := trivial
  unclosed _ _ _ := trivial
  broken _ _ _ _ := trivial
  recover _ _ := trivial

theorem Cursor.closed_unplaced (last : Token) (tokens : List Token) :
    closed last.unplaced (tokens.map Token.unplaced) =
      (closed last tokens).map Token.unplaced := by
  induction tokens generalizing last with
  | nil =>
      by_cases hlast : last.kind = .endOfInput
      · simp [closed, hlast]
      · simp [closed, hlast, Token.unplaced, Token.endAt]
  | cons token others ih => simp [closed, ih]

theorem Cursor.ofTokens_unplaced (tokens : List Token) :
    ofTokens (tokens.map Token.unplaced) = (ofTokens tokens).unplaced := by
  cases tokens with
  | nil => rfl
  | cons token others => simp [ofTokens, unplaced, closed_unplaced]

/-- Without the positions of its tokens a list has the same program and the same diagnostics,
only that these have no positions either. -/
theorem parse_unplaced (tokens : List Token) :
    parse (tokens.map Token.unplaced) =
      ⟨(parse tokens).program.unplaced, (parse tokens).diagnostics.map Diagnostic.unplaced⟩ := by
  obtain ⟨last, -, -, -, -, hother⟩ :=
    exists_parse watchNothing true False (trivial : watchNothing.At .here 2 0 [] ⟨[], _⟩)
  have hwithin := (Cursor.closed_ofTokens tokens).within_depth
  have hunplaced : (Cursor.ofTokens (tokens.map Token.unplaced)).Within
      (Cursor.ofTokens tokens).depth := by
    refine ⟨Cursor.closed_ofTokens _, ?_⟩
    simpa [Cursor.ofTokens_unplaced, Cursor.unplaced] using hwithin.length_le
  have hprogram : (Grammar.standard.parts (Cursor.ofTokens tokens).depth).program
      (Cursor.ofTokens (tokens.map Token.unplaced)) =
        ⟨.success (Stmt.unplacedAll (parse tokens).program.statements),
          (parse tokens).diagnostics.map Diagnostic.unplaced, last.unplaced⟩ := by
    rw [Cursor.ofTokens_unplaced]
    exact hother
  rw [parse_eq hunplaced hprogram, Program.unplaced, Stmt.unplacedAll_eq_map]

end LineScript
