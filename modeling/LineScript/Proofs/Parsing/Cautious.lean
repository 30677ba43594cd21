import LineScript.Parsing.Program

/-!
# Cautious parsing

A broken statement is skipped from where it failed.  When it failed right behind a block,
the closing brace of that block is still current, and skipping takes it for the end of
the statements around it.  A cautious parser does not go on from there: it is exhausted.
Everywhere else it does what the parser does.
-/

namespace LineScript

/-- The failure lies right behind a block, whose closing brace is current.  An expression
that begins with a closing brace fails on it too, but that brace closes nothing yet. -/
def Diagnostic.IsBehindBlock (diagnostic : Diagnostic) (reached : Cursor) : Prop :=
  reached.current.kind = .closeCurly ∧ diagnostic.cause ≠ .noPrefixRule .closeCurly

instance (diagnostic : Diagnostic) (reached : Cursor) :
    Decidable (diagnostic.IsBehindBlock reached) :=
  inferInstanceAs (Decidable (_ ∧ _))

/-- The parser, which is exhausted where it fails right behind a block. -/
def Parser.cautious {α : Type} (parser : Parser α) : Parser α := fun cursor =>
  match parser cursor with
  | ⟨.failure diagnostic, recorded, reached⟩ =>
    if diagnostic.IsBehindBlock reached then ⟨.exhausted, recorded, reached⟩
    else ⟨.failure diagnostic, recorded, reached⟩
  | outcome => outcome

namespace Parser

variable {α : Type} {parser : Parser α} {cursor : Cursor}

theorem cautious_eq_self (h : ∀ diagnostic, (parser cursor).verdict = .failure diagnostic →
      ¬diagnostic.IsBehindBlock (parser cursor).cursor) :
    parser.cautious cursor = parser cursor := by
  unfold cautious
  split
  · rename_i diagnostic recorded reached hparser
    rw [hparser] at h
    rw [if_neg (h diagnostic rfl), hparser]
  · rfl

theorem verdict_cautious_of_behindBlock {diagnostic : Diagnostic}
    (h : (parser cursor).verdict = .failure diagnostic)
    (hbehind : diagnostic.IsBehindBlock (parser cursor).cursor) :
    (parser.cautious cursor).verdict = .exhausted := by
  cases hparser : parser cursor with
  | mk verdict recorded reached =>
      rw [hparser] at h hbehind
      obtain rfl : verdict = .failure diagnostic := h
      simp [cautious, hparser, hbehind]

theorem verdict_cautious_of_exhausted (h : (parser cursor).verdict = .exhausted) :
    (parser.cautious cursor).verdict = .exhausted := by
  rw [cautious_eq_self (by simp [h]), h]

theorem verdict_attempt_of_exhausted (h : (parser cursor).verdict = .exhausted) :
    (parser.attempt cursor).verdict = .exhausted := by
  cases hparser : parser cursor with
  | mk verdict recorded reached =>
      rw [hparser] at h
      obtain rfl : verdict = .exhausted := h
      simp [attempt, hparser]

end Parser

namespace Grammar

/-- The parsers for the parts of a construct, which are exhausted where a statement of a block
fails right behind another block. -/
def cautiousParts (grammar : Grammar) : Nat → Parts
  | 0 => Parts.exhausted
  | depth + 1 =>
    { expression := fun minimum cursor =>
        Parser.expression grammar (grammar.cautiousParts depth) minimum cursor
      operators := fun minimum left cursor =>
        Parser.operators grammar (grammar.cautiousParts depth) minimum left cursor
      arguments := fun cursor => Parser.arguments (grammar.cautiousParts depth) cursor
      parameters := fun cursor => Parser.parameters (grammar.cautiousParts depth) cursor
      statements := fun cursor =>
        Parser.statementsBy (Parser.statement grammar (grammar.cautiousParts depth)).cautious
          (grammar.cautiousParts depth) cursor
      program := fun cursor => Parser.program grammar (grammar.cautiousParts depth) cursor }

end Grammar

namespace Cursor

/-- The cautious parsers for the parts of a construct that begins here. -/
def cautiousParts (cursor : Cursor) (grammar : Grammar) : Parts :=
  grammar.cautiousParts cursor.depth

end Cursor

end LineScript
