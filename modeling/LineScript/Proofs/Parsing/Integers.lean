import LineScript.Parsing.Program
import LineScript.Proofs.Text.Decimal
import LineScript.Tree.Render

/-!
# Integers in a program

An integer token has the value that its text writes, or it is complained about and stands for zero.
In neither case does the expression around it notice: what it is joined with, where the expression
ends and what else is wrong with it are the same whatever the digits are.
-/

namespace LineScript

/-! ## Operations without their left operand -/

/-- An operation that waits for its left operand: an operator with what stands to its right, or the
arguments of a call. -/
inductive Expr.Frame where
  | binary (token : Token) (operator : String) (right : Expr)
  | call (token : Token) (arguments : List Expr)

namespace Expr

/-- The operation on its left operand. -/
def Frame.plug (left : Expr) : Frame → Expr
  | binary token operator right => .binary token left operator right
  | call token arguments => .call token left arguments

/-- Operations one around the other on one operand, the innermost one first. -/
def plug (left : Expr) (frames : List Frame) : Expr :=
  frames.foldl Frame.plug left

theorem plug_append (left : Expr) (frames others : List Frame) :
    left.plug (frames ++ others) = (left.plug frames).plug others :=
  List.foldl_append

end Expr

/-- The verdict on what is made of a value. -/
def Verdict.map {α β : Type} (f : α → β) : Verdict α → Verdict β
  | success value => .success (f value)
  | failure diagnostic => .failure diagnostic
  | exhausted => .exhausted

/-- What an expression goes on with behind an operand: the operations around the operand or why they
break off, what is recorded, and where the expression ends if not at the operand. -/
structure Continuation where
  verdict : Verdict (List Expr.Frame)
  recorded : List Diagnostic
  reached : Option Cursor

namespace Continuation

/-- The continuation behind an operand that ends at the cursor. -/
def behind (continuation : Continuation) (left : Expr) : Parser Expr := fun cursor =>
  ⟨continuation.verdict.map left.plug, continuation.recorded, continuation.reached.getD cursor⟩

/-- Operations that end where they begin. -/
def here (verdict : Verdict (List Expr.Frame)) : Continuation :=
  ⟨verdict, [], none⟩

/-- The continuation from `cursor` on, wherever the operand ends. -/
def after (continuation : Continuation) (cursor : Cursor) : Continuation :=
  { continuation with reached := some (continuation.reached.getD cursor) }

end Continuation

namespace Parser

variable {α : Type} {cursor : Cursor}

/-- The kind of the next token decides whether an expression goes on behind an operand. -/
theorem operators_eq_pure_or_infixRule (grammar : Grammar) (parts : Parts) (minimum : Precedence)
    (kind : TokenKind) :
    (∀ left cursor, cursor.peek.kind = kind →
      Parser.operators grammar parts minimum left cursor = ⟨.success left, [], cursor⟩) ∨
    ∃ precedence rule, grammar.infixRule kind = some (precedence, rule) ∧
      ∀ left cursor, cursor.peek.kind = kind →
        Parser.operators grammar parts minimum left cursor =
          (rule.parser grammar parts left >>= parts.operators minimum) cursor.advance := by
  by_cases hline : kind = .newline
  · left
    intro left cursor hkind
    simp [Parser.operators, hkind, hline]
  cases hrule : grammar.infixRule kind with
  | none =>
      left
      intro left cursor hkind
      simp [Parser.operators, hkind, hrule]
  | some entry =>
      obtain ⟨precedence, rule⟩ := entry
      by_cases htighter : minimum < precedence
      · right
        refine ⟨precedence, rule, rfl, fun left cursor hkind => ?_⟩
        simp [Parser.operators, hkind, hline, hrule, htighter]
      · left
        intro left cursor hkind
        simp [Parser.operators, hkind, hrule, htighter]

/-- What a parser does behind a left operand does not depend on the operand, around which it
arranges what it reads. -/
def Uniform (parser : Expr → Parser Expr) (cursor : Cursor) : Prop :=
  ∃ continuation : Continuation, ∀ left, parser left cursor = continuation.behind left cursor

namespace Uniform

variable {parser other : Expr → Parser Expr}

theorem pure (frames : List Expr.Frame) :
    Uniform (fun left => Pure.pure (left.plug frames)) cursor :=
  ⟨.here (.success frames), fun _ => rfl⟩

theorem exhausted : Uniform (fun _ => Parser.exhausted) cursor :=
  ⟨.here .exhausted, fun _ => rfl⟩

/-- A step that does not look at the operand. -/
theorem step {next : Cursor} (h : ∀ left, parser left cursor = other left next)
    (hnext : Uniform other next) : Uniform parser cursor := by
  obtain ⟨continuation, hother⟩ := hnext
  exact ⟨continuation.after next, fun left => (h left).trans (hother left)⟩

/-- What is read first does not depend on the operand. -/
theorem read {first : Parser α} {next : α → Expr → Parser Expr}
    (hnext : ∀ value reached, Uniform (next value) reached) :
    Uniform (fun left => first >>= fun value => next value left) cursor := by
  cases hfirst : first cursor with
  | mk verdict recorded reached =>
      cases verdict with
      | success value =>
          obtain ⟨⟨verdict, more, last⟩, hvalue⟩ := hnext value reached
          refine ⟨⟨verdict, recorded ++ more, last.getD reached⟩, fun left => ?_⟩
          exact (bind_of_success hfirst _).trans (by rw [hvalue]; rfl)
      | failure diagnostic =>
          exact ⟨⟨.failure diagnostic, recorded, reached⟩, fun _ => bind_of_failure hfirst _⟩
      | exhausted =>
          exact ⟨⟨.exhausted, recorded, reached⟩, fun _ => bind_of_exhausted hfirst _⟩

/-- The operation that is read first is the operand of what follows. -/
theorem bind (h : Uniform parser cursor) (hother : ∀ reached, Uniform other reached) :
    Uniform (fun left => parser left >>= other) cursor := by
  obtain ⟨⟨verdict, recorded, reached⟩, hparser⟩ := h
  cases verdict with
  | success frames =>
      obtain ⟨⟨verdict, more, last⟩, hnext⟩ := hother (reached.getD cursor)
      refine ⟨⟨verdict.map (frames ++ ·), recorded ++ more,
        last.getD (reached.getD cursor)⟩, fun left => ?_⟩
      refine (bind_of_success (hparser left) _).trans ?_
      rw [hnext]
      cases verdict with
      | success others =>
          simp only [Continuation.behind, Verdict.map, Expr.plug_append, Option.getD_some]
      | failure diagnostic => rfl
      | exhausted => rfl
  | failure diagnostic =>
      exact ⟨⟨.failure diagnostic, recorded, reached⟩, fun left => bind_of_failure (hparser left) _⟩
  | exhausted =>
      exact ⟨⟨.exhausted, recorded, reached⟩, fun left => bind_of_exhausted (hparser left) _⟩

/-! ## Operators -/

variable (grammar : Grammar) (parts : Parts)

theorem infixRule (rule : InfixRule) :
    Uniform (fun left => rule.parser grammar parts left) cursor := by
  cases rule with
  | binary =>
      apply step (fun left => current_bind cursor _)
      apply step (fun left => advance_bind cursor _)
      exact read fun right _ => .pure [.binary cursor.current cursor.current.text right]
  | call =>
      apply step (fun left => current_bind cursor _)
      apply step (fun left => beforeKind_bind cursor .closeParen _)
      by_cases hclose : cursor.peek.kind = .closeParen
      · simp only [hclose, decide_true, if_true]
        apply step (fun left => advance_bind cursor _)
        exact .pure [.call cursor.current []]
      · simp only [hclose, decide_false, Bool.false_eq_true, if_false]
        apply step (fun left => advance_bind cursor _)
        exact read fun arguments _ => read fun _ _ => .pure [.call cursor.current arguments]

theorem operators {minimum : Precedence}
    (h : ∀ reached, Uniform (parts.operators minimum) reached) :
    Uniform (Parser.operators grammar parts minimum) cursor := by
  obtain hpure | ⟨_, rule, -, hrule⟩ :=
    operators_eq_pure_or_infixRule grammar parts minimum cursor.peek.kind
  · exact ⟨.here (.success []), fun left => hpure left cursor rfl⟩
  · exact step (fun left => hrule left cursor rfl) ((infixRule grammar parts rule).bind h)

end Uniform

end Parser

/-- However deep the rules may call each other, what is read behind an operand is arranged around it
as it is around any other. -/
theorem Grammar.uniform_operators (grammar : Grammar) (depth : Nat) (minimum : Precedence)
    (cursor : Cursor) : Parser.Uniform ((grammar.parts depth).operators minimum) cursor := by
  induction depth generalizing cursor with
  | zero => exact .exhausted
  | succ depth ih => exact .operators grammar _ ih

/-! ## An expression that begins with an integer -/

namespace Parser

/-- What comes behind an integer does not depend on the integer: of its token, only the kind
matters. -/
theorem exists_continuation_operators (upcoming : List Token) (depth : Nat)
    (minimum : Precedence) :
    ∃ continuation : Continuation, ∀ token : Token, token.kind = .integer → ∀ left,
      (Grammar.standard.parts depth).operators minimum left ⟨token, upcoming⟩ =
        continuation.behind left ⟨token, upcoming⟩ := by
  cases depth with
  | zero => exact ⟨.here .exhausted, fun _ _ _ => rfl⟩
  | succ depth =>
      cases upcoming with
      | nil =>
          -- The token after the last one is the last one again, and an integer is no operator.
          obtain hpure | ⟨_, _, hinfix, -⟩ := operators_eq_pure_or_infixRule .standard
            (Grammar.standard.parts depth) minimum .integer
          · exact ⟨.here (.success []), fun token htoken left => hpure left ⟨token, []⟩ htoken⟩
          · cases hinfix
      | cons next others =>
          obtain hpure | ⟨_, rule, -, hrule⟩ := operators_eq_pure_or_infixRule .standard
            (Grammar.standard.parts depth) minimum next.kind
          · exact ⟨.here (.success []), fun token _ left => hpure left ⟨token, next :: others⟩ rfl⟩
          · obtain ⟨continuation, hjoined⟩ :=
              (Uniform.infixRule .standard (Grammar.standard.parts depth) rule).bind
                (Grammar.standard.uniform_operators depth minimum)
            exact ⟨continuation.after ⟨next, others⟩,
              fun token _ left => (hrule left ⟨token, next :: others⟩ rfl).trans (hjoined left)⟩

/-- An integer is read where it stands: whatever follows goes on from its cursor. -/
theorem integer_eq (cursor : Cursor) :
    Parser.integer cursor =
      match readInt64? cursor.current.text with
      | some word => ⟨.success (.integer cursor.current word), [], cursor⟩
      | none => ⟨.success (.integer cursor.current 0),
          [⟨.notAnInteger cursor.current.text, cursor.current.position⟩], cursor⟩ := by
  rw [Parser.integer, current_bind]
  cases readInt64? cursor.current.text <;> rfl

theorem integer_bind_congr {β : Type} {next other : Expr → Parser β} {cursor : Cursor}
    (h : ∀ left, next left cursor = other left cursor) :
    (Parser.integer >>= next) cursor = (Parser.integer >>= other) cursor := by
  have hinteger := integer_eq cursor
  split at hinteger <;> rw [bind_of_success hinteger, bind_of_success hinteger, h]

end Parser

/-- An integer token is read exactly or rejected.  It has the value that its text writes, whatever
the length of the text, and nothing is recorded; or its text writes no integer in range, which is
recorded, and it has the value zero.  Either way it is shown as it is written, the cursor stays, and
an expression that begins with it goes on as it does behind every other integer token. -/
theorem integer_exact (cursor : Cursor) :
    (∀ value : Int, WritesInt64 cursor.current.text value ↔ ∃ word : Int64, word.toInt = value ∧
      Parser.integer cursor = ⟨.success (.integer cursor.current word), [], cursor⟩) ∧
    ((∀ value, ¬WritesInt64 cursor.current.text value) →
      Parser.integer cursor = ⟨.success (.integer cursor.current 0),
        [⟨.notAnInteger cursor.current.text, cursor.current.position⟩], cursor⟩) ∧
    (∀ word, (Expr.integer cursor.current word).render = cursor.current.text) ∧
    ∀ depth minimum, ∃ continuation : Continuation, ∀ token : Token, token.kind = .integer →
      Parser.expression .standard (Grammar.standard.parts depth) minimum ⟨token, cursor.upcoming⟩ =
        (Parser.integer >>= continuation.behind) ⟨token, cursor.upcoming⟩ := by
  refine ⟨fun value => ⟨fun h => ?_, ?_⟩, fun h => ?_, fun word => ?_, fun depth minimum => ?_⟩
  · refine ⟨Int64.ofInt value, h.toInt_ofInt, ?_⟩
    rw [Parser.integer_eq, readInt64?_eq_some h]
  · rintro ⟨word, rfl, hinteger⟩
    rw [Parser.integer_eq] at hinteger
    split at hinteger
    next other hread =>
      obtain rfl : other = word := by simpa using hinteger
      exact writesInt64_of_readInt64? hread
    next => simp at hinteger
  · rw [Parser.integer_eq, readInt64?_eq_none_iff.mpr h]
  · rw [Expr.render]
  · obtain ⟨continuation, hcontinuation⟩ :=
      Parser.exists_continuation_operators cursor.upcoming depth minimum
    refine ⟨continuation, fun token htoken => ?_⟩
    rw [← Parser.integer_bind_congr (hcontinuation token htoken)]
    simp [Parser.expression, htoken, Grammar.standard, PrefixRule.parser]

/-- The first integer out of range, with a term behind it. -/
def tooLarge : Cursor :=
  ⟨⟨.integer, "9223372036854775808", ⟨1, 1⟩⟩,
    [⟨.plus, "+", ⟨1, 21⟩⟩, ⟨.integer, "1", ⟨1, 23⟩⟩, .endAt ⟨1, 23⟩]⟩

/-- It stands for zero, and the term is added to it as it is to seven. -/
theorem integer_exact_tooLarge :
    (∀ value, ¬WritesInt64 tooLarge.current.text value) ∧
      Parser.integer tooLarge = ⟨.success (.integer tooLarge.current 0),
        [⟨.notAnInteger "9223372036854775808", ⟨1, 1⟩⟩], tooLarge⟩ ∧
      ∃ continuation : Continuation, ∀ token ∈ [tooLarge.current, ⟨.integer, "7", ⟨1, 1⟩⟩],
        token.kind = .integer ∧
        Parser.expression .standard (tooLarge.parts .standard) .lowest
            ⟨token, tooLarge.upcoming⟩ =
          (Parser.integer >>= continuation.behind) ⟨token, tooLarge.upcoming⟩ := by
  have hnone : ∀ value, ¬WritesInt64 tooLarge.current.text value :=
    readInt64?_eq_none_iff.mp (by decide)
  have hkinds : ∀ token ∈ [tooLarge.current, ⟨.integer, "7", ⟨1, 1⟩⟩], token.kind = .integer := by
    decide
  obtain ⟨-, hzero, -, hcontinues⟩ := integer_exact tooLarge
  obtain ⟨continuation, hcontinuation⟩ := hcontinues tooLarge.depth .lowest
  exact ⟨hnone, hzero hnone, continuation,
    fun token htoken => ⟨hkinds token htoken, hcontinuation token (hkinds token htoken)⟩⟩

end LineScript
