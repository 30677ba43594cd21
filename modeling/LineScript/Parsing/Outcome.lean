import LineScript.Diagnostic
import LineScript.Parsing.Cursor

/-!
# Parsers and their outcomes

A parser starts at a cursor and leaves a verdict, the diagnostics that it recorded
on the way and the cursor where it stopped.  A failed parser stops where it failed,
and it is for its caller to record the failure and to move on.  Recursion is bounded
by a number given in advance; a parser that runs into this bound is exhausted, which
nothing recovers from.
-/

namespace LineScript

/-- How a parser ended. -/
inductive Verdict (α : Type) where
  | success (value : α)
  | failure (diagnostic : Diagnostic)
  | exhausted

/-- What a parser leaves behind. -/
structure Outcome (α : Type) where
  verdict : Verdict α
  recorded : List Diagnostic
  cursor : Cursor

/-- A parser of values of type `α`. -/
def Parser (α : Type) : Type :=
  Cursor → Outcome α

namespace Parser

variable {α β : Type}

/-- The parser that reads nothing and succeeds. -/
def succeed (value : α) : Parser α := fun cursor =>
  ⟨.success value, [], cursor⟩

/-- The parser that reads nothing and fails. -/
def fail (diagnostic : Diagnostic) : Parser α := fun cursor =>
  ⟨.failure diagnostic, [], cursor⟩

/-- The parser whose recursion has no room left. -/
def exhausted : Parser α := fun cursor =>
  ⟨.exhausted, [], cursor⟩

/-- One parser after the other.  The second starts where the first stopped, and only
if the first succeeded. -/
def andThen (first : Parser α) (second : α → Parser β) : Parser β := fun cursor =>
  match first cursor with
  | ⟨.success value, recorded, reached⟩ =>
    let outcome := second value reached
    { outcome with recorded := recorded ++ outcome.recorded }
  | ⟨.failure diagnostic, recorded, reached⟩ => ⟨.failure diagnostic, recorded, reached⟩
  | ⟨.exhausted, recorded, reached⟩ => ⟨.exhausted, recorded, reached⟩

instance : Monad Parser where
  pure := succeed
  bind := andThen

/-- The current token. -/
def current : Parser Token := fun cursor =>
  ⟨.success cursor.current, [], cursor⟩

/-- The token after the current one. -/
def peek : Parser Token := fun cursor =>
  ⟨.success cursor.peek, [], cursor⟩

/-- Moves to the next token. -/
def advance : Parser Unit := fun cursor =>
  ⟨.success (), [], cursor.advance⟩

/-- Moves to the next token, which must be of the given kind.  Otherwise nothing is
read, and the failure is about the next token. -/
def expect (kind : TokenKind) : Parser Token := fun cursor =>
  if cursor.peek.kind = kind then ⟨.success cursor.peek, [], cursor.advance⟩
  else ⟨.failure ⟨.expectedToken kind cursor.peek.kind, cursor.peek.position⟩, [], cursor⟩

/-- Records a diagnostic. -/
def record (diagnostic : Diagnostic) : Parser Unit := fun cursor =>
  ⟨.success (), [diagnostic], cursor⟩

/-- Records a diagnostic and skips the rest of the broken statement. -/
def recover (diagnostic : Diagnostic) : Parser Unit := fun cursor =>
  ⟨.success (), [diagnostic], Cursor.resync 0 cursor.current cursor.upcoming⟩

/-- Turns the failure of a parser into a value.  The parser's recordings and its
movement stay. -/
def attempt (parser : Parser α) : Parser (Except Diagnostic α) := fun cursor =>
  match parser cursor with
  | ⟨.success value, recorded, reached⟩ => ⟨.success (.ok value), recorded, reached⟩
  | ⟨.failure diagnostic, recorded, reached⟩ =>
    ⟨.success (.error diagnostic), recorded, reached⟩
  | ⟨.exhausted, recorded, reached⟩ => ⟨.exhausted, recorded, reached⟩

/-- Whether the current token is of the given kind. -/
def atKind (kind : TokenKind) : Parser Bool := do
  return (← current).kind = kind

/-- Whether the next token is of the given kind. -/
def beforeKind (kind : TokenKind) : Parser Bool := do
  return (← peek).kind = kind

/-! ## What the primitives do at a cursor

With these equations a rule is carried out step by step, up to the parsers of its parts. -/

section Equations

variable (cursor : Cursor)

@[simp]
theorem pure_eq (value : α) :
    (pure value : Parser α) cursor = ⟨.success value, [], cursor⟩ := rfl

@[simp]
theorem ite_eq {condition : Prop} [Decidable condition] (first second : Parser α) :
    (if condition then first else second) cursor =
      if condition then first cursor else second cursor := by
  split <;> rfl

theorem bind_of_success {cursor reached : Cursor} {first : Parser α} {value : α}
    {recorded : List Diagnostic} (h : first cursor = ⟨.success value, recorded, reached⟩)
    (second : α → Parser β) :
    (first >>= second) cursor =
      { second value reached with recorded := recorded ++ (second value reached).recorded } := by
  show andThen first second cursor = _
  rw [andThen, h]

theorem bind_of_failure {cursor reached : Cursor} {first : Parser α} {diagnostic : Diagnostic}
    {recorded : List Diagnostic} (h : first cursor = ⟨.failure diagnostic, recorded, reached⟩)
    (second : α → Parser β) :
    (first >>= second) cursor = ⟨.failure diagnostic, recorded, reached⟩ := by
  show andThen first second cursor = _
  rw [andThen, h]

theorem bind_of_exhausted {cursor reached : Cursor} {first : Parser α}
    {recorded : List Diagnostic} (h : first cursor = ⟨.exhausted, recorded, reached⟩)
    (second : α → Parser β) :
    (first >>= second) cursor = ⟨.exhausted, recorded, reached⟩ := by
  show andThen first second cursor = _
  rw [andThen, h]

theorem attempt_of_success {cursor reached : Cursor} {parser : Parser α} {value : α}
    {recorded : List Diagnostic} (h : parser cursor = ⟨.success value, recorded, reached⟩) :
    parser.attempt cursor = ⟨.success (.ok value), recorded, reached⟩ := by
  rw [attempt, h]

theorem attempt_of_failure {cursor reached : Cursor} {parser : Parser α} {diagnostic : Diagnostic}
    {recorded : List Diagnostic} (h : parser cursor = ⟨.failure diagnostic, recorded, reached⟩) :
    parser.attempt cursor = ⟨.success (.error diagnostic), recorded, reached⟩ := by
  rw [attempt, h]

theorem attempt_of_exhausted {cursor reached : Cursor} {parser : Parser α}
    {recorded : List Diagnostic} (h : parser cursor = ⟨.exhausted, recorded, reached⟩) :
    parser.attempt cursor = ⟨.exhausted, recorded, reached⟩ := by
  rw [attempt, h]

@[simp]
theorem current_bind (next : Token → Parser β) :
    (current >>= next) cursor = next cursor.current cursor := rfl

@[simp]
theorem peek_bind (next : Token → Parser β) :
    (peek >>= next) cursor = next cursor.peek cursor := rfl

@[simp]
theorem advance_bind (next : Unit → Parser β) :
    (advance >>= next) cursor = next () cursor.advance := rfl

@[simp]
theorem atKind_bind (kind : TokenKind) (next : Bool → Parser β) :
    (atKind kind >>= next) cursor = next (cursor.current.kind = kind) cursor := rfl

@[simp]
theorem beforeKind_bind (kind : TokenKind) (next : Bool → Parser β) :
    (beforeKind kind >>= next) cursor = next (cursor.peek.kind = kind) cursor := rfl

theorem expect_bind_of_eq {cursor : Cursor} {kind : TokenKind} (h : cursor.peek.kind = kind)
    (next : Token → Parser β) :
    (expect kind >>= next) cursor = next cursor.peek cursor.advance := by
  have hexpect : expect kind cursor = ⟨.success cursor.peek, [], cursor.advance⟩ := if_pos h
  exact bind_of_success hexpect next

theorem expect_bind_of_ne {cursor : Cursor} {kind : TokenKind} (h : cursor.peek.kind ≠ kind)
    (next : Token → Parser β) :
    (expect kind >>= next) cursor =
      ⟨.failure ⟨.expectedToken kind cursor.peek.kind, cursor.peek.position⟩, [], cursor⟩ := by
  have hexpect : expect kind cursor =
      ⟨.failure ⟨.expectedToken kind cursor.peek.kind, cursor.peek.position⟩, [], cursor⟩ :=
    if_neg h
  exact bind_of_failure hexpect next

end Equations

end Parser

end LineScript
