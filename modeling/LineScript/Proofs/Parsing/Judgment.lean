import LineScript.Proofs.Parsing.Passage
import LineScript.Proofs.Parsing.Persistence
import LineScript.Proofs.Tree.Node

/-!
# Judgments on parsers

A rule of the grammar looks at a token, moves over it, reads a part, and puts a node together.
A property of parsers that is kept by each of these steps is kept by every rule, so nothing
else about the rules has to be known.  A `Judgment` is such a property with one clause for each
step.  It is about two parsers at once, which may differ in their bounds, in the tokens that
they start from, or not at all.
-/

namespace LineScript

/-! ## The clauses of a judgment -/

/-- What has been done with the current token. -/
inductive Phase where
  /-- It is still to be read. -/
  | here
  /-- It is the last one of what is read. -/
  | past
  /-- It is the last one of a statement or the line end behind it. -/
  | rest
  /-- Statements have stopped at it, a closing brace or an end of input. -/
  | stops
  /-- Statements have stopped at it, and a closing brace that is missing is recorded. -/
  | closes
  /-- A statement has failed at it. -/
  | broken (diagnostic : Diagnostic)
  /-- A failure is recorded, and the rest of the broken statement is skipped. -/
  | skipped

/-- States of two parsers that are followed, with whatever else is kept an eye on. -/
class Located (σ : Type) where
  /-- Where the first parser is. -/
  cursor : σ → Cursor
  /-- The state in which both are one token further. -/
  advance : σ → σ
  cursor_advance : ∀ s, cursor (advance s) = (cursor s).advance

open Located (cursor advance cursor_advance)

/-- What is known of the current token, and what becomes of it with each step. -/
structure Watch (σ : Type) [Located σ] where
  /-- The current token has this phase.  There is room for `calls` rules that call each other,
  `level` pairs of braces are open, and the nodes that are read so far keep `kept`. -/
  At : (phase : Phase) → (calls level : Nat) → (kept : List Token) → σ → Prop
  /-- Line ends may be moved over inside `level` pairs of braces. -/
  Lines : (level : Nat) → σ → Prop
  mono : ∀ {phase calls fewer level kept s}, At phase calls level kept s → fewer ≤ calls →
    At phase fewer level kept s
  /-- The current token is kept. -/
  keep : ∀ {calls level kept s}, At .here calls level kept s → (cursor s).current.kind.isPlain →
    At .past calls level (kept ++ [(cursor s).current]) s
  /-- The current token is kept by no node. -/
  drop : ∀ {calls level kept s}, At .here calls level kept s →
    (cursor s).current.kind.isSeparator → At .past calls level kept s
  /-- The current token opens a block. -/
  enter : ∀ {calls level kept s}, At .here calls level kept s →
    (cursor s).current.kind = .openCurly →
      At .here (calls + 2) (level + 1) (kept ++ [(cursor s).current]) (advance s) ∧
        Lines (level + 1) (advance s)
  /-- The current token closes a block. -/
  leave : ∀ {calls level kept s}, At .closes calls (level + 1) kept s →
    At .past calls level kept s
  /-- A statement has ended. -/
  rest_past : ∀ {calls level kept s}, At .past calls level kept s → At .rest calls level kept s
  /-- The current token ends a line. -/
  rest_newline : ∀ {calls level kept s}, At .here calls level kept s →
    (cursor s).current.kind = .newline → At .rest calls level kept s
  advance_past : ∀ {calls level kept s}, At .past (calls + 1) level kept s →
    At .here (calls + 3) level kept (advance s)
  /-- A token that has been looked at is moved to. -/
  advance_peek : ∀ {calls level kept s}, At .past calls level kept s →
    (cursor s).peek.kind ≠ .endOfInput → At .here (calls + 3) level kept (advance s)
  advance_rest : ∀ {calls level kept s}, At .rest (calls + 1) level kept s → Lines level s →
    At .here (calls + 3) level kept (advance s)
  advance_skipped : ∀ {calls level kept s}, At .skipped (calls + 1) level kept s →
    Lines level s → (cursor s).current.kind ≠ .closeCurly →
      (cursor s).current.kind ≠ .endOfInput → At .here (calls + 3) level kept (advance s)
  stops_here : ∀ {calls level kept s}, At .here (calls + 2) level kept s →
    (cursor s).current.kind = .closeCurly ∨ (cursor s).current.kind = .endOfInput →
      At .stops calls level kept s
  stops_skipped : ∀ {calls level kept s}, At .skipped calls level kept s →
    (cursor s).current.kind = .closeCurly ∨ (cursor s).current.kind = .endOfInput →
      At .stops calls level kept s
  closes_stops : ∀ {calls level kept s}, At .stops calls level kept s →
    (cursor s).current.kind ≠ .endOfInput → At .closes calls level kept s
  lines_advance : ∀ {level s}, Lines level s → Lines level (advance s)

/-- A property of two parsers with a clause for each step that a rule can take. -/
structure Judgment (σ : Type) [Located σ] extends Watch σ where
  /-- Where the second parser is. -/
  other : σ → Cursor
  /-- Whether the second parser sees no positions. -/
  blind : Bool
  /-- Whether nodes are known to say what their tokens say. -/
  faithful : Prop
  /-- What the second parser makes of a statement that may fail. -/
  guard : Parser (Option Stmt) → Parser (Option Stmt)
  /-- The property itself.  Inside `level` pairs of braces, the two parsers start in a state and
  leave two values in a state of which `post` holds. -/
  Holds : {α : Type} → (level : Nat) → (post : α → α → σ → Prop) →
    (first second : Parser α) → (s : σ) → Prop
  other_advance : ∀ s, other (advance s) = (other s).advance
  current_eq : ∀ {phase calls level kept s}, At phase calls level kept s →
    (other s).current = erase blind (cursor s).current
  peek_eq : ∀ {calls level kept s}, At .past calls level kept s →
    (other s).peek = erase blind (cursor s).peek
  /-- Only what the parsers do where they are counts. -/
  congr : ∀ {α level s} {post : α → α → σ → Prop} {first first' second second' : Parser α},
    first (cursor s) = first' (cursor s) → second (other s) = second' (other s) →
      Holds level post first' second' s → Holds level post first second s
  /-- The parsers move to the next token first. -/
  move : ∀ {α level s} {post : α → α → σ → Prop} {first first' second second' : Parser α},
    first (cursor s) = first' (cursor (advance s)) →
      second (other s) = second' (other (advance s)) →
        Holds level post first' second' (advance s) → Holds level post first second s
  pure : ∀ {α level s} {post : α → α → σ → Prop} {value other : α}, post value other s →
    Holds level post (Pure.pure value) (Pure.pure other) s
  bind : ∀ {α β level s} {post : α → α → σ → Prop} {post' : β → β → σ → Prop}
    {first second : Parser α} {next next' : α → Parser β}, Holds level post first second s →
      (∀ value other t, post value other t → Holds level post' (next value) (next' other) t) →
        Holds level post' (first >>= next) (second >>= next') s
  /-- Where line ends may be moved over, this is so for good. -/
  frame : ∀ {α level s} {post : α → α → σ → Prop} {first second : Parser α}, Lines level s →
    Holds level post first second s →
      Holds level (fun value other t => post value other t ∧ Lines level t) first second s
  /-- What never fails may be nested. -/
  nest : ∀ {α level s} {post : α → α → σ → Prop} {first second : Parser α}, first.Persists →
    Holds (level + 1) post first second s → Holds level post first second s
  /-- No expression begins with the current token. -/
  fail : ∀ {α calls level kept s} {post : α → α → σ → Prop}, At .here calls level kept s →
    Holds level post
      (Parser.fail ⟨.noPrefixRule (cursor s).current.kind, (cursor s).current.position⟩)
      (Parser.fail
        ⟨.noPrefixRule (cursor s).current.kind, (erase blind (cursor s).current).position⟩) s
  /-- The next token is not the one that is expected. -/
  missing : ∀ {α calls level kept s} {post : α → α → σ → Prop} (kind : TokenKind),
    At .past calls level kept s →
      Holds level post
        (Parser.fail ⟨.expectedToken kind (cursor s).peek.kind, (cursor s).peek.position⟩)
        (Parser.fail
          ⟨.expectedToken kind (cursor s).peek.kind, (erase blind (cursor s).peek).position⟩) s
  /-- The current token is complained about and read all the same. -/
  note : ∀ {calls level kept s} (cause : Cause), At .here calls level kept s →
    Holds level (fun _ _ t => cursor t = cursor s ∧ At .here calls level kept t)
      (Parser.record ⟨cause, (cursor s).current.position⟩)
      (Parser.record ⟨cause, (erase blind (cursor s).current).position⟩) s
  /-- The input ends before a block does. -/
  unclosed : ∀ {calls level kept s} (cause : Cause), At .stops calls level kept s →
    (cursor s).current.kind = .endOfInput →
      Holds level (fun _ _ t => At .closes calls level kept t)
        (Parser.record ⟨cause, (cursor s).current.position⟩)
        (Parser.record ⟨cause, (erase blind (cursor s).current).position⟩) s
  recover : ∀ {calls level kept s} {diagnostic : Diagnostic},
    At (.broken diagnostic) calls level kept s →
      Holds level (fun _ _ t => At .skipped calls level kept t) (Parser.recover diagnostic)
        (Parser.recover (erase blind diagnostic)) s
  /-- A statement that fails leaves a value. -/
  attempt : ∀ {calls level kept s} {post : Option Stmt → Option Stmt → σ → Prop}
    {first second : Parser (Option Stmt)}, At .here (calls + 2) level kept s →
      (cursor s).current.kind ≠ .endOfInput → Holds level post first second s →
        Holds level
          (fun result result' t =>
            (∃ value other, result = .ok value ∧ result' = .ok other ∧ post value other t) ∨
            ∃ diagnostic, result = .error diagnostic ∧
              result' = .error (erase blind diagnostic) ∧
                At (.broken diagnostic) (calls + 1) level kept t)
          first.attempt (guard second).attempt s

namespace Judgment

variable {σ α β : Type} [Located σ] {J : Judgment σ} {calls level : Nat} {kept : List Token} {s : σ}
variable {phase : Phase} {post : α → α → σ → Prop} {first second : Parser α}

/-! ## Steps before what comes next -/

/-- What is known behind the two parsers may be weakened. -/
theorem conseq {post' : α → α → σ → Prop} (h : J.Holds level post first second s)
    (hpost : ∀ value other t, post value other t → post' value other t) :
    J.Holds level post' first second s := by
  have hpure (parser : Parser α) (cursor : Cursor) :
      parser cursor = (parser >>= Pure.pure) cursor := by
    cases hparser : parser cursor with
    | mk verdict recorded reached =>
        cases verdict with
        | success value => simp [Parser.bind_of_success hparser]
        | failure diagnostic => rw [Parser.bind_of_failure hparser]
        | exhausted => rw [Parser.bind_of_exhausted hparser]
  exact J.congr (hpure first _) (hpure second _)
    (J.bind h fun value other t ht => J.pure (hpost value other t ht))

theorem ite {condition : Prop} [Decidable condition] {first' second' : Parser α}
    (hthen : condition → J.Holds level post first second s)
    (helse : ¬condition → J.Holds level post first' second' s) :
    J.Holds level post (if condition then first else first')
      (if condition then second else second') s := by
  split
  · exact hthen ‹_›
  · exact helse ‹_›

/-- The current token, which both parsers see. -/
theorem look {next next' : Token → Parser α}
    (hcurrent : (J.other s).current = erase J.blind (cursor s).current)
    (h : J.Holds level post (next (cursor s).current)
      (next' (erase J.blind (cursor s).current)) s) :
    J.Holds level post (Parser.current >>= next) (Parser.current >>= next') s :=
  J.congr (Parser.current_bind _ next)
    ((Parser.current_bind _ next').trans (by rw [hcurrent])) h

theorem current (hat : J.At phase calls level kept s) {next next' : Token → Parser α}
    (h : J.Holds level post (next (cursor s).current)
      (next' (erase J.blind (cursor s).current)) s) :
    J.Holds level post (Parser.current >>= next) (Parser.current >>= next') s :=
  look (J.current_eq hat) h

theorem peek (hat : J.At .past calls level kept s) {next next' : Token → Parser α}
    (h : J.Holds level post (next (cursor s).peek) (next' (erase J.blind (cursor s).peek)) s) :
    J.Holds level post (Parser.peek >>= next) (Parser.peek >>= next') s :=
  J.congr (Parser.peek_bind _ next) ((Parser.peek_bind _ next').trans (by rw [J.peek_eq hat])) h

theorem step {next next' : Unit → Parser α}
    (h : J.Holds level post (next ()) (next' ()) (advance s)) :
    J.Holds level post (Parser.advance >>= next) (Parser.advance >>= next') s :=
  J.move ((Parser.advance_bind _ next).trans (by rw [cursor_advance]))
    ((Parser.advance_bind _ next').trans (by rw [J.other_advance])) h

/-- The step on its own. -/
theorem lastStep {post : Unit → Unit → σ → Prop} (h : post () () (advance s)) :
    J.Holds level post Parser.advance Parser.advance s := by
  refine J.move ?_ ?_ (J.pure h)
  · rw [cursor_advance]
    rfl
  · rw [J.other_advance]
    rfl

theorem atKind {kind : TokenKind} {next next' : Bool → Parser α}
    (hat : J.At phase calls level kept s)
    (hfound : (cursor s).current.kind = kind → J.Holds level post (next true) (next' true) s)
    (hmissed : (cursor s).current.kind ≠ kind →
      J.Holds level post (next false) (next' false) s) :
    J.Holds level post (Parser.atKind kind >>= next) (Parser.atKind kind >>= next') s := by
  refine J.congr (Parser.atKind_bind _ kind next)
    ((Parser.atKind_bind _ kind next').trans (by rw [J.current_eq hat, kind_erase])) ?_
  by_cases hkind : (cursor s).current.kind = kind
  · simpa [hkind] using hfound hkind
  · simpa [hkind] using hmissed hkind

theorem beforeKind {kind : TokenKind} {next next' : Bool → Parser α}
    (hat : J.At .past calls level kept s) (hend : kind ≠ .endOfInput)
    (hfound : (cursor (advance s)).current.kind = kind →
      J.At .here (calls + 3) level kept (advance s) →
        J.Holds level post (next true) (next' true) s)
    (hmissed : J.Holds level post (next false) (next' false) s) :
    J.Holds level post (Parser.beforeKind kind >>= next) (Parser.beforeKind kind >>= next') s := by
  refine J.congr (Parser.beforeKind_bind _ kind next)
    ((Parser.beforeKind_bind _ kind next').trans (by rw [J.peek_eq hat, kind_erase])) ?_
  by_cases hkind : (cursor s).peek.kind = kind
  · have hcurrent : (cursor (advance s)).current.kind = kind := by
      rwa [cursor_advance, Cursor.current_advance]
    simpa [hkind] using hfound hcurrent (J.advance_peek hat (hkind ▸ hend))
  · simpa [hkind] using hmissed

theorem expect {kind : TokenKind} {next next' : Token → Parser α}
    (hat : J.At .past calls level kept s) (hend : kind ≠ .endOfInput)
    (h : (cursor (advance s)).current.kind = kind →
      J.At .here (calls + 3) level kept (advance s) →
        J.Holds level post (next (cursor (advance s)).current)
          (next' (erase J.blind (cursor (advance s)).current)) (advance s)) :
    J.Holds level post (Parser.expect kind >>= next) (Parser.expect kind >>= next') s := by
  have hpeek := J.peek_eq hat
  have hcurrent : (cursor (advance s)).current = (cursor s).peek := by
    rw [cursor_advance, Cursor.current_advance]
  by_cases hkind : (cursor s).peek.kind = kind
  · have hother : (J.other s).peek.kind = kind := by rwa [hpeek, kind_erase]
    refine J.move ?_ ?_ (h (hcurrent ▸ hkind) (J.advance_peek hat (hkind ▸ hend)))
    · rw [Parser.expect_bind_of_eq hkind, hcurrent, cursor_advance]
    · rw [Parser.expect_bind_of_eq hother, hpeek, hcurrent, J.other_advance]
  · have hother : (J.other s).peek.kind ≠ kind := by rwa [hpeek, kind_erase]
    refine J.congr (Parser.expect_bind_of_ne hkind next) ?_ (J.missing kind hat)
    rw [Parser.expect_bind_of_ne hother, hpeek, kind_erase]
    rfl

/-! ## What the rules make -/

/-- The two parsers have made the same node, up to positions.  It is as faithful as the judgment
asks for, and its tokens are kept behind those that were kept before. -/
structure Makes (J : Judgment σ) [Node α] (state : List Token → σ → Prop) (kept : List Token)
    (value other : α) (s : σ) : Prop where
  faithful : J.faithful → Node.Faithful value
  other_eq : other = erase J.blind value
  state : state (kept ++ Node.tokens value) s

theorem Makes.mono {fewer : Nat} [Node α] {value other : α}
    (h : J.Makes (J.At phase calls level) kept value other s) (hle : fewer ≤ calls) :
    J.Makes (J.At phase fewer level) kept value other s :=
  ⟨h.faithful, h.other_eq, J.mono h.state hle⟩

/-- The judgment holds of the parsers of two collections, wherever there is room for `calls` rules
and for those that a part calls before it moves.  Operators go on behind a left operand, and
parameters behind the token before the first of them. -/
structure OnParts (J : Judgment σ) (calls : Nat) (first second : Parts) : Prop where
  expression : ∀ {level kept s} minimum, J.At .here (calls + 1) level kept s →
    J.Holds level (J.Makes (J.At .past calls level) kept) (first.expression minimum)
      (second.expression minimum) s
  operators : ∀ {level kept s} minimum {left : Expr}, (J.faithful → left.Faithful) →
    J.At .past calls level (kept ++ left.tokens) s →
      J.Holds level (J.Makes (J.At .past calls level) kept) (first.operators minimum left)
        (second.operators minimum (erase J.blind left)) s
  arguments : ∀ {level kept s}, J.At .here (calls + 2) level kept s →
    J.Holds level (J.Makes (J.At .past calls level) kept) first.arguments second.arguments s
  parameters : ∀ {level kept s}, J.At .past calls level kept s →
    J.Holds level (J.Makes (J.At .past calls level) kept) first.parameters second.parameters s
  statements : ∀ {level kept s}, J.At .here (calls + 2) level kept s → J.Lines level s →
    J.Holds level (J.Makes (J.At .stops calls level) kept) first.statements second.statements s
  persists : first.statements.Persists

end Judgment

end LineScript
