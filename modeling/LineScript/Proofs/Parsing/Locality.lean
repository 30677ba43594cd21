import LineScript.Proofs.Parsing.Abreast
import LineScript.Proofs.Parsing.Program

/-!
# Errors stay on their lines

A line end that is outside all braces divides a program: nothing that is read before it
reaches over it, however broken it is, and what comes behind it is read as if nothing
stood before.  The program is read statement by statement in two lists that are the same
up to such a line end, and the statements and diagnostics are the same up to there.
-/

namespace LineScript

/-- The curly braces of a token list are balanced: no front part closes more of them than it
opens, and the list closes as many as it opens. -/
structure Balanced (tokens : List Token) : Prop where
  closed_le : ∀ front, front <+: tokens →
    front.countP (·.kind = .closeCurly) ≤ front.countP (·.kind = .openCurly)
  closed_eq : tokens.countP (·.kind = .closeCurly) = tokens.countP (·.kind = .openCurly)

/-- Front parts are counted by their lengths. -/
theorem balanced_iff_take {tokens : List Token} :
    Balanced tokens ↔
      (∀ count < tokens.length + 1, (tokens.take count).countP (·.kind = .closeCurly) ≤
          (tokens.take count).countP (·.kind = .openCurly)) ∧
        tokens.countP (·.kind = .closeCurly) = tokens.countP (·.kind = .openCurly) := by
  constructor
  · rintro ⟨hle, heq⟩
    exact ⟨fun count _ => hle _ (List.take_prefix count tokens), heq⟩
  · rintro ⟨hle, heq⟩
    refine ⟨fun front hfront => ?_, heq⟩
    rw [List.prefix_iff_eq_take.mp hfront]
    exact hle front.length (Nat.lt_succ_of_le hfront.length_le)

instance (tokens : List Token) : Decidable (Balanced tokens) :=
  decidable_of_iff _ balanced_iff_take.symm

/-- A token that closes no more than the braces that are open leaves the difference open. -/
theorem Token.exists_depthAfter {token : Token} {depth : Nat}
    (h : [token].countP (·.kind = .closeCurly) ≤ depth + [token].countP (·.kind = .openCurly)) :
    ∃ inner, token.depthAfter depth = some inner ∧
      inner + [token].countP (·.kind = .closeCurly) =
        depth + [token].countP (·.kind = .openCurly) := by
  by_cases hopen : token.kind = .openCurly
  · exact ⟨depth + 1, depthAfter_of_openCurly hopen, by simp [hopen]⟩
  · by_cases hclose : token.kind = .closeCurly
    · obtain ⟨inner, rfl⟩ : ∃ inner, depth = inner + 1 :=
        ⟨depth - 1, by simp [hclose] at h; omega⟩
      exact ⟨inner, depthAfter_of_closeCurly hclose, by simp [hclose]⟩
    · exact ⟨depth, depthAfter_of_other hopen hclose, by simp [hopen, hclose]⟩

/-- Tokens that close as many braces as were open before them are a shared stretch. -/
theorem Border.shared_of_count {border : Border} {tokens : List Token} {depth : Nat}
    (hend : ∀ token ∈ tokens, token.kind ≠ .endOfInput)
    (hle : ∀ front, front <+: tokens →
      front.countP (·.kind = .closeCurly) ≤ depth + front.countP (·.kind = .openCurly))
    (heq : tokens.countP (·.kind = .closeCurly) = depth + tokens.countP (·.kind = .openCurly)) :
    border.Shared depth (tokens ++ border.token :: border.left)
      (tokens ++ border.token :: border.right) := by
  induction tokens generalizing depth with
  | nil => exact .border (.inr (by simpa using heq.symm))
  | cons token others ih =>
      obtain ⟨inner, hdepth, hinner⟩ := Token.exists_depthAfter (hle [token] (by simp))
      apply Border.Shared.cons (hend token (by simp)) hdepth
      apply ih (fun other hother => hend other (by simp [hother]))
      · intro front hfront
        have hcons := hle (token :: front) (by simpa using hfront)
        rw [← List.singleton_append, List.countP_append, List.countP_append] at hcons
        omega
      · rw [← List.singleton_append, List.countP_append, List.countP_append] at heq
        omega

/-! ## One statement of a program -/

namespace Grammar

variable {room : Nat} {others : List Stmt} {more : List Diagnostic}

/-- Reading from `start` on gives the statements and diagnostics, and then what reading from
`next` on gives. -/
def Precedes (room : Nat) (statements : List Stmt) (diagnostics : List Diagnostic)
    (start next : Cursor) : Prop :=
  ∀ others recorded last, (standard.parts room).program next = ⟨.success others, recorded, last⟩ →
    (standard.parts room).program start =
      ⟨.success (statements ++ others), diagnostics ++ recorded, last⟩

theorem Precedes.trans {statements : List Stmt} {diagnostics : List Diagnostic}
    {start middle next : Cursor} (h : Precedes room statements diagnostics start middle)
    (hnext : Precedes room others more middle next) :
    Precedes room (statements ++ others) (diagnostics ++ more) start next := by
  intro rest recorded last hrest
  rw [h _ _ _ (hnext rest recorded last hrest), List.append_assoc, List.append_assoc]

end Grammar

namespace Border

variable {border : Border} {depth room : Nat} {left right : Cursor}

/-- Two cursors are both before the border, or both right behind it. -/
def Together (border : Border) (left right : Cursor) : Prop :=
  (∃ depth, border.Before depth left right) ∨
    left = (Cursor.mk border.token border.left).advance ∧
      right = (Cursor.mk border.token border.right).advance

theorem Before.advance (h : border.Before depth left right) :
    border.Together left.advance right.advance := by
  obtain ⟨_, rfl, rfl⟩ | ⟨inner, _, _, hshared⟩ := h.cases
  · exact .inr ⟨rfl, rfl⟩
  · exact .inl ⟨inner, hshared.before_advance⟩

theorem Rests.advance (h : border.Rests depth left right) :
    border.Together left.advance right.advance := by
  rcases h with hbehind | ⟨_, hbefore⟩
  · exact .inl ⟨depth, hbehind.before_advance⟩
  · exact hbefore.advance

theorem Before.current_ne_endOfInput (h : border.Before depth left right)
    (hline : border.token.kind = .newline) : left.current.kind ≠ .endOfInput := by
  obtain ⟨_, rfl, _⟩ | ⟨_, hne, _⟩ := h.cases
  · simp [hline]
  · exact hne

/-- One statement is read alike from two cursors before the border, and neither moves over the
border. -/
theorem Before.exists_statement (hbefore : border.Before depth left right)
    (hleft : left.Within room) (hright : right.Within room) :
    ∃ recorded stopped stopped', left.Reaches stopped ∧ right.Reaches stopped' ∧
      ((∃ statement,
          Parser.statement .standard (Grammar.standard.parts room) left =
            ⟨.success statement, recorded, stopped⟩ ∧
          Parser.statement .standard (Grammar.standard.parts room) right =
            ⟨.success statement, recorded, stopped'⟩ ∧
          border.Together stopped.advance stopped'.advance) ∨
        ∃ diagnostic deeper,
          Parser.statement .standard (Grammar.standard.parts room) left =
            ⟨.failure diagnostic, recorded, stopped⟩ ∧
          Parser.statement .standard (Grammar.standard.parts room) right =
            ⟨.failure diagnostic, recorded, stopped'⟩ ∧
          border.Before deeper stopped stopped') := by
  have hagree := Grammar.statement_agree (Nat.le_refl room) (Nat.le_refl room) hleft
  have hreaches := hagree.reaches
  have hreaches' :=
    (Grammar.statement_agree (Nat.le_refl room) (Nat.le_refl room) hright).reaches
  have hat : (keepingPace border false).At .here 2 0 [] ⟨depth, left, right⟩ := hbefore
  cases (Grammar.onParts_keepingPace border room 1).statement hat with
  | @success statement other recorded t hstatement hsame hmakes =>
      obtain ⟨-, hother, hrests⟩ := hmakes
      have hstatement' := hsame.same nofun
      rw [hother] at hstatement'
      rw [hstatement] at hreaches
      rw [hstatement'] at hreaches'
      exact ⟨recorded, t.left, t.right, hreaches, hreaches',
        .inl ⟨statement, hstatement, hstatement', Rests.advance hrests⟩⟩
  | @failure diagnostic recorded t hstatement hsame hfails =>
      have hstatement' := hsame.same nofun
      rw [hstatement] at hreaches
      rw [hstatement'] at hreaches'
      exact ⟨recorded, t.left, t.right, hreaches, hreaches',
        .inr ⟨diagnostic, _, hstatement, hstatement', hfails⟩⟩
  | exhausted hstatement _ => exact absurd (by rw [hstatement]) hagree.verdict_ne

/-- One statement of a program is read alike from two cursors before the border, and behind it
both are before the border or behind it. -/
theorem exists_precedes (hline : border.token.kind = .newline)
    (hbefore : border.Before depth left right) (hleft : left.Within room)
    (hright : right.Within room) :
    ∃ statements diagnostics stopped stopped',
      Grammar.Precedes room statements diagnostics left stopped.advance ∧
      Grammar.Precedes room statements diagnostics right stopped'.advance ∧
      left.Reaches stopped ∧ right.Reaches stopped' ∧
      border.Together stopped.advance stopped'.advance := by
  have hne := hbefore.current_ne_endOfInput hline
  have hne' : right.current.kind ≠ .endOfInput := hbefore.current_eq ▸ hne
  obtain ⟨recorded, stopped, stopped', hreaches, hreaches', hresult⟩ :=
    hbefore.exists_statement hleft hright
  rcases hresult with ⟨statement, hstatement, hstatement', htogether⟩ |
    ⟨diagnostic, deeper, hstatement, hstatement', hfails⟩
  · exact ⟨statement.toList, recorded, stopped, stopped',
      fun _ _ _ => Grammar.program_of_statement hleft hne hstatement,
      fun _ _ _ => Grammar.program_of_statement hright hne' hstatement',
      hreaches, hreaches', htogether⟩
  · refine ⟨[], recorded ++ [diagnostic], Cursor.resync 0 stopped.current stopped.upcoming,
      Cursor.resync 0 stopped'.current stopped'.upcoming, fun others more last hothers => ?_,
      fun others more last hothers => ?_, hreaches.trans (Cursor.reaches_resync 0 _ _),
      hreaches'.trans (Cursor.reaches_resync 0 _ _), hfails.recover.1.advance⟩
    · rw [List.append_assoc]
      exact Grammar.program_of_failure hleft hne hstatement hothers
    · rw [List.append_assoc]
      exact Grammar.program_of_failure hright hne' hstatement' hothers

/-- Steps that are taken together lead to the border.  What lies between two cursors is read as
`first` says in the left list and as `second` says in the right one, and the steps may rely on
what they keep. -/
theorem exists_to_border {first second : List Stmt → List Diagnostic → Cursor → Cursor → Prop}
    (keeps : Cursor → Cursor → Prop)
    (htrans : ∀ {statements diagnostics others more start middle next},
      first statements diagnostics start middle → first others more middle next →
        first (statements ++ others) (diagnostics ++ more) start next)
    (htrans' : ∀ {statements diagnostics others more start middle next},
      second statements diagnostics start middle → second others more middle next →
        second (statements ++ others) (diagnostics ++ more) start next)
    (hstep : ∀ {depth left right}, border.Before depth left right → left.Within room →
      right.Within room → keeps left right → ∃ statements diagnostics stopped stopped',
        first statements diagnostics left stopped.advance ∧
        second statements diagnostics right stopped'.advance ∧
        left.Reaches stopped ∧ right.Reaches stopped' ∧
        border.Together stopped.advance stopped'.advance ∧
        keeps stopped.advance stopped'.advance)
    (hline : border.token.kind = .newline) (hbefore : border.Before depth left right)
    (hleft : left.Within room) (hright : right.Within room) (hkeeps : keeps left right) :
    ∃ statements diagnostics,
      first statements diagnostics left (Cursor.mk border.token border.left).advance ∧
      second statements diagnostics right (Cursor.mk border.token border.right).advance := by
  induction hlength : left.upcoming.length using Nat.strongRecOn generalizing depth left right with
  | ind length ih =>
      obtain ⟨statements, diagnostics, stopped, stopped', hfirst, hsecond, hreaches, hreaches',
        hnext, hkept⟩ := hstep hbefore hleft hright hkeeps
      rcases hnext with ⟨deeper, hdeeper⟩ | ⟨hborder, hborder'⟩
      · have hpos := List.length_pos_iff.mpr
          (hleft.closed.upcoming_ne_nil (hbefore.current_ne_endOfInput hline))
        have hle := hreaches.length_le
        obtain ⟨others, more, hothers, hothers'⟩ := ih stopped.advance.upcoming.length
          (by rw [Cursor.length_upcoming_advance]; omega) hdeeper
          (hleft.of_reaches hreaches).advance (hright.of_reaches hreaches').advance hkept rfl
        exact ⟨statements ++ others, diagnostics ++ more, htrans hfirst hothers,
          htrans' hsecond hothers'⟩
      · rw [hborder] at hfirst
        rw [hborder'] at hsecond
        exact ⟨statements, diagnostics, hfirst, hsecond⟩

/-- What is read from before the border on is read alike up to the border, and goes on behind
it in either list. -/
theorem exists_precedes_border (hline : border.token.kind = .newline)
    (hbefore : border.Before depth left right) (hleft : left.Within room)
    (hright : right.Within room) :
    ∃ statements diagnostics,
      Grammar.Precedes room statements diagnostics left
        (Cursor.mk border.token border.left).advance ∧
      Grammar.Precedes room statements diagnostics right
        (Cursor.mk border.token border.right).advance := by
  apply exists_to_border (fun _ _ => True) .trans .trans ?_ hline hbefore hleft hright trivial
  intro depth left right hbefore hleft hright _
  obtain ⟨statements, diagnostics, stopped, stopped', hprecedes, hprecedes', hreaches, hreaches',
    hnext⟩ := exists_precedes hline hbefore hleft hright
  exact ⟨statements, diagnostics, stopped, stopped', hprecedes, hprecedes', hreaches, hreaches',
    hnext, trivial⟩

end Border

/-- Behind a line end the list is read as if it began there. -/
theorem exists_program_behind {line : Token} (hline : line.kind = .newline) (rest : List Token)
    {room : Nat} (h : (Cursor.mk line (Cursor.closed line rest)).Within room) :
    ∃ statements recorded last,
      (Grammar.standard.parts room).program (Cursor.mk line (Cursor.closed line rest)).advance =
          ⟨.success statements, recorded, last⟩ ∧
        parse rest = ⟨⟨statements⟩, recorded⟩ := by
  cases rest with
  | nil =>
      have hclosed : Cursor.closed line [] = [.endAt line.position] := by
        simp [Cursor.closed, hline]
      have hend : (Cursor.mk line (Cursor.closed line [])).advance.current.kind = .endOfInput := by
        simp [hclosed, Cursor.peek, Token.endAt]
      exact ⟨[], [], _, Grammar.program_of_endOfInput h.advance hend, rfl⟩
  | cons token others =>
      have hbehind : (Cursor.mk line (Cursor.closed line (token :: others))).advance =
          Cursor.ofTokens (token :: others) := rfl
      have hwithin := h.advance
      rw [hbehind] at hwithin ⊢
      obtain ⟨statements, recorded, last, hprogram⟩ := Grammar.exists_program hwithin
      exact ⟨statements, recorded, last, hprogram, parse_eq hwithin hprogram⟩

/-- A line end outside all braces divides a program.  What is read before it does not depend on
what comes behind it, and the other way round. -/
theorem parse_append_newline {front rest : List Token} {line : Token}
    (hline : line.kind = .newline) (hend : ∀ token ∈ front, token.kind ≠ .endOfInput)
    (hbalanced : Balanced front) :
    (parse (front ++ line :: rest)).program.statements =
        (parse (front ++ [line])).program.statements ++ (parse rest).program.statements ∧
      (parse (front ++ line :: rest)).diagnostics =
        (parse (front ++ [line])).diagnostics ++ (parse rest).diagnostics := by
  let border : Border :=
    ⟨line, Cursor.closed line rest, Cursor.closed line [], .inl hline, by simp [hline]⟩
  have hleft : (Cursor.ofTokens (front ++ line :: rest)).tokens =
      front ++ border.token :: border.left := Cursor.tokens_ofTokens_append front line rest
  have hright : (Cursor.ofTokens (front ++ [line])).tokens =
      front ++ border.token :: border.right := Cursor.tokens_ofTokens_append front line []
  have hbefore : border.Before 0 (Cursor.ofTokens (front ++ line :: rest))
      (Cursor.ofTokens (front ++ [line])) := by
    unfold Border.Before
    rw [hleft, hright]
    exact Border.shared_of_count hend (by simpa using hbalanced.closed_le)
      (by simpa using hbalanced.closed_eq)
  -- Room enough for both lists.
  have hroom := (Cursor.closed_ofTokens (front ++ line :: rest)).within_depth.mono
    (Nat.le_add_right _ (Cursor.ofTokens (front ++ [line])).depth)
  have hroom' := (Cursor.closed_ofTokens (front ++ [line])).within_depth.mono
    (Nat.le_add_left _ (Cursor.ofTokens (front ++ line :: rest)).depth)
  obtain ⟨statements, diagnostics, hprecedes, hprecedes'⟩ :=
    Border.exists_precedes_border hline hbefore hroom hroom'
  obtain ⟨others, more, last, hothers, hrest⟩ :=
    exists_program_behind hline rest (hroom.of_reaches ⟨front, hleft⟩)
  obtain ⟨others', more', last', hothers', hrest'⟩ :=
    exists_program_behind hline [] (hroom'.of_reaches ⟨front, hright⟩)
  rw [parse_eq hroom (hprecedes others more last hothers),
    parse_eq hroom' (hprecedes' others' more' last' hothers'), hrest]
  have hnil : (⟨⟨[]⟩, []⟩ : Parsed) = ⟨⟨others'⟩, more'⟩ := hrest'
  simp only [Parsed.mk.injEq, Program.mk.injEq] at hnil
  simp [← hnil.1, ← hnil.2]

/-- The tokens of `{(}`: a block with a broken statement. -/
def brokenBlock : List Token :=
  [⟨.openCurly, "\x7b", ⟨1, 1⟩⟩, ⟨.openParen, "(", ⟨1, 2⟩⟩, ⟨.closeCurly, "\x7d", ⟨1, 3⟩⟩]

/-- The broken block, and a statement on the next line that is broken too. -/
theorem parse_brokenBlock_append :
    Balanced brokenBlock ∧
      (parse (brokenBlock ++ ⟨.newline, "\n", ⟨1, 4⟩⟩ :: [⟨.comma, ",", ⟨2, 1⟩⟩])).diagnostics =
        (parse (brokenBlock ++ [⟨.newline, "\n", ⟨1, 4⟩⟩])).diagnostics ++
          (parse [⟨.comma, ",", ⟨2, 1⟩⟩]).diagnostics := by
  have hbalanced : Balanced brokenBlock := by decide
  exact ⟨hbalanced, (parse_append_newline rfl (by decide) hbalanced).2⟩

end LineScript
