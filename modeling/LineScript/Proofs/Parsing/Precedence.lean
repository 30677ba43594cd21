import LineScript.Proofs.Parsing.Reading
import LineScript.Proofs.Tree.Unplaced

/-!
# Precedence and grouping

`Expr.print` writes an expression with the parentheses that precedence and grouping to
the left require and no others.  How tightly an operator binds is said there by its kind,
without the table that the parser looks it up in.  Read back at the lowest precedence this
gives the same expression and stops on its last token, whatever comes after, as long as
that cannot go on an expression.  The induction is over trees, at every precedence that the
context may ask for and with every token that may follow.
-/

namespace LineScript

namespace Expr

/-- The expressions made of names, literals, operators and calls. -/
inductive Formula : Expr → Prop where
  | identifier {token : Token} (h : token.kind = .identifier) :
    Formula (.identifier (Name.ofToken token))
  | boolean {token : Token} (h : token.kind = .trueLiteral ∨ token.kind = .falseLiteral) :
    Formula (.boolean token (token.kind = .trueLiteral))
  | integer {token : Token} {value : Int64} (h : token.kind = .integer)
    (hvalue : readInt64? token.text = some value) : Formula (.integer token value)
  | string {token : Token} (h : token.kind = .string) : Formula (.string token token.text)
  | unary {token : Token} {operand : Expr} (h : token.kind = .dash ∨ token.kind = .exclamation)
    (hoperand : Formula operand) : Formula (.unary token token.text operand)
  | binary {token : Token} {left right : Expr} (h : token.kind ∈ Grammar.binaryKinds)
    (hleft : Formula left) (hright : Formula right) :
    Formula (.binary token left token.text right)
  | call {token : Token} {callee : Expr} {arguments : List Expr} (h : token.kind = .openParen)
    (hcallee : Formula callee) (harguments : ∀ argument ∈ arguments, Formula argument) :
    Formula (.call token callee arguments)

/-- How tightly a binary operator binds: equations the loosest, then comparisons, sums and
products. -/
def operatorTightness : TokenKind → Nat
  | .equals | .notEquals => 1
  | .less | .greater => 2
  | .plus | .dash => 3
  | .star | .slash | .percent => 4
  | _ => 0

/-- How tightly the operation in front of an operand binds. -/
def unaryTightness : Nat := 5

/-- How tightly a call binds, and what needs no parentheses anywhere. -/
def callTightness : Nat := 6

/-- How tightly the outermost construct of an expression binds. -/
def tightness : Expr → Nat
  | .binary token _ _ _ => operatorTightness token.kind
  | .unary _ _ _ => unaryTightness
  | _ => callTightness

/-- The tokens in parentheses, if these are needed. -/
def parenthesized (needed : Bool) (tokens : List Token) : List Token :=
  if needed then mark .openParen "(" :: (tokens ++ [mark .closeParen ")"]) else tokens

mutual

/-- The tokens of an expression.  A left operand stands in parentheses when it binds looser
than its operator, a right operand when it does not bind tighter, the operand of a unary
operator and a callee when they bind looser than these; arguments never do. -/
def print : Expr → List Token
  | .identifier name => [name.token]
  | .boolean token _ | .integer token _ | .string token _ => [token]
  | .unary token _ operand =>
    token :: parenthesized (operand.tightness < unaryTightness) operand.print
  | .binary token left _ right =>
    parenthesized (left.tightness < operatorTightness token.kind) left.print ++
      token :: parenthesized (right.tightness ≤ operatorTightness token.kind) right.print
  | .call token callee arguments =>
    parenthesized (callee.tightness < callTightness) callee.print ++
      token :: (printList arguments ++ [mark .closeParen ")"])
  | .conditional _ _ _ _ | .function _ => []
termination_by structural expression => expression

/-- The tokens of a list of arguments. -/
def printList : List Expr → List Token
  | [] => []
  | first :: others => first.print ++ printOthers others
termination_by structural expressions => expressions

/-- The tokens of the arguments behind the first. -/
def printOthers : List Expr → List Token
  | [] => []
  | next :: others => mark .comma "," :: (next.print ++ printOthers others)
termination_by structural expressions => expressions

end

/-- A binary operation binds tighter than `minimum`; anything else does so anywhere. -/
def BindsAbove (minimum : Nat) : Expr → Prop
  | .binary token _ _ _ => minimum < operatorTightness token.kind
  | _ => True

variable {kind : TokenKind}

/-- The table of the grammar has the operators as tight as they are printed. -/
theorem level_precedence (h : kind ∈ Grammar.binaryKinds) :
    (Grammar.standard.precedence kind).level = operatorTightness kind := by
  have hall : ∀ kind ∈ Grammar.binaryKinds,
      (Grammar.standard.precedence kind).level = operatorTightness kind := by decide
  exact hall kind h

theorem operatorTightness_pos (h : kind ∈ Grammar.binaryKinds) : 0 < operatorTightness kind := by
  have hall : ∀ kind ∈ Grammar.binaryKinds, 0 < operatorTightness kind := by decide
  exact hall kind h

theorem operatorTightness_lt_unary (h : kind ∈ Grammar.binaryKinds) :
    operatorTightness kind < unaryTightness := by
  have hall : ∀ kind ∈ Grammar.binaryKinds, operatorTightness kind < unaryTightness := by decide
  exact hall kind h

theorem Formula.bindsAbove_zero {e : Expr} (h : e.Formula) : e.BindsAbove 0 := by
  cases h with
  | binary hkind _ _ => exact operatorTightness_pos hkind
  | _ => trivial

theorem bindsAbove_of_lt {e : Expr} {minimum : Nat} (h : minimum < e.tightness) :
    e.BindsAbove minimum := by
  cases e with
  | binary token left operator right => exact h
  | _ => trivial

/-- A formula that binds as tightly as a unary operation is no binary one. -/
theorem Formula.bindsAbove_of_le {e : Expr} (h : e.Formula) (htight : unaryTightness ≤ e.tightness)
    (minimum : Nat) : e.BindsAbove minimum := by
  cases h with
  | binary hkind _ _ => exact absurd (operatorTightness_lt_unary hkind) (Nat.not_lt_of_le htight)
  | _ => trivial

theorem Formula.print_eq_cons {e : Expr} (h : e.Formula) :
    ∃ token others, e.print = token :: others ∧ token.kind ≠ .closeParen := by
  have hparenthesized {inner : Expr} (needed : Bool)
      (hinner : ∃ token others, inner.print = token :: others ∧ token.kind ≠ .closeParen) :
      ∃ token others, parenthesized needed inner.print = token :: others ∧
        token.kind ≠ .closeParen := by
    cases needed with
    | false => exact hinner
    | true => exact ⟨mark .openParen "(", _, rfl, by decide⟩
  induction h with
  | identifier hkind => exact ⟨_, [], rfl, by simp [Name.ofToken, hkind]⟩
  | boolean hkind => exact ⟨_, [], rfl, by rcases hkind with hkind | hkind <;> simp [hkind]⟩
  | integer hkind _ => exact ⟨_, [], rfl, by simp [hkind]⟩
  | string hkind => exact ⟨_, [], rfl, by simp [hkind]⟩
  | unary hkind _ _ =>
      exact ⟨_, _, rfl, by rcases hkind with hkind | hkind <;> simp [hkind]⟩
  | binary _ _ _ ihleft _ =>
      obtain ⟨token, others, hprint, hkind⟩ := hparenthesized _ ihleft
      exact ⟨token, _, by rw [print, hprint, List.cons_append], hkind⟩
  | call _ _ _ ihcallee _ =>
      obtain ⟨token, others, hprint, hkind⟩ := hparenthesized _ ihcallee
      exact ⟨token, _, by rw [print, hprint, List.cons_append], hkind⟩

end Expr

/-! ## Reading one construct -/

section Reading

open Grammar LineScript.Parser

variable {depth : Nat} {minimum : Precedence} {cursor : Cursor} {last next : Token}
variable {rest : List Token}

/-- Off `tokens` the parser reads `parsed` and then looks for operators, if the token behind
them does not bind tighter than `limit`. -/
def Reads (depth : Nat) (minimum : Precedence) (tokens : List Token) (parsed : Expr)
    (limit : Nat) : Prop :=
  ∀ (cursor : Cursor) (next : Token) (rest : List Token), cursor.Within depth →
    cursor.tokens = tokens ++ next :: rest → (standard.precedence next.kind).level ≤ limit →
      ∃ before last, tokens = before ++ [last] ∧ cursor.Reaches ⟨last, next :: rest⟩ ∧
        (standard.parts depth).expression minimum cursor =
          (standard.parts depth).operators minimum parsed ⟨last, next :: rest⟩

variable {tokens : List Token} {parsed operand left right callee : Expr} {token : Token}
variable {limit leftLimit rightLimit : Nat} {leftTokens rightTokens : List Token}

theorem reads_iff :
    Reads depth minimum tokens parsed limit ↔
      ReadsBefore (fun kind => (standard.precedence kind).level ≤ limit) depth minimum tokens
        parsed :=
  Iff.rfl

/-- What is no operator goes on nothing. -/
theorem level_precedence_le {kind : TokenKind} (h : standard.infixRule kind = none) :
    (standard.precedence kind).level ≤ limit := by
  simp [precedence, h, Precedence.level]

theorem Reads.expression_eq (h : Reads depth minimum tokens parsed limit)
    (hwithin : cursor.Within depth) (htokens : cursor.tokens = tokens ++ next :: rest)
    (hnext : standard.infixRule next.kind = none) :
    ∃ before last, tokens = before ++ [last] ∧ cursor.Reaches ⟨last, next :: rest⟩ ∧
      (standard.parts depth).expression minimum cursor =
        ⟨.success parsed, [], ⟨last, next :: rest⟩⟩ :=
  (reads_iff.mp h).expression_eq hwithin htokens (level_precedence_le hnext)
    (not_lt_precedence hnext)

/-- A limit that is looser asks for less. -/
theorem Reads.weaken {looser : Nat} (h : Reads depth minimum tokens parsed limit)
    (hlooser : looser ≤ limit) : Reads depth minimum tokens parsed looser :=
  fun cursor next rest hwithin htokens hnext =>
    h cursor next rest hwithin htokens (Nat.le_trans hnext hlooser)

theorem reads_atom (rule : PrefixRule) (hrule : standard.prefixRule token.kind = some rule)
    (hparsed : ∀ upcoming, rule.parser (standard.parts depth) ⟨token, upcoming⟩ =
      ⟨.success parsed, [], ⟨token, upcoming⟩⟩) :
    Reads depth minimum [token] parsed limit :=
  reads_iff.mpr (readsBefore_atom rule hrule hparsed)

theorem reads_unary (hkind : token.kind = .dash ∨ token.kind = .exclamation)
    (h : Reads depth .unary tokens operand limit) (hlimit : Expr.unaryTightness ≤ limit) :
    Reads depth minimum (token :: tokens) (.unary token token.text operand)
      Expr.unaryTightness :=
  reads_iff.mpr (readsBefore_unary hkind (reads_iff.mp h)
    fun _ hfollows => ⟨Nat.le_trans hfollows hlimit, Nat.not_lt_of_le hfollows⟩)

theorem reads_grouping {opening closing : Token} (hopening : opening.kind = .openParen)
    (hclosing : closing.kind = .closeParen) (h : Reads depth .lowest tokens parsed limit) :
    Reads depth minimum (opening :: (tokens ++ [closing])) parsed Expr.callTightness :=
  reads_iff.mpr (readsBefore_grouping hopening hclosing (reads_iff.mp h) (level_precedence_le rfl))

theorem reads_binary (hkind : token.kind ∈ binaryKinds)
    (hminimum : minimum.level < Expr.operatorTightness token.kind)
    (hleft : Reads depth minimum leftTokens left leftLimit)
    (hleftLimit : Expr.operatorTightness token.kind ≤ leftLimit)
    (hright : Reads depth (standard.precedence token.kind) rightTokens right rightLimit)
    (hrightLimit : Expr.operatorTightness token.kind ≤ rightLimit) :
    Reads depth minimum (leftTokens ++ token :: rightTokens)
      (.binary token left token.text right) (Expr.operatorTightness token.kind) := by
  rw [← Expr.level_precedence hkind] at hminimum hleftLimit hrightLimit ⊢
  exact reads_iff.mpr (readsBefore_binary hkind hminimum (reads_iff.mp hleft) hleftLimit
    (reads_iff.mp hright)
    fun _ hfollows => ⟨Nat.le_trans hfollows hrightLimit, Nat.not_lt_of_le hfollows⟩)

theorem reads_call_nil {closing : Token} (hkind : token.kind = .openParen)
    (hclosing : closing.kind = .closeParen) (hminimum : minimum < .call)
    (hcallee : Reads depth minimum leftTokens callee Expr.callTightness) :
    Reads depth minimum (leftTokens ++ token :: [closing]) (.call token callee [])
      Expr.callTightness :=
  reads_iff.mpr (readsBefore_call_nil hkind hclosing hminimum (reads_iff.mp hcallee) (by decide))

theorem reads_call {closing first : Token} {others : List Token} {arguments : List Expr}
    (hkind : token.kind = .openParen) (hclosing : closing.kind = .closeParen)
    (hminimum : minimum < .call)
    (hcallee : Reads depth minimum leftTokens callee Expr.callTightness)
    (hlist : ReadsList depth (first :: others) arguments) (hfirst : first.kind ≠ .closeParen) :
    Reads depth minimum (leftTokens ++ token :: (first :: others ++ [closing]))
      (.call token callee arguments) Expr.callTightness :=
  reads_iff.mpr (readsBefore_call hkind hclosing hminimum (reads_iff.mp hcallee) (by decide) hlist
    hfirst)

/-! ## Reading what was printed -/

/-- Whatever differs from the tokens of an expression only in positions is read as that
expression up to positions, wherever it binds tighter than asked for. -/
def ReadsBack (depth : Nat) (e : Expr) : Prop :=
  ∀ tokens, Token.Alike tokens e.print →
    ∃ parsed, parsed.unplaced = e.unplaced ∧
      ∀ minimum, minimum < .call → e.BindsAbove minimum.level →
        Reads depth minimum tokens parsed e.tightness

variable {e : Expr}

/-- In parentheses an expression can stand anywhere. -/
theorem ReadsBack.parenthesized (h : ReadsBack depth e) (hlowest : e.BindsAbove 0)
    {needed : Bool} (halike : Token.Alike tokens (Expr.parenthesized needed e.print)) :
    ∃ parsed, parsed.unplaced = e.unplaced ∧
      ∀ minimum, minimum < .call → (needed = false → e.BindsAbove minimum.level) →
        Reads depth minimum tokens parsed (if needed then Expr.callTightness else e.tightness) := by
  cases needed with
  | false =>
      obtain ⟨parsed, hparsed, hreads⟩ := h tokens halike
      exact ⟨parsed, hparsed, fun minimum hminimum hbinds => hreads minimum hminimum (hbinds rfl)⟩
  | true =>
      obtain ⟨opening, behind, rfl, hopening, hbehind⟩ := halike.exists_cons
      obtain ⟨inner, final, rfl, hinner, hfinal⟩ := hbehind.exists_append
      obtain ⟨closing, rfl, hclosing⟩ := hfinal.exists_singleton
      obtain ⟨parsed, hparsed, hreads⟩ := h inner hinner
      refine ⟨parsed, hparsed, fun minimum _ _ => ?_⟩
      exact reads_grouping (Token.unplaced_eq_iff.mp hopening).1
        (Token.unplaced_eq_iff.mp hclosing).1 (hreads .lowest (by decide) hlowest)

theorem ReadsBack.list {first : Expr} {others : List Expr}
    (hlowest : ∀ argument ∈ first :: others, argument.BindsAbove 0)
    (h : ∀ argument ∈ first :: others, ReadsBack depth argument)
    (halike : Token.Alike tokens (Expr.printList (first :: others))) :
    ∃ arguments, arguments.map Expr.unplaced = (first :: others).map Expr.unplaced ∧
      ReadsList depth tokens arguments := by
  induction others generalizing first tokens with
  | nil =>
      simp only [Expr.printList, Expr.printOthers, List.append_nil] at halike
      obtain ⟨parsed, hparsed, hreads⟩ := h first (by simp) tokens halike
      exact ⟨[parsed], by simp [hparsed],
        readsList_singleton (reads_iff.mp (hreads .lowest (by decide) (hlowest first (by simp))))
          (level_precedence_le rfl)⟩
  | cons second others ih =>
      obtain ⟨before, behind, rfl, hbefore, hbehind⟩ := halike.exists_append
      obtain ⟨comma, rest, rfl, hcomma, hrest⟩ := hbehind.exists_cons
      obtain ⟨parsed, hparsed, hreads⟩ := h first (by simp) before hbefore
      obtain ⟨arguments, harguments, hlist⟩ :=
        ih (fun argument hmem => hlowest argument (List.mem_cons_of_mem _ hmem))
          (fun argument hmem => h argument (List.mem_cons_of_mem _ hmem)) hrest
      refine ⟨parsed :: arguments, by simp [hparsed, harguments], ?_⟩
      exact readsList_cons (Token.unplaced_eq_iff.mp hcomma).1
        (reads_iff.mp (hreads .lowest (by decide) (hlowest first (by simp))))
        (level_precedence_le rfl) hlist

/-- An expression that is made of one token by a rule. -/
theorem readsBack_atom {expected : Token} (rule : PrefixRule) (hprint : e.print = [expected])
    (hrule : standard.prefixRule expected.kind = some rule)
    (hmade : ∀ token : Token, token.unplaced = expected.unplaced →
      ∃ parsed, parsed.unplaced = e.unplaced ∧ ∀ upcoming,
        rule.parser (standard.parts depth) ⟨token, upcoming⟩ =
          ⟨.success parsed, [], ⟨token, upcoming⟩⟩) :
    ReadsBack depth e := by
  intro tokens halike
  rw [hprint] at halike
  obtain ⟨token, rfl, hsame⟩ := halike.exists_singleton
  obtain ⟨parsed, hparsed, hread⟩ := hmade token hsame
  rw [← (Token.unplaced_eq_iff.mp hsame).1] at hrule
  exact ⟨parsed, hparsed, fun _ _ _ => reads_atom rule hrule hread⟩

theorem readsBack_unary {expected : Token} {operand : Expr}
    (htoken : expected.kind = .dash ∨ expected.kind = .exclamation) (hoperand : operand.Formula)
    (ih : ReadsBack depth operand) :
    ReadsBack depth (.unary expected expected.text operand) := by
  intro tokens halike
  obtain ⟨token, behind, rfl, hsame, hbehind⟩ := halike.exists_cons
  obtain ⟨hkind, htext⟩ := Token.unplaced_eq_iff.mp hsame
  obtain ⟨parsed, hparsed, hreads⟩ := ih.parenthesized hoperand.bindsAbove_zero hbehind
  refine ⟨.unary token token.text parsed, ?_, fun minimum _ _ => ?_⟩
  · simp [Expr.unplaced, hsame, htext, hparsed]
  · refine reads_unary (by rwa [hkind]) (hreads .unary (by decide) fun hneeded => ?_) ?_
    · exact hoperand.bindsAbove_of_le (Nat.le_of_not_lt (of_decide_eq_false hneeded)) _
    · split
      · decide
      · rename_i hneeded
        simpa using hneeded

theorem readsBack_binary {expected : Token} {left right : Expr}
    (htoken : expected.kind ∈ binaryKinds) (hleft : left.Formula) (hright : right.Formula)
    (ihleft : ReadsBack depth left) (ihright : ReadsBack depth right) :
    ReadsBack depth (.binary expected left expected.text right) := by
  intro tokens halike
  obtain ⟨leftTokens, behind, rfl, hleftTokens, hbehind⟩ := halike.exists_append
  obtain ⟨token, rightTokens, rfl, hsame, hrightTokens⟩ := hbehind.exists_cons
  obtain ⟨hkind, htext⟩ := Token.unplaced_eq_iff.mp hsame
  obtain ⟨parsedLeft, hparsedLeft, hreadsLeft⟩ :=
    ihleft.parenthesized hleft.bindsAbove_zero hleftTokens
  obtain ⟨parsedRight, hparsedRight, hreadsRight⟩ :=
    ihright.parenthesized hright.bindsAbove_zero hrightTokens
  refine ⟨.binary token parsedLeft token.text parsedRight, ?_, fun minimum hminimum hbinds => ?_⟩
  · simp [Expr.unplaced, hsame, htext, hparsedLeft, hparsedRight]
  simp only [Expr.BindsAbove, ← hkind] at hbinds
  rw [← hkind] at htoken hreadsLeft hreadsRight
  rw [Expr.tightness, ← hkind]
  have hcall : Expr.operatorTightness token.kind < Expr.callTightness :=
    Nat.lt_trans (Expr.operatorTightness_lt_unary htoken) (by decide)
  have hlevel := Expr.level_precedence htoken
  have hlooser : standard.precedence token.kind < .call := by
    rw [Precedence.lt_iff_level_lt, hlevel]
    exact hcall
  refine reads_binary htoken hbinds (hreadsLeft minimum hminimum fun hneeded => ?_) ?_
    (hreadsRight _ hlooser fun hneeded => ?_) ?_
  · have htight : ¬ left.tightness < Expr.operatorTightness token.kind :=
      of_decide_eq_false hneeded
    exact Expr.bindsAbove_of_lt (Nat.lt_of_lt_of_le hbinds (Nat.le_of_not_lt htight))
  · split
    · exact Nat.le_of_lt hcall
    · rename_i hneeded
      simpa using hneeded
  · rw [hlevel]
    exact Expr.bindsAbove_of_lt (Nat.lt_of_not_le (of_decide_eq_false hneeded))
  · split
    · exact Nat.le_of_lt hcall
    · rename_i hneeded
      exact Nat.le_of_lt (by simpa using hneeded)

/-- A callee is read wherever the call is. -/
theorem ReadsBack.exists_callee (ih : ReadsBack depth callee) (hcallee : callee.Formula)
    (halike : Token.Alike tokens
      (Expr.parenthesized (callee.tightness < Expr.callTightness) callee.print)) :
    ∃ parsed, parsed.unplaced = callee.unplaced ∧ ∀ minimum, minimum < .call →
      Reads depth minimum tokens parsed Expr.callTightness := by
  obtain ⟨parsed, hparsed, hreads⟩ := ih.parenthesized hcallee.bindsAbove_zero halike
  refine ⟨parsed, hparsed, fun minimum hminimum => ?_⟩
  refine (hreads minimum hminimum fun hneeded => ?_).weaken ?_
  · have htight : Expr.callTightness ≤ callee.tightness :=
      Nat.le_of_not_lt (of_decide_eq_false hneeded)
    exact hcallee.bindsAbove_of_le (Nat.le_trans (by decide) htight) _
  · split
    · decide
    · rename_i hneeded
      simpa using hneeded

theorem readsBack_call {expected : Token} {arguments : List Expr}
    (htoken : expected.kind = .openParen) (hcallee : callee.Formula)
    (harguments : ∀ argument ∈ arguments, argument.Formula) (ihcallee : ReadsBack depth callee)
    (iharguments : ∀ argument ∈ arguments, ReadsBack depth argument) :
    ReadsBack depth (.call expected callee arguments) := by
  intro tokens halike
  obtain ⟨calleeTokens, behind, rfl, hcalleeTokens, hbehind⟩ := halike.exists_append
  obtain ⟨token, others, rfl, hsame, hothers⟩ := hbehind.exists_cons
  obtain ⟨list, final, rfl, hlist, hfinal⟩ := hothers.exists_append
  obtain ⟨closing, rfl, hclosing⟩ := hfinal.exists_singleton
  obtain ⟨hkind, -⟩ := Token.unplaced_eq_iff.mp hsame
  obtain ⟨hclosing, -⟩ := Token.unplaced_eq_iff.mp hclosing
  rw [htoken] at hkind
  obtain ⟨parsed, hparsed, hreads⟩ := ihcallee.exists_callee hcallee hcalleeTokens
  cases arguments with
  | nil =>
      obtain rfl : list = [] := by simpa [Token.Alike, Expr.printList] using hlist
      refine ⟨.call token parsed [], ?_, fun minimum hminimum _ => ?_⟩
      · simp [Expr.unplaced, Expr.unplacedAll, hsame, hparsed]
      · exact reads_call_nil hkind hclosing hminimum (hreads minimum hminimum)
  | cons first others =>
      obtain ⟨parsedList, hparsedList, hreadsList⟩ := ReadsBack.list
        (fun argument hmem => (harguments argument hmem).bindsAbove_zero) iharguments hlist
      obtain ⟨head, tail, hprint, hhead⟩ := (harguments first (by simp)).print_eq_cons
      rw [Expr.printList, hprint, List.cons_append] at hlist
      obtain ⟨headToken, tailTokens, rfl, hsameHead, -⟩ := hlist.exists_cons
      refine ⟨.call token parsed parsedList, ?_, fun minimum hminimum _ => ?_⟩
      · simp only [Expr.unplaced, Expr.unplacedAll_eq_map, hsame, hparsed, hparsedList]
      · refine reads_call hkind hclosing hminimum (hreads minimum hminimum) hreadsList ?_
        rwa [(Token.unplaced_eq_iff.mp hsameHead).1]

theorem readsBack_of_formula (h : e.Formula) : ReadsBack depth e := by
  induction h with
  | identifier htoken =>
      refine readsBack_atom .identifier rfl (by simp [Name.ofToken, htoken, standard]) ?_
      intro token hsame
      have htext := (Token.unplaced_eq_iff.mp hsame).2
      exact ⟨.identifier (Name.ofToken token),
        by simp [Expr.unplaced, Name.unplaced, Name.ofToken, hsame, htext], fun _ => rfl⟩
  | boolean htoken =>
      refine readsBack_atom .boolean rfl ?_ ?_
      · rcases htoken with htoken | htoken <;> simp [htoken, standard]
      intro token hsame
      have hkind := (Token.unplaced_eq_iff.mp hsame).1
      exact ⟨.boolean token (token.kind = .trueLiteral), by simp [Expr.unplaced, hsame, hkind],
        fun _ => rfl⟩
  | @integer expected value htoken hvalue =>
      refine readsBack_atom .integer rfl (by simp [htoken, standard]) ?_
      intro token hsame
      have htext := (Token.unplaced_eq_iff.mp hsame).2
      refine ⟨.integer token value, by simp [Expr.unplaced, hsame], fun _ => ?_⟩
      simp [PrefixRule.parser, Parser.integer, htext, hvalue]
  | string htoken =>
      refine readsBack_atom .string rfl (by simp [htoken, standard]) ?_
      intro token hsame
      have htext := (Token.unplaced_eq_iff.mp hsame).2
      exact ⟨.string token token.text, by simp [Expr.unplaced, hsame, htext], fun _ => rfl⟩
  | unary htoken hoperand ih => exact readsBack_unary htoken hoperand ih
  | binary htoken hleft hright ihleft ihright =>
      exact readsBack_binary htoken hleft hright ihleft ihright
  | call htoken hcallee harguments ihcallee iharguments =>
      exact readsBack_call htoken hcallee harguments ihcallee iharguments

/-- A printed expression, behind which stands a token that cannot go on an expression, is read
back as it was, up to positions.  Nothing is recorded, and its last token is current then. -/
theorem expression_of_alike_print (h : e.Formula) (halike : Token.Alike tokens e.print)
    (hnext : next.kind = .newline ∨ standard.infixRule next.kind = none) (rest : List Token) :
    ∃ parsed before last, parsed.unplaced = e.unplaced ∧ tokens = before ++ [last] ∧
      Parser.expression .standard ((Cursor.ofTokens (tokens ++ next :: rest)).parts .standard)
          .lowest (Cursor.ofTokens (tokens ++ next :: rest)) =
        ⟨.success parsed, [], Cursor.mk last (Cursor.ofTokens (next :: rest)).tokens⟩ := by
  obtain ⟨head, tail, hprint, -⟩ := h.print_eq_cons
  obtain ⟨first, others, rfl, -, -⟩ := (hprint ▸ halike).exists_cons
  have hclosed := Cursor.closed_ofTokens (first :: others ++ next :: rest)
  have htokens := Cursor.tokens_ofTokens_append (first :: others) next rest
  have hnone : standard.infixRule next.kind = none := by
    rcases hnext with hline | hnone
    · simp [hline, standard]
    · exact hnone
  obtain ⟨parsed, hparsed, hreads⟩ := readsBack_of_formula h (first :: others) halike
  obtain ⟨before, last, hlast, -, hexpression⟩ :=
    (hreads .lowest (by decide) h.bindsAbove_zero).expression_eq hclosed.within_depth htokens
      hnone
  refine ⟨parsed, before, last, hparsed, hlast, ?_⟩
  rw [Cursor.parts, ← expression_eq hclosed.within_depth]
  exact hexpression

end Reading

namespace Expr

/-- A name as an expression. -/
def named (text : String) : Expr :=
  .identifier (Name.ofToken (mark .identifier text))

/-- The product of `a` and the negated sum of `b` and `c`. -/
def sampleProduct : Expr :=
  .binary (mark .star "*") (named "a") "*"
    (.unary (mark .dash "-") "-" (.binary (mark .plus "+") (named "b") "+" (named "c")))

example : sampleProduct.print.map Token.text = ["a", "*", "-", "(", "b", "+", "c", ")"] := by
  decide

theorem formula_sampleProduct : sampleProduct.Formula :=
  .binary (by decide) (.identifier rfl)
    (.unary (.inl rfl) (.binary (by decide) (.identifier rfl) (.identifier rfl)))

end Expr

/-- The product is read back in front of a line end with a stray brace behind it. -/
theorem expression_of_print_sampleProduct :
    ∃ parsed before last, parsed.unplaced = Expr.sampleProduct.unplaced ∧
      Expr.sampleProduct.print = before ++ [last] ∧
      Parser.expression .standard
          ((Cursor.ofTokens (Expr.sampleProduct.print ++ Expr.mark .newline "\n" ::
            [Expr.mark .closeCurly "\x7d"])).parts .standard)
          .lowest (Cursor.ofTokens (Expr.sampleProduct.print ++ Expr.mark .newline "\n" ::
            [Expr.mark .closeCurly "\x7d"])) =
        ⟨.success parsed, [], Cursor.mk last (Cursor.ofTokens (Expr.mark .newline "\n" ::
          [Expr.mark .closeCurly "\x7d"])).tokens⟩ :=
  expression_of_alike_print Expr.formula_sampleProduct rfl (.inl rfl) _

end LineScript
