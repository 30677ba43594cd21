import LineScript.Diagnostic

/-!
# The order of diagnostics

Positions are ordered as a source is read, by line and within a line by column.  Diagnostics
are in the order of some tokens when each of them stands at one of these, and none stands at a
token in front of one that a diagnostic before it stands at.  Several may stand at one token.
-/

namespace LineScript

/-- Positions in the order in which a source is read. -/
instance : LE Position where
  le first second :=
    first.line < second.line ∨ first.line = second.line ∧ first.column ≤ second.column

instance (first second : Position) : Decidable (first ≤ second) :=
  inferInstanceAs (Decidable (_ ∨ _))

theorem Position.le_refl (position : Position) : position ≤ position :=
  .inr ⟨rfl, UInt32.le_refl _⟩

/-- The positions of the tokens never step back. -/
def Token.Ascending (tokens : List Token) : Prop :=
  tokens.Pairwise fun first second => first.position ≤ second.position

/-- The positions of the diagnostics never step back. -/
def Diagnostic.Ascending (diagnostics : List Diagnostic) : Prop :=
  diagnostics.Pairwise fun first second => first.position ≤ second.position

instance (tokens : List Token) : Decidable (Token.Ascending tokens) :=
  inferInstanceAs (Decidable (tokens.Pairwise _))

instance (diagnostics : List Diagnostic) : Decidable (Diagnostic.Ascending diagnostics) :=
  inferInstanceAs (Decidable (diagnostics.Pairwise _))

/-- The diagnostics stand at tokens of the list, in the order of the list. -/
inductive InOrder : List Token → List Diagnostic → Prop where
  | nil (tokens : List Token) : InOrder tokens []
  | here {token : Token} {others : List Token} {diagnostic : Diagnostic} {more : List Diagnostic}
    (h : diagnostic.position = token.position) (hmore : InOrder (token :: others) more) :
    InOrder (token :: others) (diagnostic :: more)
  | behind {token : Token} {others : List Token} {diagnostics : List Diagnostic}
    (h : InOrder others diagnostics) : InOrder (token :: others) diagnostics

namespace InOrder

variable {tokens others first second : List Token} {diagnostics more : List Diagnostic}
variable {token : Token}

/-- Every diagnostic stands at a token. -/
theorem exists_mem (h : InOrder tokens diagnostics) :
    ∀ diagnostic ∈ diagnostics, ∃ token ∈ tokens, diagnostic.position = token.position := by
  induction h with
  | nil => simp
  | here hposition _ ih =>
      exact List.forall_mem_cons.mpr ⟨⟨_, List.mem_cons_self, hposition⟩, ih⟩
  | behind _ ih =>
      intro diagnostic hmem
      obtain ⟨token, htoken, hposition⟩ := ih diagnostic hmem
      exact ⟨token, List.mem_cons_of_mem _ htoken, hposition⟩

/-- More tokens leave room for the same diagnostics. -/
theorem sublist (h : InOrder tokens diagnostics) (hsub : tokens.Sublist others) :
    InOrder others diagnostics := by
  induction hsub generalizing diagnostics with
  | slnil => exact h
  | cons _ _ ih => exact .behind (ih h)
  | @cons_cons tokens others token _ ih =>
      generalize hall : token :: tokens = all at h
      induction h with
      | nil => exact .nil _
      | here hposition _ ihmore =>
          obtain ⟨rfl, rfl⟩ := List.cons.inj hall
          exact .here hposition (ihmore rfl)
      | behind hbehind =>
          obtain ⟨rfl, rfl⟩ := List.cons.inj hall
          exact .behind (ih hbehind)

theorem append (h : InOrder first diagnostics) (hmore : InOrder second more) :
    InOrder (first ++ second) (diagnostics ++ more) := by
  induction h with
  | nil tokens => exact hmore.sublist (List.sublist_append_right tokens second)
  | here hposition _ ih => exact .here hposition ih
  | behind _ ih => exact .behind ih

/-- Any number of diagnostics may stand at one token. -/
theorem singleton (h : ∀ diagnostic ∈ diagnostics, diagnostic.position = token.position) :
    InOrder [token] diagnostics := by
  induction diagnostics with
  | nil => exact .nil _
  | cons diagnostic more ih =>
      obtain ⟨hposition, hmore⟩ := List.forall_mem_cons.mp h
      exact .here hposition (ih hmore)

/-- At tokens whose positions never step back, those of the diagnostics do not either. -/
theorem ascending (h : InOrder tokens diagnostics) (htokens : Token.Ascending tokens) :
    Diagnostic.Ascending diagnostics := by
  induction h with
  | nil => exact .nil
  | @here token others diagnostic more hposition hmore ih =>
      refine List.pairwise_cons.mpr ⟨fun later hlater => ?_, ih htokens⟩
      obtain ⟨other, hother, heq⟩ := hmore.exists_mem later hlater
      rw [hposition, heq]
      rcases List.mem_cons.mp hother with rfl | hbehind
      · exact Position.le_refl _
      · exact List.rel_of_pairwise_cons htokens hbehind
  | behind _ ih => exact ih htokens.of_cons

end InOrder

end LineScript
