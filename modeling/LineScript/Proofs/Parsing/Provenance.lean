import LineScript.Proofs.Parsing.Nesting
import LineScript.Proofs.Parsing.Program

/-!
# Where the nodes come from

Whatever is wrong with a program, the tree that is made of it is faithful: its nodes are made
from tokens of the list, each from tokens of its own and in the order in which they stand
there.  A parser that succeeds has moved over the tokens that it keeps and over others that
leave no node; a parser that fails leaves nothing and has moved forward.  Without diagnostics,
every brace that is opened on the way is closed on the way, and what leaves no node is
punctuation.
-/

namespace LineScript

/-! ## Depth behind a stretch of tokens -/

/-- Whether a kind neither nests nor ends the input. -/
def TokenKind.isFlat : TokenKind → Bool
  | .openCurly | .closeCurly | .endOfInput => false
  | _ => true

theorem TokenKind.isFlat_of_isPlain {kind : TokenKind} (h : kind.isPlain) : kind.isFlat := by
  cases kind <;> first | rfl | cases h

theorem TokenKind.ne_endOfInput_of_isFlat {kind : TokenKind} (h : kind.isFlat) :
    kind ≠ .endOfInput := by
  rintro rfl
  cases h

namespace Token

/-- How many braces are open behind the tokens, when `depth` are open before them. -/
def depthBehind (depth : Nat) (tokens : List Token) : Option Nat :=
  tokens.foldlM depthAfter depth

theorem depthBehind_cons {token : Token} {depth inner : Nat}
    (h : token.depthAfter depth = some inner) (others : List Token) :
    depthBehind depth (token :: others) = depthBehind inner others := by
  simp [depthBehind, h]

theorem depthBehind_append (first second : List Token) (depth : Nat) :
    depthBehind depth (first ++ second) =
      (depthBehind depth first).bind fun inner => depthBehind inner second :=
  List.foldlM_append

theorem depthBehind_of_other {tokens : List Token}
    (h : ∀ token ∈ tokens, token.kind ≠ .openCurly ∧ token.kind ≠ .closeCurly) (depth : Nat) :
    depthBehind depth tokens = some depth := by
  induction tokens with
  | nil => rfl
  | cons token others ih =>
      obtain ⟨htoken, hothers⟩ := List.forall_mem_cons.mp h
      rw [depthBehind_cons (depthAfter_of_other htoken.1 htoken.2), ih hothers]

theorem depthAfter_of_isFlat {token : Token} (h : token.kind.isFlat) (depth : Nat) :
    token.depthAfter depth = some depth := by
  apply depthAfter_of_other <;> intro hkind <;> simp [hkind, TokenKind.isFlat] at h

end Token

/-! ## What has been gathered -/

/-- The tokens other than ends of input. -/
def proper (tokens : List Token) : List Token :=
  tokens.filter (·.kind ≠ .endOfInput)

theorem TokenKind.isPunctuation_of_isSeparator {kind : TokenKind} (h : kind.isSeparator) :
    kind.isPunctuation := by
  cases kind <;> first | rfl | cases h

namespace Trace

/-- Of the tokens of `source` those in front of the cursor have been read.  Of these `kept` are
kept, in order.  If nothing is recorded, the others are punctuation, and `opened` braces more have
been opened than closed. -/
structure Gathers (source kept : List Token) (opened : Nat) (trace : Trace) : Prop where
  closed : trace.cursor.Closed
  sublist : (kept ++ proper trace.cursor.tokens).Sublist (proper source)
  nested : trace.recorded = [] → ∀ depth,
    Token.depthBehind depth source = Token.depthBehind (depth + opened) trace.cursor.tokens
  spelled : trace.recorded = [] →
    significant source = significant kept ++ significant trace.cursor.tokens

variable {source kept : List Token} {recorded more : List Diagnostic} {opened deeper : Nat}
variable {cursor reached : Cursor} {trace : Trace}

theorem gathers_of_closed (h : cursor.Closed) : Gathers cursor.tokens [] 0 ⟨[], cursor⟩ :=
  ⟨h, List.Sublist.refl _, fun _ _ => rfl, fun _ => rfl⟩

/-- The current token is kept, or it is punctuation, and moves the depth from `opened` to
`deeper`. -/
theorem Gathers.move (h : Gathers source kept opened trace)
    (hend : trace.cursor.current.kind ≠ .endOfInput) {added : List Token}
    (hadded : added.Sublist [trace.cursor.current])
    (hspelled : significant [trace.cursor.current] = significant added)
    (hdepth : ∀ depth, trace.cursor.current.depthAfter (depth + opened) = some (depth + deeper)) :
    Gathers source (kept ++ added) deeper trace.advance := by
  have htokens : trace.cursor.tokens = trace.cursor.current :: trace.cursor.advance.tokens :=
    Cursor.passes_advance (h.closed.upcoming_ne_nil hend)
  have hproper : proper trace.cursor.tokens =
      [trace.cursor.current] ++ proper trace.cursor.advance.tokens := by
    simp [htokens, proper, hend]
  refine ⟨h.closed.advance, ?_, fun hnone depth => ?_, fun hnone => ?_⟩
  · have hsublist := h.sublist
    rw [hproper, ← List.append_assoc] at hsublist
    exact (((List.Sublist.refl kept).append hadded).append (List.Sublist.refl _)).trans hsublist
  · rw [h.nested hnone, htokens, Token.depthBehind_cons (hdepth depth)]
    rfl
  · rw [h.spelled hnone, htokens, significant_cons, hspelled, significant_append,
      List.append_assoc]
    rfl

/-- A node keeps the current token. -/
theorem Gathers.keep (h : Gathers source kept opened trace)
    (hflat : trace.cursor.current.kind.isFlat) :
    Gathers source (kept ++ [trace.cursor.current]) opened trace.advance :=
  h.move (TokenKind.ne_endOfInput_of_isFlat hflat) (List.Sublist.refl _) rfl
    fun _ => Token.depthAfter_of_isFlat hflat _

/-- No node keeps punctuation. -/
theorem Gathers.drop (h : Gathers source kept opened trace)
    (hflat : trace.cursor.current.kind.isFlat)
    (hpunctuation : trace.cursor.current.kind.isPunctuation) :
    Gathers source kept opened trace.advance := by
  simpa using h.move (TokenKind.ne_endOfInput_of_isFlat hflat) (List.nil_sublist _)
    (significant_of_isPunctuation hpunctuation []) fun _ => Token.depthAfter_of_isFlat hflat _

/-- A block keeps its opening brace. -/
theorem Gathers.openBrace (h : Gathers source kept opened trace)
    (hopen : trace.cursor.current.kind = .openCurly) :
    Gathers source (kept ++ [trace.cursor.current]) (opened + 1) trace.advance :=
  h.move (by simp [hopen]) (List.Sublist.refl _) rfl fun _ => Token.depthAfter_of_openCurly hopen

/-- No node keeps a closing brace. -/
theorem Gathers.closeBrace (h : Gathers source kept (opened + 1) trace)
    (hclose : trace.cursor.current.kind = .closeCurly) :
    Gathers source kept opened trace.advance := by
  simpa using h.move (by simp [hclose]) (List.nil_sublist _)
    (significant_of_isPunctuation (hclose ▸ rfl) []) fun _ => Token.depthAfter_of_closeCurly hclose

/-- Where something is recorded, tokens may be skipped and the depth does not matter. -/
theorem Gathers.skip (h : Gathers source kept opened trace)
    (hreaches : trace.cursor.Reaches reached) (hmore : more ≠ []) :
    Gathers source kept deeper ⟨more, reached⟩ := by
  obtain ⟨passed, hpassed⟩ := hreaches
  refine ⟨hpassed.reaches.closed h.closed, ?_, fun hnone => absurd hnone hmore,
    fun hnone => absurd hnone hmore⟩
  have hproper : (proper reached.tokens).Sublist (proper trace.cursor.tokens) := by
    rw [hpassed]
    exact (List.sublist_append_right passed reached.tokens).filter _
  exact ((List.Sublist.refl kept).append hproper).trans h.sublist

/-- What has been gathered, depending on what has been done with the current token. -/
def GathersAt (source : List Token) (phase : Phase) (opened : Nat) (kept : List Token)
    (trace : Trace) : Prop :=
  match phase with
  | .here => Gathers source kept opened trace
  | .past | .rest => Gathers source kept opened trace.advance
  | .stops => Gathers source kept opened trace ∧
      (trace.cursor.current.kind = .closeCurly ∨ trace.cursor.current.kind = .endOfInput)
  | .closes => Gathers source kept opened trace ∧
      (trace.cursor.current.kind = .closeCurly ∨ trace.recorded ≠ [])
  | .broken diagnostic =>
    Gathers source kept opened ⟨trace.recorded ++ [diagnostic], trace.cursor⟩
  | .skipped => Gathers source kept opened trace ∧ trace.recorded ≠ []

/-- A closing brace ends a block; if it is missing, this is recorded. -/
theorem GathersAt.leave (h : GathersAt source .closes (opened + 1) kept trace) :
    GathersAt source .past opened kept trace := by
  obtain ⟨hgathers, hclose | hrecorded⟩ := h
  · exact hgathers.closeBrace hclose
  · exact hgathers.skip trace.cursor.reaches_advance hrecorded

end Trace

open Trace in
/-- The tokens that are kept. -/
def watchTokens (source : List Token) : Tracing where
  At phase _ level kept s := s.GathersAt source phase level kept
  Lines _ _ := True
  mono h _ := h
  keep h hplain := Gathers.keep h (TokenKind.isFlat_of_isPlain hplain)
  drop h hkind := Gathers.drop h
    (TokenKind.isFlat_of_isPlain (TokenKind.isPlain_of_isSeparator hkind))
    (TokenKind.isPunctuation_of_isSeparator hkind)
  enter h hopen := ⟨Gathers.openBrace h hopen, trivial⟩
  leave h := h.leave
  rest_past h := h
  rest_newline h hline := Gathers.drop h (hline ▸ rfl) (hline ▸ rfl)
  advance_past h := h
  advance_peek h _ := h
  advance_rest h _ := h
  advance_skipped h _ _ _ := h.1.skip (Cursor.reaches_advance _) h.2
  stops_here h hstop := ⟨h, hstop⟩
  stops_skipped h hstop := ⟨h.1, hstop⟩
  closes_stops h hend := ⟨h.1, .inl (h.2.resolve_right hend)⟩
  lines_advance h := h
  fails _ _ := True
  lines _ _ := trivial
  resume h := h.1.skip (Cursor.reaches_advance _) h.2
  fail _ _ := trivial
  missing _ _ := trivial
  note _ h := Gathers.skip h (.refl _) (by simp)
  unclosed _ h _ := ⟨h.1.skip (.refl _) (by simp), .inr (by simp)⟩
  broken h _ hreaches _ := Gathers.skip h hreaches (by simp)
  recover h hreaches := ⟨Gathers.skip h hreaches (by simp), by simp⟩

/-! ## Programs -/

theorem proper_cons (token : Token) (others : List Token) :
    proper (token :: others) = proper [token] ++ proper others :=
  List.filter_append [token] others

/-- The end of input that closes a list is not proper. -/
theorem Cursor.proper_closed (first : Token) (others : List Token) :
    proper (closed first others) = proper others := by
  induction others generalizing first with
  | nil =>
      unfold closed
      split <;> simp [proper, Token.endAt]
  | cons next rest ih => rw [closed, proper_cons, proper_cons next rest, ih]

theorem Cursor.proper_ofTokens (list : List Token) :
    proper (ofTokens list).tokens = proper list := by
  cases list with
  | nil => rfl
  | cons first others => rw [ofTokens, tokens, proper_cons, proper_cons first others, proper_closed]

/-- What reading a whole list leaves behind. -/
theorem exists_gathers_parse (list : List Token) :
    ∃ last, (parse list).program.Faithful ∧
      Trace.Gathers (Cursor.ofTokens list).tokens (parse list).program.tokens 0
        ⟨(parse list).diagnostics, last⟩ ∧
      (Cursor.ofTokens list).Reaches last ∧ last.current.kind = .endOfInput := by
  obtain ⟨last, hreaches, hlast, hfaithful, hstops, -⟩ :=
    exists_parse (watchTokens (Cursor.ofTokens list).tokens) false True
      (Trace.gathers_of_closed (Cursor.closed_ofTokens list))
  exact ⟨last, hfaithful trivial, hstops.1, hreaches, hlast⟩

/-- Without diagnostics every brace of a program is closed. -/
theorem depthBehind_of_quiet {list : List Token}
    (hend : ∀ token ∈ list.dropLast, token.kind ≠ .endOfInput)
    (hquiet : (parse list).diagnostics = []) :
    Token.depthBehind 0 (Cursor.ofTokens list).tokens = some 0 := by
  obtain ⟨last, -, hgathers, hreaches, hlast⟩ := exists_gathers_parse list
  rw [hgathers.nested hquiet 0, Cursor.tokens, hreaches.upcoming_eq_nil hend hlast,
    Token.depthBehind_of_other (by simp [hlast])]

/-- Whatever is wrong with a program, the tokens of its tree are tokens of its source, each with
one node and in the order of the source, and every node says what its tokens say. -/
theorem parse_faithful (list : List Token) :
    (parse list).program.tokens.Sublist list ∧ (parse list).program.Faithful := by
  obtain ⟨last, hfaithful, hgathers, -, -⟩ := exists_gathers_parse list
  refine ⟨?_, hfaithful⟩
  have hkept := (List.sublist_append_left _ (proper last.tokens)).trans hgathers.sublist
  rw [Cursor.proper_ofTokens] at hkept
  exact hkept.trans List.filter_sublist

end LineScript
