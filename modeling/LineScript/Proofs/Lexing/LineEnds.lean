import LineScript.Proofs.Lexing.Relocation

/-!
# Lexing line by line

A line end ends every lexeme but two: a comment, which takes it, and a string, which goes on behind
it.  Where neither is open, the text in front of a line end and the text behind it are cut into
lexemes as if each stood alone, and the line end is a lexeme between them.  The second text begins
a line, so its tokens keep their columns and only move down.
-/

namespace LineScript

/-- The spelling of a comment without its line end, or of a string without its closing quote. -/
inductive IsUnclosed : List Char → Prop where
  | comment {body : List Char} (h : '\n' ∉ body) : IsUnclosed ('/' :: '/' :: body)
  | string {body : List Char} (h : '"' ∉ body) : IsUnclosed ('"' :: body)

/-- No comment and no string is still open at the end of the characters. -/
def EndsClosed (chars : List Char) : Prop :=
  ∃ segments, Segmentation chars segments ∧ ∀ segment ∈ segments, ¬ IsUnclosed segment.spelling

/-- The token `moved` is the token `token`, so many lines further down. -/
structure Token.MovesDown (lines : Nat) (token moved : Token) : Prop where
  kind_eq : moved.kind = token.kind
  text_eq : moved.text = token.text
  line_eq : moved.position.line.toNat = token.position.line.toNat + lines
  column_eq : moved.position.column.toNat = token.position.column.toNat

/-! ## A line end behind a lexeme -/

theorem EndsBefore.append_lineEnd {accept : Char → Bool} {rest : List Char}
    (h : EndsBefore accept rest) (hline : accept '\n' = false) (behind : List Char) :
    EndsBefore accept (rest ++ '\n' :: behind) := by
  cases rest with
  | nil =>
      intro c hc
      obtain rfl : '\n' = c := Option.some.inj hc
      exact hline
  | cons first others => exact h

theorem head?_append_lineEnd_ne {c : Char} {rest : List Char} (h : rest.head? ≠ some c)
    (hc : c ≠ '\n') (behind : List Char) : (rest ++ '\n' :: behind).head? ≠ some c := by
  cases rest with
  | nil => simpa using hc.symm
  | cons first others => exact h

/-- A lexeme ends at the same place if a line end and more text come behind the text, unless it is
a comment or a string that is still open there. -/
theorem Lexeme.append_lineEnd {spelling rest : List Char} {kind : TokenKind} {text : String}
    (h : Lexeme spelling rest kind text) (hclosed : ¬ IsUnclosed spelling)
    (behind : List Char) : Lexeme spelling (rest ++ '\n' :: behind) kind text := by
  cases h with
  | sign hsign => exact .sign hsign
  | lineEnd => exact .lineEnd
  | comment hbody => exact .comment hbody
  | lastComment hbody => exact absurd (.comment hbody) hclosed
  | equals => exact .equals
  | notEquals => exact .notEquals
  | slash hrest => exact .slash (head?_append_lineEnd_ne hrest (by decide) behind)
  | assignment hrest => exact .assignment (head?_append_lineEnd_ne hrest (by decide) behind)
  | exclamation hrest => exact .exclamation (head?_append_lineEnd_ne hrest (by decide) behind)
  | directive hbody hrest => exact .directive hbody (hrest.append_lineEnd rfl behind)
  | string hbody => exact .string hbody
  | openString hbody => exact absurd (.string hbody) hclosed
  | integer hne hdigits hrest => exact .integer hne hdigits (hrest.append_lineEnd rfl behind)
  | word hne hletters hrest =>
      exact .word hne hletters (hrest.append_lineEnd isAlphabetic_lineEnd behind)
  | stray hstray => exact .stray hstray

/-- The lexemes of a text, a line end, and the lexemes of another text. -/
theorem Segmentation.append_lineEnd {chars behind : List Char} {segments others : List Segment}
    (h : Segmentation chars segments)
    (hclosed : ∀ segment ∈ segments, ¬ IsUnclosed segment.spelling)
    (hbehind : Segmentation behind others) :
    ∃ blanks, chars = Segment.source segments ++ blanks ∧
      Segmentation (chars ++ '\n' :: behind)
        (segments ++ ⟨blanks, ['\n'], .newline, "\n"⟩ :: others) := by
  induction h with
  | @nil blanks hblanks =>
      exact ⟨blanks, rfl, .cons hblanks .lineEnd hbehind⟩
  | @cons blanks spelling rest kind text segments hblanks hlexeme _ ih =>
      obtain ⟨hfirst, hothers⟩ := List.forall_mem_cons.mp hclosed
      obtain ⟨lastBlanks, hsource, hsegmentation⟩ := ih hothers
      refine ⟨lastBlanks, by simp [Segment.source, hsource], ?_⟩
      have hcons := Segmentation.cons hblanks (hlexeme.append_lineEnd hfirst behind) hsegmentation
      simpa using hcons

/-! ## The tokens of two texts -/

/-- The tokens of a text that begins further on. -/
theorem Segmentation.forall₂_tokens {base fresh moved : Position} {chars : List Char}
    {segments : List Segment} (h : Segmentation chars segments)
    (hmoved : base.CountsOn fresh moved) (hfits : moved.Fits chars.length) :
    List.Forall₂ (Token.CountsOn base)
      (Segment.tokens fresh segments ++ [.endAt (fresh.afterAll chars)])
      (Segment.tokens moved segments ++ [.endAt (moved.afterAll chars)]) := by
  induction h generalizing fresh moved with
  | nil _ => exact .cons ⟨rfl, rfl, hmoved.afterAll hfits⟩ .nil
  | @cons blanks spelling rest kind text segments _ hlexeme _ ih =>
      obtain ⟨first, taken, hspelling, -⟩ := hlexeme.exists_cons
      have hpos : 0 < spelling.length := by simp [hspelling]
      rw [List.length_append, List.length_append] at hfits
      have hbefore := hmoved.afterAll (hfits.mono (Nat.le_add_right _ _))
      have hone : (moved.afterAll blanks).Fits 1 := hfits.afterAll.mono (by omega)
      rw [← Nat.add_assoc, ← List.length_append] at hfits
      have hbehind := hmoved.afterAll (hfits.mono (Nat.le_add_right _ _))
      have hothers := ih hbehind hfits.afterAll
      rw [← Position.afterAll_append, ← Position.afterAll_append, List.append_assoc] at hothers
      exact .cons ⟨rfl, rfl, hbefore.right hone⟩ hothers

/-- Behind the first column of a line, counting on means moving down. -/
theorem Token.CountsOn.movesDown {base : Position} {fresh moved : Token} {lines : Nat}
    (h : fresh.CountsOn base moved) (hline : base.line.toNat = 1 + lines)
    (hcolumn : base.column.toNat = 0) : fresh.MovesDown lines moved := by
  obtain ⟨hkind, htext, -, -, hlines, hcolumns⟩ := h
  refine ⟨hkind, htext, by omega, ?_⟩
  rw [hcolumns, hcolumn, ite_self]
  rfl

theorem Segment.tokens_append_lineEnd {chars blanks : List Char} {segments : List Segment}
    (hsource : chars = source segments ++ blanks) (position : Position) (others : List Segment) :
    tokens position (segments ++ ⟨blanks, ['\n'], .newline, "\n"⟩ :: others) =
      tokens position segments ++
        ⟨.newline, "\n", (position.afterAll chars).right⟩ ::
          tokens (position.afterAll (chars ++ ['\n'])) others := by
  rw [tokens_append, tokens, hsource, List.append_assoc]
  simp only [Position.afterAll_append]

/-- A text that comes behind a line end begins a line. -/
theorem Position.line_column_behind_lineEnd {chars : List Char}
    (hlength : chars.length + 1 < UInt32.size - 1) :
    (start.afterAll (chars ++ ['\n'])).line.toNat = 1 + (1 + chars.count '\n') ∧
      (start.afterAll (chars ++ ['\n'])).column.toNat = 0 := by
  have hcounts : (start.afterAll (chars ++ ['\n'])).Counts (chars ++ ['\n']) :=
    counts_start.afterAll (by simpa using hlength)
  constructor
  · rw [hcounts.line_eq, List.count_append, List.count_singleton_self,
      Nat.add_comm 1 (chars.count '\n')]
  · rw [hcounts.column_eq, lastLine_append_lineEnd]
    rfl

/-- Where no comment and no string is open in front of a line end, the tokens are those of the text
in front of it, without the end of the input, then the line end, and then those of the text behind
it, further down by the line end and those in front of it.  The lexer that reads and gives back
carries nothing across the line end either. -/
theorem tokenize_append_lineEnd {upper lower : String} (hclosed : EndsClosed upper.toList)
    (hlength : (upper ++ "\n" ++ lower).length < UInt32.size - 1) :
    ∃ tokens last lineEnd others moved,
      tokenize upper = .ok (tokens ++ [last]) ∧
      (∀ token ∈ tokens, token.kind ≠ .endOfInput) ∧ last.kind = .endOfInput ∧
      lineEnd.kind = .newline ∧ lineEnd.text = "\n" ∧ lineEnd.StartsBehind upper.toList ∧
      tokenize lower = .ok others ∧
      List.Forall₂ (Token.MovesDown (1 + upper.toList.count '\n')) others moved ∧
      tokenize (upper ++ "\n" ++ lower) = .ok (tokens ++ lineEnd :: moved) ∧
      ∃ reached, PushBackLexer.tokens (.ofReadings (Reading.ofString (upper ++ "\n" ++ lower))) =
        some (.ok (tokens ++ lineEnd :: moved), reached) := by
  obtain ⟨segments, hupper, hsegments⟩ := hclosed
  obtain ⟨others, hlower⟩ := Segmentation.exists_segmentation lower.toList
  obtain ⟨blanks, hsource, hboth⟩ := hupper.append_lineEnd hsegments hlower
  have hchars : (upper ++ "\n" ++ lower).toList = upper.toList ++ '\n' :: lower.toList := by
    simp
  have hroom : upper.toList.length + 1 + lower.toList.length < UInt32.size - 1 := by
    rw [← String.length_toList, hchars, List.length_append, List.length_cons] at hlength
    omega
  have hbound : upper.toList.length < UInt32.size - 1 := by omega
  have hcounts : (Position.start.afterAll upper.toList).Counts upper.toList :=
    Position.counts_start.afterAll hbound
  obtain ⟨hline, hcolumn⟩ := Position.line_column_behind_lineEnd
    (show upper.toList.length + 1 < UInt32.size - 1 by omega)
  have hfits : (Position.start.afterAll (upper.toList ++ ['\n'])).Fits lower.toList.length :=
    (Position.Fits.start (by simpa using hroom)).afterAll
  have hmoved := hlower.forall₂_tokens (Position.countsOn_start (by omega)) hfits
  have htokens := hboth.tokens_eq .start
  have hend : Position.start.afterAll (upper.toList ++ '\n' :: lower.toList) =
      (Position.start.afterAll (upper.toList ++ ['\n'])).afterAll lower.toList := by
    rw [List.append_cons, Position.afterAll_append]
  rw [Segment.tokens_append_lineEnd hsource, List.append_assoc, List.cons_append, hend,
    ← hchars] at htokens
  have hahead : Reading.ahead (Reading.ofString (upper ++ "\n" ++ lower)) < UInt32.size - 1 := by
    rwa [Reading.ofString, Reading.ahead_map_char, String.length_toList]
  obtain ⟨reached, hpushBack⟩ := PushBackLexer.exists_tokens_ofReadings hahead
  exact ⟨Segment.tokens .start segments, .endAt (Position.start.afterAll upper.toList),
    ⟨.newline, "\n", (Position.start.afterAll upper.toList).right⟩, _, _, hupper.tokens_eq .start,
    hupper.kind_ne_endOfInput_of_mem_tokens .start, rfl, rfl, rfl,
    hcounts.startsBehind hbound, hlower.tokens_eq .start,
    hmoved.imp fun _ _ h => h.movesDown hline hcolumn, htokens, reached, htokens ▸ hpushBack⟩

/-- Two signs that would be a comment on one line. -/
theorem tokenize_append_lineEnd_slashes :
    EndsClosed "/".toList ∧ ("/" ++ "\n" ++ "/").length < UInt32.size - 1 ∧
      ∃ tokens last lineEnd others moved,
        tokenize "/" = .ok (tokens ++ [last]) ∧
        lineEnd.kind = .newline ∧ lineEnd.StartsBehind ['/'] ∧
        tokenize "/" = .ok others ∧ List.Forall₂ (Token.MovesDown 1) others moved ∧
        tokenize "/\n/" = .ok (tokens ++ lineEnd :: moved) := by
  have hslash : Segmentation ['/'] [⟨[], ['/'], .slash, "/"⟩] :=
    .cons (List.forall_mem_nil _) (.slash (by simp)) (.nil (List.forall_mem_nil _))
  have hopen : ¬ IsUnclosed ['/'] := by rintro ⟨⟩
  have hclosed : EndsClosed "/".toList := ⟨_, hslash, List.forall_mem_singleton.mpr hopen⟩
  have hlength : ("/" ++ "\n" ++ "/").length < UInt32.size - 1 := by decide
  obtain ⟨tokens, last, lineEnd, others, moved, hupper, -, -, hkind, -, hstarts, hlower, hmoved,
    hboth, -⟩ := tokenize_append_lineEnd hclosed hlength
  exact ⟨hclosed, hlength, tokens, last, lineEnd, others, moved, hupper, hkind, hstarts, hlower,
    hmoved, hboth⟩

end LineScript
