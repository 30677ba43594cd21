import LineScript.Compilation
import LineScript.Proofs.Diagnostics.Verification
import LineScript.Proofs.Lexing.Positions
import Mathlib.Data.List.DropRight

/-!
# Diagnostics point into their source

A diagnostic stands at a token, and a token stands in the text: on one of its lines, and on
that line at a character or just behind the last one.  So the report of a diagnostic always
has a line to show.  The lexer counts lines as it reads, and reports cut the text at line
ends; that both mean the same lines is what has to be shown.
-/

namespace LineScript

/-! ## The lines of a text -/

namespace Report

variable (separator : Char) (text : List Char)

theorem head?_splitOn :
    (text.splitOn separator).head? = some (text.takeWhile (· ≠ separator)) := by
  induction text with
  | nil => rfl
  | cons c others ih =>
      obtain ⟨others', hpieces⟩ := List.head?_eq_some_iff.mp ih
      by_cases hc : c = separator
      · simp [List.splitOn_cons_eq_if_modifyHead, hc]
      · simp [List.splitOn_cons_eq_if_modifyHead, hc, hpieces]

theorem length_splitOn : (text.splitOn separator).length = 1 + text.count separator := by
  induction text with
  | nil => rfl
  | cons c others ih =>
      by_cases hc : c = separator
      · simp [List.splitOn_cons_eq_if_modifyHead, hc, ih, Nat.add_comm]
      · simp [List.splitOn_cons_eq_if_modifyHead, hc, ih]

end Report

open Report

/-- A text is its last line, or it has a line end in front of it. -/
theorem eq_lastLine_or_exists (chars : List Char) :
    lastLine chars = chars ∨ ∃ earlier, chars = earlier ++ '\n' :: lastLine chars := by
  have hsplit := List.takeWhile_append_dropWhile (p := (· ≠ '\n')) (l := chars.reverse)
  cases hdrop : chars.reverse.dropWhile (· ≠ '\n') with
  | nil =>
      rw [hdrop, List.append_nil] at hsplit
      exact .inl (by rw [lastLine, hsplit, List.reverse_reverse])
  | cons c others =>
      have hc : c = '\n' := by
        have h := List.head?_dropWhile_not (· ≠ '\n') chars.reverse
        rw [hdrop] at h
        simpa using h
      refine .inr ⟨others.reverse, ?_⟩
      have hchars := congrArg List.reverse hsplit
      rw [hdrop, hc, List.reverse_reverse] at hchars
      simpa [lastLine] using hchars.symm

theorem notMem_lastLine (chars : List Char) : '\n' ∉ lastLine chars := by
  intro hmem
  have hall := List.all_takeWhile (p := (· ≠ '\n')) (l := chars.reverse)
  simpa using List.all_eq_true.mp hall '\n' (List.mem_reverse.mp hmem)

/-- The line on which a character stands goes from the line end before it to the next one. -/
theorem getElem?_splitOn (before rest : List Char) :
    ((before ++ rest).splitOn '\n')[before.count '\n']? =
      some (lastLine before ++ rest.takeWhile (· ≠ '\n')) := by
  have hlast := notMem_lastLine before
  have hfirst : ((lastLine before ++ rest).splitOn '\n')[0]? =
      some (lastLine before ++ rest.takeWhile (· ≠ '\n')) := by
    rw [← List.head?_eq_getElem?, head?_splitOn, List.takeWhile_append_of_pos]
    intro c hc
    simpa using fun heq : c = '\n' => hlast (heq ▸ hc)
  rcases eq_lastLine_or_exists before with hbefore | ⟨earlier, hbefore⟩
  · have hcount : before.count '\n' = 0 := by
      rw [← hbefore]
      exact List.count_eq_zero.mpr hlast
    rw [hbefore] at hfirst
    rw [hcount, hfirst, hbefore]
  · have hcount : before.count '\n' = (earlier.splitOn '\n').length := by
      rw [length_splitOn, hbefore, List.count_append, List.count_cons_self,
        List.count_eq_zero.mpr hlast, Nat.zero_add, Nat.add_comm]
    have hpieces : (before ++ rest).splitOn '\n' =
        earlier.splitOn '\n' ++ (lastLine before ++ rest).splitOn '\n' := by
      rw [← List.splitOn_append_cons_self, ← List.cons_append, ← List.append_assoc, ← hbefore]
    rw [hpieces, hcount, List.getElem?_append_right (Nat.le_refl _), Nat.sub_self, hfirst]

/-! ## Positions in a text -/

/-- The position is on the line `piece` of the text, at most one column behind its last
character; a report of it shows this line. -/
structure Position.PointsInto (position : Position) (source : String) (piece : List Char) :
    Prop where
  getElem?_eq : (source.toList.splitOn '\n')[position.line.toNat - 1]? = some piece
  lineOf?_eq : lineOf? source position.line =
    some (String.ofList (piece.rdropWhile (· = '\r')))
  column_le : position.column.toNat ≤ piece.length + 1

theorem Position.pointsInto_of_line_eq {position : Position} {source : String}
    {before rest : List Char} (hsource : source.toList = before ++ rest)
    (hline : position.line.toNat = 1 + before.count '\n')
    (hcolumn : position.column.toNat ≤
      (lastLine before ++ rest.takeWhile (· ≠ '\n')).length + 1) :
    position.PointsInto source (lastLine before ++ rest.takeWhile (· ≠ '\n')) := by
  have hpiece := getElem?_splitOn before rest
  rw [← hsource] at hpiece
  refine ⟨?_, ?_, hcolumn⟩
  · rwa [hline, Nat.add_sub_cancel_left]
  · rw [lineOf?, hline, Nat.add_comm, line?, hpiece]
    rfl

/-- Every token of a text but the last begins at the first character of its spelling. -/
theorem Segmentation.exists_startsBehind {chars before : List Char} {segments : List Segment}
    {position : Position} (h : Segmentation chars segments) (hposition : position.Counts before)
    (hlength : (before ++ chars).length < UInt32.size - 1) :
    ∀ token ∈ Segment.tokens position segments, ∃ passed spelling rest,
      chars = passed ++ (spelling ++ rest) ∧ Lexeme spelling rest token.kind token.text ∧
        token.StartsBehind (before ++ passed) := by
  induction h generalizing before position with
  | nil => simp [Segment.tokens]
  | @cons blanks spelling rest kind text segments hblanks hlexeme hrest ih =>
      have hbound : (before ++ blanks).length < UInt32.size - 1 := by
        simp only [List.length_append] at hlength ⊢
        omega
      intro token htoken
      rcases List.mem_cons.mp htoken with rfl | htoken
      · exact ⟨blanks, spelling, rest, rfl, hlexeme,
          (hposition.afterAll hbound).startsBehind hbound⟩
      · have hbehind : (before ++ (blanks ++ spelling)).length < UInt32.size - 1 := by
          simp only [List.length_append] at hlength ⊢
          omega
        obtain ⟨passed, other, behind, rfl, hother, hstarts⟩ :=
          ih (hposition.afterAll hbehind) (by simpa using hlength) token htoken
        exact ⟨blanks ++ spelling ++ passed, other, behind, by simp, hother, by simpa using hstarts⟩

/-- A token that begins at a character is on the line of this character. -/
theorem Token.StartsBehind.pointsInto {token : Token} {source : String} {c : Char}
    {before rest : List Char} (h : token.StartsBehind before)
    (hsource : source.toList = before ++ c :: rest) :
    token.position.PointsInto source (lastLine before ++ (c :: rest).takeWhile (· ≠ '\n')) := by
  refine Position.pointsInto_of_line_eq hsource h.line_eq ?_
  rw [h.column_eq, List.length_append]
  omega

/-- The end of a text is at the end of its last line. -/
theorem Position.Counts.pointsInto {position : Position} {source : String}
    (h : position.Counts source.toList) : position.PointsInto source (lastLine source.toList) := by
  have hsource : source.toList = source.toList ++ [] := (List.append_nil _).symm
  have hpoints := Position.pointsInto_of_line_eq hsource h.line_eq (by
    rw [h.column_eq, List.length_append]
    omega)
  simpa using hpoints

theorem Token.StartsBehind.column_ne_zero {token : Token} {before : List Char}
    (h : token.StartsBehind before) : token.position.column ≠ 0 := by
  intro hzero
  have hcolumn := h.column_eq
  rw [hzero, Nat.add_comm] at hcolumn
  exact absurd hcolumn.symm (Nat.succ_ne_zero _)

/-- At the beginning of a line the last line of a text is empty. -/
theorem Position.Counts.eq_nil {position : Position} {before : List Char}
    (h : position.Counts before) (hzero : position.column = 0) : lastLine before = [] := by
  rw [← List.length_eq_zero_iff, ← h.column_eq, hzero]
  rfl

/-! ## The tokens of a text come in its order -/

namespace Position

variable {position : Position} {before : List Char}

theorem le_trans {first second third : Position} (h : first ≤ second) (hthird : second ≤ third) :
    first ≤ third := by
  rcases h with hline | ⟨hline, hcolumn⟩
  · rcases hthird with hbehind | ⟨hsame, -⟩
    · exact .inl (UInt32.lt_trans hline hbehind)
    · exact .inl (hsame ▸ hline)
  · rcases hthird with hbehind | ⟨hsame, hright⟩
    · exact .inl (hline ▸ hbehind)
    · exact .inr ⟨hline.trans hsame, UInt32.le_trans hcolumn hright⟩

theorem Counts.le_right (h : position.Counts before) (hlength : before.length < UInt32.size - 1) :
    position ≤ position.right := by
  have hlast := length_lastLine_le before
  have hcolumn := h.column_eq
  simp only [UInt32.size] at hlength
  refine .inr ⟨rfl, ?_⟩
  simp only [right, UInt32.le_iff_toNat_le, UInt32.toNat_add, UInt32.reduceToNat]
  omega

theorem Counts.right_le_after (h : position.Counts before)
    (hlength : before.length < UInt32.size - 2) (c : Char) :
    position.right ≤ position.after c := by
  have hcount : before.count '\n' ≤ before.length := List.count_le_length
  have hline := h.line_eq
  simp only [UInt32.size] at hlength
  unfold Position.after
  split
  · refine .inl ?_
    simp only [right, nextLine, UInt32.lt_iff_toNat_lt, UInt32.toNat_add, UInt32.reduceToNat]
    omega
  · exact le_refl _

theorem Counts.le_afterAll {cs : List Char} (h : position.Counts before)
    (hlength : (before ++ cs).length < UInt32.size - 1) : position ≤ position.afterAll cs := by
  induction cs generalizing position before with
  | nil => exact le_refl _
  | cons c cs ih =>
      rw [List.append_cons] at hlength
      have hbefore : before.length < UInt32.size - 2 := by
        simp only [List.length_append, List.length_singleton] at hlength
        omega
      have hstep := le_trans (h.le_right (by omega)) (h.right_le_after hbefore c)
      exact le_trans hstep (ih (h.after hbefore c) hlength)

end Position

/-- None of the tokens that a text makes stands in front of the place where the text begins, and
none stands in front of one before it. -/
theorem Segmentation.ascending_tokens {chars before : List Char} {segments : List Segment}
    {position : Position} (h : Segmentation chars segments) (hposition : position.Counts before)
    (hlength : (before ++ chars).length < UInt32.size - 1) :
    (∀ token ∈ Segment.tokens position segments ++ [.endAt (position.afterAll chars)],
        position ≤ token.position) ∧
      Token.Ascending (Segment.tokens position segments ++ [.endAt (position.afterAll chars)]) := by
  induction h generalizing before position with
  | nil =>
      refine ⟨fun token htoken => ?_, List.pairwise_singleton _ _⟩
      rw [List.mem_singleton.mp htoken]
      exact hposition.le_afterAll hlength
  | @cons blanks spelling rest kind text segments _ hlexeme _ ih =>
      obtain ⟨first, taken, rfl, -⟩ := hlexeme.exists_cons
      have hspelled : (before ++ blanks ++ [first] ++ taken).length < UInt32.size - 1 := by
        simp only [List.length_append, List.length_cons, List.length_nil] at hlength ⊢
        omega
      have hblanks : (before ++ blanks).length < UInt32.size - 2 := by
        simp only [List.length_append, List.length_singleton] at hspelled ⊢
        omega
      have hstart := hposition.afterAll (Nat.lt_succ_of_lt hblanks)
      have hfirst := hstart.after hblanks first
      have hle_token := Position.le_trans (hposition.le_afterAll (Nat.lt_succ_of_lt hblanks))
        (hstart.le_right (Nat.lt_succ_of_lt hblanks))
      have hle_behind := Position.le_trans (hstart.right_le_after hblanks first)
        (hfirst.le_afterAll hspelled)
      have hbehind := hfirst.afterAll hspelled
      rw [← Position.afterAll_cons, ← Position.afterAll_append] at hle_behind hbehind
      obtain ⟨hle, hascending⟩ := ih hbehind (by simpa using hlength)
      rw [← Position.afterAll_append, List.append_assoc] at hle hascending
      refine ⟨List.forall_mem_cons.mpr ⟨hle_token, fun token htoken => ?_⟩,
        List.pairwise_cons.mpr ⟨fun token htoken => ?_, hascending⟩⟩
      · exact Position.le_trans hle_token (Position.le_trans hle_behind (hle token htoken))
      · exact Position.le_trans hle_behind (hle token htoken)

/-- The tokens of a text that is short enough for the counters stand in the text, in its order. -/
theorem exists_tokenize_pointsInto {source : String} (hlength : source.length < UInt32.size - 1) :
    ∃ tokens last,
      tokenize source = .ok (tokens ++ [last]) ∧ Token.Ascending (tokens ++ [last]) ∧
      (∀ token ∈ tokens, token.kind ≠ .endOfInput ∧ token.position.column ≠ 0 ∧
        ∃ piece, token.position.PointsInto source piece) ∧
      last.kind = .endOfInput ∧ last.position.Counts source.toList := by
  obtain ⟨segments, h⟩ := Segmentation.exists_segmentation source.toList
  rw [← String.length_toList] at hlength
  refine ⟨_, _, h.tokens_eq .start, (h.ascending_tokens Position.counts_start hlength).2,
    fun token htoken => ?_, rfl, Position.counts_start.afterAll hlength⟩
  obtain ⟨passed, spelling, rest, hsource, hlexeme, hstarts⟩ :=
    h.exists_startsBehind Position.counts_start hlength token htoken
  obtain ⟨first, taken, rfl, -⟩ := hlexeme.exists_cons
  exact ⟨hlexeme.kind_ne_endOfInput, hstarts.column_ne_zero, _, hstarts.pointsInto hsource⟩

/-! ## Diagnostics stand at tokens -/

/-- The diagnostics of a compilation stand at tokens of its list. -/
theorem exists_position_of_mem_diagnostics {list : List Token} (hne : list ≠ [])
    (hend : ∀ token ∈ list.dropLast, token.kind ≠ .endOfInput) {checks : Checks}
    {diagnostic : Diagnostic}
    (h : diagnostic ∈ (Compilation.ofTokens checks list).diagnostics) :
    ∃ token ∈ list, diagnostic.position = token.position := by
  obtain ⟨first, others, rfl⟩ := List.exists_cons_of_ne_nil hne
  rcases List.mem_append.mp h with hsyntax | hverification
  · obtain ⟨token, htoken, hposition⟩ := (inOrder_parse hend).exists_mem diagnostic hsyntax
    rcases List.mem_cons.mp htoken with rfl | hclosed
    · exact ⟨_, List.mem_cons_self, hposition⟩
    · obtain ⟨other, hother, heq⟩ := Cursor.exists_position_of_mem_closed hclosed
      exact ⟨other, hother, hposition.trans heq⟩
  · obtain ⟨token, htoken, hposition⟩ :=
      (inOrder_verify checks (parse (first :: others)).program).exists_mem diagnostic hverification
    have hsublist := (sublist_proper_parse (first :: others)).trans List.filter_sublist
    exact ⟨token, hsublist.subset htoken, hposition⟩

/-- A text that is short enough for the counters compiles, and every diagnostic stands at one of
its tokens, on a line of the text that can be shown.  It stands in front of the first column of
this line only where the text ends with an empty line. -/
theorem exists_compilation_pointsInto {source : String}
    (hlength : source.length < UInt32.size - 1) (checks : Checks) :
    ∃ tokens last compilation,
      tokenize source = .ok (tokens ++ [last]) ∧ compile checks source = .ok compilation ∧
      (∀ token ∈ tokens, token.kind ≠ .endOfInput ∧ token.position.column ≠ 0) ∧
      last.kind = .endOfInput ∧
      ∀ diagnostic ∈ compilation.diagnostics,
        (∃ token ∈ tokens ++ [last], diagnostic.position = token.position) ∧
        ∃ piece, diagnostic.position.PointsInto source piece ∧
          (diagnostic.position.column = 0 →
            diagnostic.position = last.position ∧ piece = [] ∧
              diagnostic.position.line.toNat = (source.toList.splitOn '\n').length) := by
  obtain ⟨tokens, last, htokens, -, hplaced, hkind, hcounts⟩ := exists_tokenize_pointsInto hlength
  have hcompile : compile checks source = .ok (.ofTokens checks (tokens ++ [last])) := by
    rw [compile, htokens]
    rfl
  refine ⟨tokens, last, _, htokens, hcompile,
    fun token htoken => ⟨(hplaced token htoken).1, (hplaced token htoken).2.1⟩, hkind, ?_⟩
  intro diagnostic hdiagnostic
  obtain ⟨token, htoken, hposition⟩ :=
    exists_position_of_mem_diagnostics (by simp) (by simpa using fun t ht => (hplaced t ht).1)
      hdiagnostic
  refine ⟨⟨token, htoken, hposition⟩, ?_⟩
  rw [hposition]
  rcases List.mem_append.mp htoken with hproper | hlast
  · obtain ⟨-, hcolumn, piece, hpiece⟩ := hplaced token hproper
    exact ⟨piece, hpiece, fun hzero => absurd hzero hcolumn⟩
  · obtain rfl := List.mem_singleton.mp hlast
    refine ⟨_, hcounts.pointsInto, fun hzero => ⟨rfl, hcounts.eq_nil hzero, ?_⟩⟩
    rw [length_splitOn]
    exact hcounts.line_eq

/-- A value that is not of the declared type, and behind it a brace that nothing closes before
the text ends with an empty line. -/
theorem exists_compilation_pointsInto_mismatchAndBrace :
    "var int x = true\n\x7b\n".length < UInt32.size - 1 ∧
      ∃ compilation, compile .basic "var int x = true\n\x7b\n" = .ok compilation ∧
        compilation.diagnostics.map Diagnostic.position = [⟨3, 0⟩, ⟨1, 13⟩] ∧
        ∀ diagnostic ∈ compilation.diagnostics, ∃ piece,
          diagnostic.position.PointsInto "var int x = true\n\x7b\n" piece := by
  have hlength : "var int x = true\n\x7b\n".length < UInt32.size - 1 := by decide
  have hpositions : (compile .basic "var int x = true\n\x7b\n").map
      (·.diagnostics.map Diagnostic.position) = .ok [⟨3, 0⟩, ⟨1, 13⟩] := by
    decide +kernel
  obtain ⟨tokens, last, compilation, -, hcompile, -, -, hdiagnostics⟩ :=
    exists_compilation_pointsInto hlength .basic
  rw [hcompile] at hpositions
  refine ⟨hlength, compilation, hcompile, Except.ok.inj hpositions, ?_⟩
  intro diagnostic hdiagnostic
  obtain ⟨-, piece, hpiece, -⟩ := hdiagnostics diagnostic hdiagnostic
  exact ⟨piece, hpiece⟩

/-- The diagnostics of a text come in its order: those of its syntax, and then those of its
verification. -/
theorem exists_compilation_ascending {source : String}
    (hlength : source.length < UInt32.size - 1) (checks : Checks) :
    ∃ compilation, compile checks source = .ok compilation ∧
      Diagnostic.Ascending compilation.syntaxDiagnostics ∧
      Diagnostic.Ascending compilation.verificationDiagnostics := by
  obtain ⟨tokens, last, htokens, hlist, hplaced, -, -⟩ := exists_tokenize_pointsInto hlength
  refine ⟨.ofTokens checks (tokens ++ [last]), by rw [compile, htokens]; rfl, ?_, ?_⟩
  · exact ascending_parse (by simpa using fun t ht => (hplaced t ht).1) hlist
  · exact ascending_verify hlist checks

end LineScript
