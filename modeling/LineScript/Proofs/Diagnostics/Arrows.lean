import LineScript.Proofs.Diagnostics.Lines

/-!
# The arrow of a report stands under what it points at

A report does not show a line as it is.  The indentation in front of it and the blanks behind it
are cut off, and a number of some digits comes before it.  The arrow below is measured by the
column alone, from which the indentation is taken off again.  A token begins with no blank, so its
first character is on the line that is shown, and the head of the arrow stands under it.
-/

namespace LineScript

open Report

namespace Report

variable {p : Char → Bool} {c : Char}

theorem ne_of_isBlank {blank : Char} (hc : isBlank c = false) (hblank : isBlank blank = true) :
    c ≠ blank := by
  rintro rfl
  rw [hc] at hblank
  cases hblank

theorem isIndent_of_isBlank_eq_false (hc : isBlank c = false) : isIndent c = false := by
  have hspace := ne_of_isBlank hc (show isBlank ' ' = true by decide)
  have htab := ne_of_isBlank hc (show isBlank '\t' = true by decide)
  simp [isIndent, hspace, htab]

/-! ## Cutting off and filling up -/

/-- Nothing in front of a character that stays is cut off at the end. -/
theorem rdropWhile_append_cons (hc : p c = false) (left right : List Char) :
    (left ++ c :: right).rdropWhile p = left ++ c :: right.rdropWhile p := by
  have hkept : (c :: left.reverse).dropWhile p = c :: left.reverse := by
    rw [List.dropWhile_cons_of_neg (by simp [hc])]
  simp only [List.rdropWhile, List.reverse_append, List.reverse_cons, List.append_assoc,
    List.singleton_append, List.dropWhile_append, hkept]
  split
  · rename_i hempty
    simp [List.isEmpty_iff.mp hempty]
  · simp

/-- Nothing behind a character that stays is cut off at the beginning. -/
theorem dropWhile_append_cons (hc : p c = false) (left right : List Char) :
    (left ++ c :: right).dropWhile p = left.dropWhile p ++ c :: right := by
  rw [List.dropWhile_append, List.dropWhile_cons_of_neg (by simp [hc])]
  split
  · rename_i hempty
    rw [List.isEmpty_iff.mp hempty, List.nil_append]
  · rfl

theorem length_bar (digits : Nat) : (bar digits).length = digits + 2 := by
  simp [bar]

theorem notMem_bar (digits : Nat) : '\n' ∉ bar digits := by
  simp [bar, List.leftpad, List.mem_replicate]

/-- The head of the arrow stands behind as many characters as come before the column on the part of
the line that is shown. -/
theorem arrow_eq (shown indent : Nat) :
    arrow (1 + (indent + shown)) indent = List.replicate shown '-' ++ ['^'] := by
  have hwidth : max (1 + (indent + shown) - indent) 1 - 1 = shown := by omega
  rw [arrow, List.leftpad, List.length_singleton, hwidth]

/-- What stands in front of a line that is shown. -/
def label (number : Nat) : List Char :=
  (toString number).toList ++ [' ', '|', ' ']

theorem notMem_label (number : Nat) : '\n' ∉ label number := by
  intro hmem
  rcases List.mem_append.mp hmem with hdigits | hbar
  · rw [Nat.toString_eq_repr, Nat.toList_repr] at hdigits
    exact absurd (Nat.isDigit_of_mem_toDigits (by decide) (by decide) hdigits) (by decide)
  · exact absurd hbar (by decide)

/-! ## The lines of a report -/

/-- Behind an opening, a text ends with the lines that are put behind it. -/
theorem splitOn_append_lines {first second : List Char} (hfirst : '\n' ∉ first)
    (hsecond : '\n' ∉ second) (opening : List Char) :
    (opening ++ '\n' :: (first ++ '\n' :: second)).splitOn '\n' =
      opening.splitOn '\n' ++ [first, second] := by
  rw [List.splitOn_append_cons_self, List.splitOn_append_cons_self_of_not_mem hfirst,
    List.splitOn_eq_singleton hsecond]

/-- What is shown of the last line in front of a character. -/
def shownBefore (before : List Char) : List Char :=
  (lastLine before).dropWhile isIndent

theorem notMem_shownBefore (before : List Char) : '\n' ∉ shownBefore before := fun hmem =>
  notMem_lastLine before ((List.dropWhile_sublist isIndent).subset hmem)

/-- The line of a character that is no blank goes on behind it in some way. -/
theorem exists_line?_eq {before rest source : List Char} (hsource : source = before ++ c :: rest)
    (hc : isBlank c = false) :
    ∃ behind, '\n' ∉ behind ∧
      line? source (1 + before.count '\n') = some (lastLine before ++ c :: behind) := by
  have hreturn : decide (c = '\r') = false := by
    simpa using ne_of_isBlank hc (show isBlank '\r' = true by decide)
  have hlast : (c :: rest).takeWhile (· ≠ '\n') = c :: rest.takeWhile (· ≠ '\n') :=
    List.takeWhile_cons_of_pos
      (by simpa using ne_of_isBlank hc (show isBlank '\n' = true by decide))
  refine ⟨(rest.takeWhile (· ≠ '\n')).rdropWhile (· = '\r'), fun hmem => ?_, ?_⟩
  · have hall := List.all_takeWhile (p := (· ≠ '\n')) (l := rest)
    simpa using List.all_eq_true.mp hall '\n' ((List.rdropWhile_prefix _ _).subset hmem)
  · rw [hsource, Nat.add_comm, line?, getElem?_splitOn, hlast, Option.map_some]
    exact congrArg some (rdropWhile_append_cons hreturn _ _)

/-- The arrow to the character behind `before`, on a line that goes on with `c` and `behind`. -/
theorem arrow_shownBefore (before behind : List Char) (c : Char) :
    arrow (1 + (lastLine before).length)
        ((lastLine before ++ c :: behind).length - (shownBefore before ++ c :: behind).length) =
      List.replicate (shownBefore before).length '-' ++ ['^'] := by
  have hle : (shownBefore before).length ≤ (lastLine before).length :=
    (List.dropWhile_sublist isIndent).length_le
  rw [← arrow_eq _ ((lastLine before).length - (shownBefore before).length),
    Nat.sub_add_cancel hle, List.length_append, List.length_append, Nat.add_sub_add_right]

/-- A line is shown as `text`: without the spaces and tabs in front of it, and without the blanks
behind it. -/
structure ShownAs (line indent text trailing : List Char) : Prop where
  line_eq : line = indent ++ text ++ trailing
  indent_eq : ∀ d ∈ indent, d = ' ' ∨ d = '\t'
  isBlank_trailing : ∀ d ∈ trailing, isBlank d = true
  head_ne : ∀ d ∈ text.head?, d ≠ ' ' ∧ d ≠ '\t'
  isBlank_getLast : ∀ d ∈ text.getLast?, isBlank d = false

/-- The report ends with two lines.  The first of them shows the line `number` of the source
without its indentation and the blanks behind it.  The second one has its head under the character
`c`, which comes behind `before` in the source. -/
def PointsAt (report source : String) (number : UInt32) (before : List Char) (c : Char) : Prop :=
  ∃ line indent shown right trailing opening gap,
    lineOf? source number = some (String.ofList line) ∧
    ShownAs line indent (shown ++ c :: right) trailing ∧
    lastLine before = indent ++ shown ∧
    report.toList.splitOn '\n' =
      opening ++ [label number.toNat ++ (shown ++ c :: right), gap ++ ['^']] ∧
    gap.length = (label number.toNat ++ shown).length

theorem isIndent_iff : isIndent c = true ↔ c = ' ' ∨ c = '\t' := by
  simp [isIndent]

/-- What a report cuts off a line with a character that is no blank. -/
theorem shownAs_append_cons (hc : isBlank c = false) (left right : List Char) :
    ShownAs (left ++ c :: right) (left.takeWhile isIndent)
      (left.dropWhile isIndent ++ c :: right.rdropWhile isBlank) (right.rtakeWhile isBlank) where
  line_eq := by
    simp only [List.append_assoc, List.cons_append, List.rdropWhile_append_rtakeWhile]
    rw [← List.append_assoc, List.takeWhile_append_dropWhile]
  indent_eq d hd := isIndent_iff.mp (List.all_eq_true.mp List.all_takeWhile d hd)
  isBlank_trailing _ hd := List.mem_rtakeWhile_imp hd
  head_ne d hd := by
    rw [← not_or, ← isIndent_iff, Bool.not_eq_true]
    rcases hleft : left.dropWhile isIndent with _ | ⟨first, others⟩
    · obtain rfl : c = d := by simpa [hleft] using hd
      exact isIndent_of_isBlank_eq_false hc
    · obtain rfl : first = d := by simpa [hleft] using hd
      have hfirst := List.head?_dropWhile_not isIndent left
      simpa [hleft] using hfirst
  isBlank_getLast d hd := by
    rcases List.eq_nil_or_concat' (right.rdropWhile isBlank) with hnil | ⟨others, final, hright⟩
    · obtain rfl : c = d := by simpa [hnil] using hd
      exact hc
    · rw [hright, ← List.cons_append, ← List.append_assoc, List.getLast?_concat] at hd
      obtain rfl : final = d := by simpa using hd
      have hfinal := List.rdropWhile_last_not isBlank right (by simp [hright])
      simpa [hright] using hfinal

end Report

/-- A report shows the line that it finds, and its arrow is as long as the column says. -/
theorem Diagnostic.exists_toList_report (diagnostic : Diagnostic) (source name : String)
    {line : List Char} (hline : line? source.toList diagnostic.position.line.toNat = some line) :
    ∃ opening, (diagnostic.report source name).toList =
      opening ++ '\n' :: (label diagnostic.position.line.toNat ++
          (line.dropWhile isIndent).rdropWhile isBlank ++
        '\n' :: (bar (toString diagnostic.position.line.toNat).length ++
          ' ' :: arrow diagnostic.position.column.toNat
            (line.length - (line.dropWhile isIndent).length))) := by
  refine ⟨("error: " ++ headline diagnostic.cause ++ "\n" ++ "-> " ++ name ++ "\n").toList ++
    bar (toString diagnostic.position.line.toNat).length, ?_⟩
  have hbreak : "\n".toList = ['\n'] := rfl
  have hbar : " | ".toList = [' ', '|', ' '] := rfl
  have hspace : " ".toList = [' '] := rfl
  unfold Diagnostic.report
  rw [hline]
  simp only [Option.getD_some, label, String.toList_append, String.toList_ofList,
    List.rdropWhile]
  rw [hbreak, hbar, hspace]
  simp only [List.append_assoc, List.cons_append, List.nil_append]

/-! ## Tokens -/

/-- A line end is the only blank that begins a token, and the token is a line end then. -/
theorem Lexeme.isBlank_eq_false {first : Char} {taken rest : List Char} {kind : TokenKind}
    {text : String} (h : Lexeme (first :: taken) rest kind text) (hkind : kind ≠ .newline) :
    isBlank first = false := by
  obtain ⟨c, others, hspelling, hseparator⟩ := h.exists_cons
  obtain ⟨rfl, -⟩ := List.cons.inj hspelling
  rw [← Bool.not_eq_true]
  intro hblank
  have hlineEnd : first = '\n' := by
    by_contra hne
    exact hseparator ⟨hblank, hne⟩
  subst hlineEnd
  obtain ⟨-, -, hnewline, -⟩ := h.unique (@Lexeme.lineEnd (taken ++ rest)) rfl
  exact hkind hnewline.symm

/-- A diagnostic at the character behind `before` is reported under this character. -/
theorem Diagnostic.pointsAt_report {diagnostic : Diagnostic} {source : String} {c : Char}
    {before rest : List Char} (hsource : source.toList = before ++ c :: rest)
    (hnumber : diagnostic.position.line.toNat = 1 + before.count '\n')
    (hcolumn : diagnostic.position.column.toNat = 1 + (lastLine before).length)
    (hc : isBlank c = false) (name : String) :
    PointsAt (diagnostic.report source name) source diagnostic.position.line before c := by
  obtain ⟨behind, hbehind, hline⟩ := exists_line?_eq hsource hc
  rw [← hnumber] at hline
  have hshown : (lastLine before ++ c :: behind).dropWhile isIndent =
      shownBefore before ++ c :: behind :=
    dropWhile_append_cons (isIndent_of_isBlank_eq_false hc) _ _
  have htext : (shownBefore before ++ c :: behind).rdropWhile isBlank =
      shownBefore before ++ c :: behind.rdropWhile isBlank :=
    rdropWhile_append_cons hc _ _
  obtain ⟨opening, hreport⟩ := diagnostic.exists_toList_report source name hline
  rw [hshown, htext, hcolumn, arrow_shownBefore] at hreport
  have hfirst : '\n' ∉ label diagnostic.position.line.toNat ++
      (shownBefore before ++ c :: behind.rdropWhile isBlank) := by
    have hne := ne_of_isBlank hc (show isBlank '\n' = true by decide)
    simp only [List.mem_append, List.mem_cons, not_or]
    exact ⟨notMem_label _, notMem_shownBefore before, hne.symm,
      fun hmem => hbehind ((List.rdropWhile_prefix _ _).subset hmem)⟩
  have hsecond : '\n' ∉ bar (toString diagnostic.position.line.toNat).length ++
      ' ' :: (List.replicate (shownBefore before).length '-' ++ ['^']) := by
    simp [notMem_bar, List.mem_replicate]
  refine ⟨lastLine before ++ c :: behind, (lastLine before).takeWhile isIndent,
    shownBefore before, behind.rdropWhile isBlank, behind.rtakeWhile isBlank,
    opening.splitOn '\n',
    bar (toString diagnostic.position.line.toNat).length ++
      ' ' :: List.replicate (shownBefore before).length '-', ?_, shownAs_append_cons hc _ _,
    List.takeWhile_append_dropWhile.symm, ?_, ?_⟩
  · rw [lineOf?, hline]
    rfl
  · rw [hreport, splitOn_append_lines hfirst hsecond, List.append_assoc, List.cons_append]
  · simp only [label, List.length_append, List.length_cons, List.length_nil, List.length_replicate,
      length_bar, String.length_toList]
    omega

/-- In a text that is short enough for the counters, the report of a diagnostic that stands at a
token, which is neither a line end nor the last one, points at the character with which the token
begins. -/
theorem report_pointsAt {source : String} (hlength : source.length < UInt32.size - 1) :
    ∃ tokens last,
      tokenize source = .ok (tokens ++ [last]) ∧ last.kind = .endOfInput ∧
      ∀ token ∈ tokens, token.kind ≠ .newline →
        ∃ before first taken rest,
          source.toList = before ++ first :: (taken ++ rest) ∧ token.StartsBehind before ∧
          Lexeme (first :: taken) rest token.kind token.text ∧
          ∀ diagnostic : Diagnostic, diagnostic.position = token.position → ∀ name,
            Report.PointsAt (diagnostic.report source name) source token.position.line before
              first := by
  obtain ⟨segments, h⟩ := Segmentation.exists_segmentation source.toList
  rw [← String.length_toList] at hlength
  refine ⟨Segment.tokens .start segments, _, h.tokens_eq .start, rfl, ?_⟩
  intro token htoken hkind
  obtain ⟨before, spelling, rest, hsource, hlexeme, hstarts⟩ :=
    h.exists_startsBehind Position.counts_start hlength token htoken
  obtain ⟨first, taken, rfl, -⟩ := hlexeme.exists_cons
  refine ⟨before, first, taken, rest, hsource, hstarts, hlexeme, ?_⟩
  intro diagnostic hposition name
  rw [← hposition]
  apply Diagnostic.pointsAt_report hsource
  · rw [hposition]
    exact hstarts.line_eq
  · rw [hposition]
    exact hstarts.column_eq
  · exact hlexeme.isBlank_eq_false hkind

/-- A sign that begins no statement, on an indented line with a letter of two bytes before it and a
carriage return behind it. -/
theorem report_pointsAt_indentedSign :
    "\n \té + #\r".length < UInt32.size - 1 ∧
      ∃ tokens last, tokenize "\n \té + #\r" = .ok (tokens ++ [last]) ∧
        (⟨.illegal, "#", ⟨2, 7⟩⟩ : Token) ∈ tokens ∧ TokenKind.illegal ≠ .newline ∧
        ∃ before first rest, "\n \té + #\r".toList = before ++ first :: rest ∧
          Report.PointsAt ((⟨.noPrefixRule .illegal, ⟨2, 7⟩⟩ : Diagnostic).report
            "\n \té + #\r" "demo.mn") "\n \té + #\r" 2 before first := by
  have hlength : "\n \té + #\r".length < UInt32.size - 1 := by decide
  have hkind : TokenKind.illegal ≠ .newline := by decide
  have hsign : (tokenize "\n \té + #\r").map (·[3]?) =
      .ok (some ⟨.illegal, "#", ⟨2, 7⟩⟩) := by
    decide +kernel
  obtain ⟨tokens, last, htokens, hlast, hpoints⟩ := report_pointsAt hlength
  rw [htokens] at hsign
  have hmem : (⟨.illegal, "#", ⟨2, 7⟩⟩ : Token) ∈ tokens := by
    have hmem := List.mem_of_getElem? (Except.ok.inj hsign)
    rcases List.mem_append.mp hmem with htoken | hend
    · exact htoken
    · rw [← List.mem_singleton.mp hend] at hlast
      cases hlast
  obtain ⟨before, first, taken, rest, hsource, -, -, hreport⟩ := hpoints _ hmem hkind
  exact ⟨hlength, tokens, last, htokens, hmem, hkind, before, first, taken ++ rest, hsource,
    hreport _ rfl "demo.mn"⟩

end LineScript
