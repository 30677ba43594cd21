import LineScript.Token.Lexer

/-!
# Lexemes

The grammar of lexemes, stated without the way in which they are read.  A lexeme is a
spelling in front of the rest of a text, and the rest matters only because a lexeme goes
on for as long as it can.  Its first character decides its class, since no character
begins lexemes of two classes; so a text begins with at most one lexeme, which is the
one that the lexer takes.
-/

namespace LineScript

/-- A run of characters that `accept` holds of cannot go on into `rest`. -/
def EndsBefore (accept : Char → Bool) (rest : List Char) : Prop :=
  ∀ c ∈ rest.head?, accept c = false

/-- A blank between lexemes.  The line end is a lexeme itself. -/
def IsSeparator (c : Char) : Prop :=
  isBlank c = true ∧ c ≠ '\n'

theorem isSeparator_space : IsSeparator ' ' :=
  ⟨by decide, by decide⟩

/-- A sign is a lexeme by itself, whatever follows. -/
inductive IsSign : Char → TokenKind → Prop where
  | plus : IsSign '+' .plus
  | dash : IsSign '-' .dash
  | star : IsSign '*' .star
  | percent : IsSign '%' .percent
  | less : IsSign '<' .less
  | greater : IsSign '>' .greater
  | openParen : IsSign '(' .openParen
  | closeParen : IsSign ')' .closeParen
  | openBracket : IsSign '[' .openBracket
  | closeBracket : IsSign ']' .closeBracket
  | openCurly : IsSign '\x7b' .openCurly
  | closeCurly : IsSign '\x7d' .closeCurly
  | comma : IsSign ',' .comma
  | dot : IsSign '.' .dot

/-- The characters that begin a lexeme of a class of their own. -/
def marks : List Char :=
  ['+', '-', '*', '%', '<', '>', '(', ')', '[', ']', '\x7b', '\x7d', ',', '.',
    '\n', '/', '=', '!', '@', '"']

/-- A character that begins no lexeme but itself. -/
structure IsStray (c : Char) : Prop where
  notMem_marks : c ∉ marks
  isBlank_eq : isBlank c = false
  isDigit_eq : c.isDigit = false
  isAlphabetic_eq : isAlphabetic c = false

/-- In front of `rest`, the characters `spelling` are a lexeme of this kind and text. -/
inductive Lexeme : (spelling rest : List Char) → TokenKind → String → Prop where
  | sign {c : Char} {kind : TokenKind} {rest : List Char} (h : IsSign c kind) :
    Lexeme [c] rest kind (String.singleton c)
  | lineEnd {rest : List Char} : Lexeme ['\n'] rest .newline "\n"
  | comment {body rest : List Char} (h : '\n' ∉ body) :
    Lexeme ('/' :: '/' :: (body ++ ['\n'])) rest .newline "\n"
  | lastComment {body : List Char} (h : '\n' ∉ body) :
    Lexeme ('/' :: '/' :: body) [] .newline "\n"
  | equals {rest : List Char} : Lexeme ['=', '='] rest .equals "=="
  | notEquals {rest : List Char} : Lexeme ['!', '='] rest .notEquals "!="
  | slash {rest : List Char} (h : rest.head? ≠ some '/') : Lexeme ['/'] rest .slash "/"
  | assignment {rest : List Char} (h : rest.head? ≠ some '=') : Lexeme ['='] rest .assignment "="
  | exclamation {rest : List Char} (h : rest.head? ≠ some '=') :
    Lexeme ['!'] rest .exclamation "!"
  | directive {body rest : List Char} (h : ∀ c ∈ body, isBlank c = false)
    (hrest : EndsBefore (fun c => !isBlank c) rest) :
    Lexeme ('@' :: body) rest
      (if String.ofList ('@' :: body) = "@import" then .importDirective else .illegal)
      (String.ofList ('@' :: body))
  | string {body rest : List Char} (h : '"' ∉ body) :
    Lexeme ('"' :: (body ++ ['"'])) rest .string (String.ofList body)
  | openString {body : List Char} (h : '"' ∉ body) :
    Lexeme ('"' :: body) [] .string (String.ofList body)
  | integer {digits rest : List Char} (hne : digits ≠ []) (h : ∀ c ∈ digits, c.isDigit = true)
    (hrest : EndsBefore Char.isDigit rest) :
    Lexeme digits rest .integer (String.ofList digits)
  | word {letters rest : List Char} (hne : letters ≠ []) (h : ∀ c ∈ letters, isAlphabetic c = true)
    (hrest : EndsBefore isAlphabetic rest) :
    Lexeme letters rest (Word.kind (String.ofList letters)) (String.ofList letters)
  | stray {c : Char} {rest : List Char} (h : IsStray c) :
    Lexeme [c] rest .illegal (String.singleton c)

/-! ## No character begins lexemes of two classes -/

namespace CodePointRanges

/-- Whether no range of one set meets a range of the other. -/
def disjoint (left right : CodePointRanges) : Bool :=
  left.ranges.all fun first => right.ranges.all fun second =>
    Nat.blt first.2 second.1 || Nat.blt second.2 first.1

theorem contains_eq_false {left right : CodePointRanges} {c : Char}
    (hdisjoint : left.disjoint right = true) (h : left.contains c = true) :
    right.contains c = false := by
  rw [← Bool.not_eq_true]
  intro hright
  obtain ⟨first, hfirst, hfirst_le, hle_first⟩ := contains_iff.mp h
  obtain ⟨second, hsecond, hsecond_le, hle_second⟩ := contains_iff.mp hright
  have hlt := List.all_eq_true.mp (List.all_eq_true.mp hdisjoint first hfirst) second hsecond
  simp only [Bool.or_eq_true, Nat.blt_eq] at hlt
  omega

end CodePointRanges

/-- The digits as a set of characters. -/
def digitRanges : CodePointRanges := ⟨[(0x30, 0x39)]⟩

theorem contains_digitRanges_iff {c : Char} : digitRanges.contains c = true ↔ c.isDigit = true := by
  simp only [CodePointRanges.contains, digitRanges, List.any_cons, List.any_nil, Bool.or_false,
    Char.isDigit, Bool.and_eq_true, decide_eq_true_eq, ge_iff_le, UInt32.le_iff_toNat_le]
  exact Iff.rfl

theorem isBlank_of_isDigit {c : Char} (h : c.isDigit = true) : isBlank c = false :=
  CodePointRanges.contains_eq_false rfl (contains_digitRanges_iff.mpr h)

theorem isBlank_of_isAlphabetic {c : Char} (h : isAlphabetic c = true) : isBlank c = false := by
  have hdisjoint : alphabeticRanges.disjoint blankRanges = true := by decide +kernel
  exact CodePointRanges.contains_eq_false hdisjoint h

theorem isAlphabetic_space : isAlphabetic ' ' = false := by
  rw [← Bool.not_eq_true]
  intro hletter
  cases isBlank_of_isAlphabetic hletter

/-- The ASCII characters that are no letters. -/
def asciiOthers : CodePointRanges := ⟨[(0x0, 0x40), (0x5b, 0x60), (0x7b, 0x7f)]⟩

theorem contains_asciiOthers_of_isAlphabetic {c : Char} (h : isAlphabetic c = true) :
    asciiOthers.contains c = false := by
  have hdisjoint : alphabeticRanges.disjoint asciiOthers = true := by decide +kernel
  exact CodePointRanges.contains_eq_false hdisjoint h

theorem isDigit_of_isAlphabetic {c : Char} (h : isAlphabetic c = true) : c.isDigit = false := by
  have hothers := contains_asciiOthers_of_isAlphabetic h
  rw [← Bool.not_eq_true, ← contains_digitRanges_iff]
  intro hdigit
  obtain ⟨range, hrange, hfirst, hlast⟩ := CodePointRanges.contains_iff.mp hdigit
  obtain rfl : range = (0x30, 0x39) := List.mem_singleton.mp hrange
  rw [CodePointRanges.contains_iff.mpr ⟨(0x0, 0x40), by decide, Nat.zero_le _, by omega⟩] at hothers
  cases hothers

theorem notMem_marks_of_isDigit {c : Char} (h : c.isDigit = true) : c ∉ marks := by
  have hmarks : marks.all (fun mark => !mark.isDigit) = true := by decide
  intro hmem
  have hdigit := List.all_eq_true.mp hmarks c hmem
  rw [h] at hdigit
  cases hdigit

theorem notMem_marks_of_isAlphabetic {c : Char} (h : isAlphabetic c = true) : c ∉ marks := by
  have hmarks : marks.all asciiOthers.contains = true := by decide
  intro hmem
  have hothers := contains_asciiOthers_of_isAlphabetic h
  rw [List.all_eq_true.mp hmarks c hmem] at hothers
  cases hothers

theorem notMem_marks_of_isSeparator {c : Char} (h : IsSeparator c) : c ∉ marks := by
  have hmarks : marks.all (fun mark => mark == '\n' || !isBlank mark) = true := by decide
  intro hmem
  have hblank := List.all_eq_true.mp hmarks c hmem
  rw [h.1, Bool.not_true, Bool.or_false] at hblank
  exact h.2 (eq_of_beq hblank)

/-- The table of the lexer holds the signs and nothing else. -/
theorem isSign_iff_mem_signs {c : Char} {kind : TokenKind} :
    IsSign c kind ↔ (c, kind) ∈ Opening.signs := by
  refine ⟨fun h => by cases h <;> decide, fun h => ?_⟩
  simp only [Opening.signs, List.mem_cons, List.not_mem_nil, Prod.mk.injEq, or_false] at h
  rcases h with ⟨rfl, rfl⟩ | ⟨rfl, rfl⟩ | ⟨rfl, rfl⟩ | ⟨rfl, rfl⟩ | ⟨rfl, rfl⟩ | ⟨rfl, rfl⟩ |
    ⟨rfl, rfl⟩ | ⟨rfl, rfl⟩ | ⟨rfl, rfl⟩ | ⟨rfl, rfl⟩ | ⟨rfl, rfl⟩ | ⟨rfl, rfl⟩ | ⟨rfl, rfl⟩ |
    ⟨rfl, rfl⟩ <;> constructor

theorem IsSign.mem_marks {c : Char} {kind : TokenKind} (h : IsSign c kind) : c ∈ marks := by
  cases h <;> decide

/-- A mark is a sign, or what follows decides its lexeme. -/
theorem exists_isSign_or_of_mem_marks {c : Char} (h : c ∈ marks) :
    (∃ kind, IsSign c kind) ∨ c ∈ ['\n', '/', '=', '!', '@', '"'] := by
  have hmarks : marks.all (fun mark => Opening.signs.any (·.1 == mark) ||
      ['\n', '/', '=', '!', '@', '"'].contains mark) = true := by decide
  rcases Bool.or_eq_true_iff.mp (List.all_eq_true.mp hmarks c h) with hsign | hother
  · obtain ⟨⟨_, kind⟩, hmem, heq⟩ := List.any_eq_true.mp hsign
    obtain rfl := eq_of_beq heq
    exact .inl ⟨kind, isSign_iff_mem_signs.mpr hmem⟩
  · exact .inr (List.contains_iff_mem.mp hother)

namespace Opening

theorem ofChar_of_isSign {c : Char} {kind : TokenKind} (h : IsSign c kind) :
    ofChar c = .sign kind := by
  have hsigns : ∀ entry ∈ signs, ofChar entry.1 = .sign entry.2 := by decide
  exact hsigns (c, kind) (isSign_iff_mem_signs.mp h)

theorem ofChar_of_notMem_marks {c : Char} (h : c ∉ marks) :
    ofChar c =
      if isBlank c then .blank
      else if c.isDigit then .digits
      else if isAlphabetic c then .word
      else .unknown := by
  have hsigns : signs.lookup c = none := by
    rw [List.lookup_eq_none_iff]
    intro entry hentry
    have hne : c ≠ entry.1 := by
      rintro rfl
      exact h (isSign_iff_mem_signs.mpr hentry).mem_marks
    simpa using hne
  simp only [marks, List.mem_cons, not_or] at h
  simp [ofChar, hsigns, h]

theorem ofChar_of_isDigit {c : Char} (h : c.isDigit = true) : ofChar c = .digits := by
  rw [ofChar_of_notMem_marks (notMem_marks_of_isDigit h)]
  simp [isBlank_of_isDigit h, h]

theorem ofChar_of_isAlphabetic {c : Char} (h : isAlphabetic c = true) : ofChar c = .word := by
  rw [ofChar_of_notMem_marks (notMem_marks_of_isAlphabetic h)]
  simp [isBlank_of_isAlphabetic h, isDigit_of_isAlphabetic h, h]

theorem ofChar_of_isStray {c : Char} (h : IsStray c) : ofChar c = .unknown := by
  rw [ofChar_of_notMem_marks h.notMem_marks]
  simp [h.isBlank_eq, h.isDigit_eq, h.isAlphabetic_eq]

theorem ofChar_of_isSeparator {c : Char} (h : IsSeparator c) : ofChar c = .blank := by
  rw [ofChar_of_notMem_marks (notMem_marks_of_isSeparator h)]
  simp [h.1]

end Opening

/-! ## What is taken from the characters of a text -/

namespace Run

theorem takeWhile_map_char {accept : Char → Bool} {taken rest : List Char}
    (h : ∀ c ∈ taken, accept c = true) (hrest : EndsBefore accept rest) :
    takeWhile accept ((taken ++ rest).map .char) = ⟨taken, none, rest.map .char⟩ := by
  induction taken with
  | nil =>
      cases rest with
      | nil => rfl
      | cons c others => simp [takeWhile, empty, hrest c rfl]
  | cons c others ih =>
      have hothers := ih fun c hc => h c (List.mem_cons_of_mem _ hc)
      rw [List.cons_append, List.map_cons, takeWhile, if_pos (h c List.mem_cons_self), hothers]
      rfl

theorem through_of_mem {closing : Char} {body : List Char} (h : closing ∉ body)
    (rest : List Reading) :
    through closing (body.map .char ++ .char closing :: rest) =
      ⟨body ++ [closing], none, rest⟩ := by
  induction body with
  | nil => simp [through]
  | cons c others ih =>
      rw [List.mem_cons, not_or] at h
      simp [through, cons, Ne.symm h.1, ih h.2]

theorem through_of_notMem {closing : Char} {body : List Char} (h : closing ∉ body) :
    through closing (body.map .char) = ⟨body, none, []⟩ := by
  induction body with
  | nil => rfl
  | cons c others ih =>
      rw [List.mem_cons, not_or] at h
      simp [through, cons, Ne.symm h.1, ih h.2]

theorem optional_of_head?_ne {second : Char} {rest : List Char} (h : rest.head? ≠ some second)
    (more : List Reading → Run) :
    optional second more (rest.map .char) = ⟨[], none, rest.map .char⟩ := by
  cases rest with
  | nil => rfl
  | cons c others =>
      have hne : c ≠ second := fun heq => h (by rw [List.head?_cons, heq])
      simp [optional, empty, hne]

end Run

/-- The lexer takes `first` and `taken` as a lexeme and leaves `rest`. -/
structure Opening.Takes (first : Char) (taken rest : List Char) (kind : TokenKind)
    (text : String) : Prop where
  ne_blank : ofChar first ≠ .blank
  run_eq : (ofChar first).run ((taken ++ rest).map .char) = ⟨taken, none, rest.map .char⟩
  kind_eq : (ofChar first).kind first taken = kind
  text_eq : (ofChar first).text first taken = text

theorem Opening.Takes.of_ofChar {first : Char} {taken rest : List Char} (opening : Opening)
    (hopening : ofChar first = opening) (hblank : opening ≠ .blank)
    (hrun : opening.run ((taken ++ rest).map .char) = ⟨taken, none, rest.map .char⟩) :
    Takes first taken rest (opening.kind first taken) (opening.text first taken) := by
  subst hopening
  exact ⟨hblank, hrun, rfl, rfl⟩

namespace Lexeme

open Opening

variable {spelling rest others taken : List Char} {kind : TokenKind} {text : String} {first : Char}

theorem ne_quote_of_notMem {body : List Char} (h : '"' ∉ body) :
    ∀ c ∈ body, decide (c ≠ '"') = true := by
  intro c hc
  rw [decide_eq_true_eq]
  rintro rfl
  exact h hc

/-- A lexeme is what the lexer takes from the text that begins with it. -/
theorem exists_takes (h : Lexeme spelling rest kind text) :
    ∃ first taken, spelling = first :: taken ∧ Takes first taken rest kind text := by
  cases h with
  | sign hsign =>
      exact ⟨_, [], rfl, .of_ofChar _ (ofChar_of_isSign hsign) (by simp) rfl⟩
  | lineEnd => exact ⟨_, [], rfl, .of_ofChar .lineEnd rfl (by simp) rfl⟩
  | @comment body _ hbody =>
      refine ⟨'/', '/' :: (body ++ ['\n']), rfl, ?_⟩
      refine .of_ofChar .slash rfl (by simp) ?_
      simp [run, Run.optional, Run.cons, Run.through_of_mem hbody]
  | @lastComment body hbody =>
      refine ⟨'/', '/' :: body, rfl, ?_⟩
      refine .of_ofChar .slash rfl (by simp) ?_
      simp [run, Run.optional, Run.cons, Run.through_of_notMem hbody]
  | equals =>
      exact ⟨'=', ['='], rfl, .of_ofChar (.pair '=' .equals .assignment) rfl (by simp) rfl⟩
  | notEquals =>
      exact ⟨'!', ['='], rfl,
        .of_ofChar (.pair '=' .notEquals .exclamation) rfl (by simp) rfl⟩
  | slash hrest =>
      exact ⟨'/', [], rfl, .of_ofChar .slash rfl (by simp)
        (Run.optional_of_head?_ne hrest _)⟩
  | assignment hrest =>
      exact ⟨'=', [], rfl, .of_ofChar (.pair '=' .equals .assignment) rfl (by simp)
        (Run.optional_of_head?_ne hrest _)⟩
  | exclamation hrest =>
      exact ⟨'!', [], rfl, .of_ofChar (.pair '=' .notEquals .exclamation) rfl (by simp)
        (Run.optional_of_head?_ne hrest _)⟩
  | @directive body _ hbody hrest =>
      refine ⟨'@', body, rfl, .of_ofChar .directive rfl (by simp) ?_⟩
      exact Run.takeWhile_map_char (fun c hc => by simp [hbody c hc]) hrest
  | @string body _ hbody =>
      have htext : Opening.text .quote '"' (body ++ ['"']) = String.ofList body := by
        rw [Opening.text, List.takeWhile_append_of_pos (ne_quote_of_notMem hbody)]
        simp
      rw [← htext]
      refine ⟨'"', body ++ ['"'], rfl, .of_ofChar .quote rfl (by simp) ?_⟩
      simp [run, Run.through_of_mem hbody]
  | @openString body hbody =>
      have htext : Opening.text .quote '"' body = String.ofList body := by
        rw [Opening.text, ← List.append_nil body,
          List.takeWhile_append_of_pos (ne_quote_of_notMem hbody)]
        rfl
      rw [← htext]
      refine ⟨'"', body, rfl, .of_ofChar .quote rfl (by simp) ?_⟩
      simp [run, Run.through_of_notMem hbody]
  | @integer digits _ hne hdigits hrest =>
      obtain ⟨first, taken, rfl⟩ := List.exists_cons_of_ne_nil hne
      have hfirst : ofChar first = .digits := ofChar_of_isDigit (hdigits first List.mem_cons_self)
      refine ⟨first, taken, rfl, .of_ofChar .digits hfirst (by simp) ?_⟩
      exact Run.takeWhile_map_char (fun c hc => hdigits c (List.mem_cons_of_mem _ hc)) hrest
  | @word letters _ hne hletters hrest =>
      obtain ⟨first, taken, rfl⟩ := List.exists_cons_of_ne_nil hne
      have hfirst : ofChar first = .word :=
        ofChar_of_isAlphabetic (hletters first List.mem_cons_self)
      refine ⟨first, taken, rfl, .of_ofChar .word hfirst (by simp) ?_⟩
      exact Run.takeWhile_map_char (fun c hc => hletters c (List.mem_cons_of_mem _ hc)) hrest
  | stray hstray =>
      exact ⟨_, [], rfl, .of_ofChar .unknown (ofChar_of_isStray hstray) (by simp) rfl⟩

/-- A text begins with at most one lexeme. -/
theorem unique {otherRest : List Char} {other : List Char} {otherKind : TokenKind}
    {otherText : String} (h : Lexeme spelling rest kind text)
    (hother : Lexeme other otherRest otherKind otherText)
    (heq : spelling ++ rest = other ++ otherRest) :
    other = spelling ∧ otherRest = rest ∧ otherKind = kind ∧ otherText = text := by
  obtain ⟨first, taken, rfl, htakes⟩ := h.exists_takes
  obtain ⟨_, otherTaken, rfl, hotherTakes⟩ := hother.exists_takes
  rw [List.cons_append, List.cons_append] at heq
  obtain ⟨rfl, hbehind⟩ := List.cons.inj heq
  have hrun := htakes.run_eq
  rw [hbehind, hotherTakes.run_eq] at hrun
  obtain ⟨rfl, -, -⟩ := Run.mk.inj hrun
  exact ⟨rfl, (List.append_cancel_left hbehind).symm,
    hotherTakes.kind_eq.symm.trans htakes.kind_eq, hotherTakes.text_eq.symm.trans htakes.text_eq⟩

/-! ## Every text begins with a lexeme or a blank -/

theorem endsBefore_dropWhile (accept : Char → Bool) (chars : List Char) :
    EndsBefore accept (chars.dropWhile accept) := by
  have h := List.head?_dropWhile_not accept chars
  intro c hc
  rw [Option.mem_def.mp hc] at h
  simpa using h

/-- A second character that is next joins the first, and otherwise the first stands alone. -/
theorem exists_pair {second : Char} {joined alone : TokenKind} {pairText aloneText : String}
    (hjoined : ∀ rest, Lexeme [first, second] rest joined pairText)
    (halone : ∀ rest : List Char, rest.head? ≠ some second → Lexeme [first] rest alone aloneText)
    (others : List Char) :
    ∃ taken rest kind text, others = taken ++ rest ∧ Lexeme (first :: taken) rest kind text := by
  by_cases hsecond : others.head? = some second
  · obtain ⟨rest, rfl⟩ := List.head?_eq_some_iff.mp hsecond
    exact ⟨[second], rest, _, _, rfl, hjoined rest⟩
  · exact ⟨[], others, _, _, rfl, halone others hsecond⟩

theorem exists_slash (others : List Char) :
    ∃ taken rest kind text, others = taken ++ rest ∧ Lexeme ('/' :: taken) rest kind text := by
  by_cases hsecond : others.head? = some '/'
  · obtain ⟨behind, rfl⟩ := List.head?_eq_some_iff.mp hsecond
    by_cases hline : '\n' ∈ behind
    · obtain ⟨body, rest, rfl, hbody⟩ := List.eq_append_cons_of_mem hline
      exact ⟨'/' :: (body ++ ['\n']), rest, _, _, by simp, .comment hbody⟩
    · exact ⟨'/' :: behind, [], _, _, by simp, .lastComment hline⟩
  · exact ⟨[], others, _, _, rfl, .slash hsecond⟩

theorem exists_string (others : List Char) :
    ∃ taken rest kind text, others = taken ++ rest ∧ Lexeme ('"' :: taken) rest kind text := by
  by_cases hclosing : '"' ∈ others
  · obtain ⟨body, rest, rfl, hbody⟩ := List.eq_append_cons_of_mem hclosing
    exact ⟨body ++ ['"'], rest, _, _, by simp, .string hbody⟩
  · exact ⟨others, [], _, _, by simp, .openString hclosing⟩

/-- A run of characters of one class goes as far as it can. -/
theorem exists_run {accept : Char → Bool} {kindOf : List Char → TokenKind}
    (hrun : ∀ taken rest, (∀ c ∈ taken, accept c = true) → EndsBefore accept rest →
      Lexeme (first :: taken) rest (kindOf taken) (String.ofList (first :: taken)))
    (others : List Char) :
    ∃ taken rest kind text, others = taken ++ rest ∧ Lexeme (first :: taken) rest kind text :=
  ⟨others.takeWhile accept, others.dropWhile accept, _, _, List.takeWhile_append_dropWhile.symm,
    hrun _ _ (List.all_eq_true.mp List.all_takeWhile) (endsBefore_dropWhile accept others)⟩

theorem exists_lexeme (h : ¬ IsSeparator first) (others : List Char) :
    ∃ taken rest kind text, others = taken ++ rest ∧ Lexeme (first :: taken) rest kind text := by
  by_cases hmark : first ∈ marks
  · rcases exists_isSign_or_of_mem_marks hmark with ⟨kind, hsign⟩ | hmark
    · exact ⟨[], others, _, _, rfl, .sign hsign⟩
    simp only [List.mem_cons, List.not_mem_nil, or_false] at hmark
    rcases hmark with rfl | rfl | rfl | rfl | rfl | rfl
    · exact ⟨[], others, _, _, rfl, .lineEnd⟩
    · exact exists_slash others
    · exact exists_pair (fun _ => .equals) (fun _ hrest => .assignment hrest) others
    · exact exists_pair (fun _ => .notEquals) (fun _ hrest => .exclamation hrest) others
    · exact exists_run (fun _ _ htaken hrest => .directive (by simpa using htaken) hrest) others
    · exact exists_string others
  by_cases hblank : isBlank first = true
  · have hline : first ≠ '\n' := by
      rintro rfl
      exact hmark (by decide)
    exact absurd ⟨hblank, hline⟩ h
  by_cases hdigit : first.isDigit = true
  · have hinteger (taken rest : List Char) (htaken : ∀ c ∈ taken, c.isDigit = true)
        (hrest : EndsBefore Char.isDigit rest) : Lexeme (first :: taken) rest .integer _ :=
      .integer (by simp) (List.forall_mem_cons.mpr ⟨hdigit, htaken⟩) hrest
    exact exists_run hinteger others
  by_cases hletter : isAlphabetic first = true
  · have hword (taken rest : List Char) (htaken : ∀ c ∈ taken, isAlphabetic c = true)
        (hrest : EndsBefore isAlphabetic rest) : Lexeme (first :: taken) rest _ _ :=
      .word (by simp) (List.forall_mem_cons.mpr ⟨hletter, htaken⟩) hrest
    exact exists_run hword others
  · exact ⟨[], others, _, _, rfl, .stray ⟨hmark, by simpa using hblank, by simpa using hdigit,
      by simpa using hletter⟩⟩

end Lexeme

/-- The token that a character begins is made of the run that it announces. -/
theorem Lexer.scan_of_ne_blank {first : Char} (h : Opening.ofChar first ≠ .blank)
    (position : Position) (rest : List Reading) :
    scan position (.char first :: rest) =
      (match ((Opening.ofChar first).run rest).failure with
        | some failure => .error ⟨.unreadableSource failure.message,
            (position.after first).afterAll ((Opening.ofChar first).run rest).taken⟩
        | none => .ok ⟨(Opening.ofChar first).kind first ((Opening.ofChar first).run rest).taken,
            (Opening.ofChar first).text first ((Opening.ofChar first).run rest).taken,
            position.right⟩,
        ⟨((Opening.ofChar first).run rest).rest,
          (position.after first).afterAll ((Opening.ofChar first).run rest).taken, false⟩) := by
  rw [scan]
  split
  · rename_i hblank
    exact absurd hblank h
  · dsimp only
    split <;> simp_all

end LineScript
