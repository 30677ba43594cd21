import LineScript.Proofs.Lexing.Segmentation

/-!
# Spelling tokens again

The text of a token spells it, once a string has its quotes back.  A blank ends every lexeme
that is spelled so, whatever its class, and it begins none.  So the tokens of a text, spelled one
after the other with blanks between them, are cut apart as they were in the text.  Only the
layout is lost: blanks, what comments say, and whether the last string was closed.
-/

namespace LineScript

/-- The text of a lexeme, in quotes if it is a string. -/
def respelling (kind : TokenKind) (text : String) : List Char :=
  if kind = .string then '"' :: (text.toList ++ ['"']) else text.toList

/-- The tokens without the end of the input, spelled again with blanks between them. -/
def respelled (tokens : List Token) : String :=
  String.ofList ([' '].intercalate
    ((tokens.filter (·.kind ≠ .endOfInput)).map fun token => respelling token.kind token.text))

theorem respelling_of_ne {kind : TokenKind} (h : kind ≠ .string) (text : String) :
    respelling kind text = text.toList :=
  if_neg h

/-! ## One lexeme -/

/-- Nothing follows, or a blank does. -/
def IsSpaced (rest : List Char) : Prop :=
  ∀ c ∈ rest.head?, c = ' '

theorem isSpaced_nil : IsSpaced [] := by
  simp [IsSpaced]

theorem isSpaced_space (rest : List Char) : IsSpaced (' ' :: rest) := by
  simp [IsSpaced]

namespace IsSpaced

variable {rest : List Char}

theorem endsBefore (h : IsSpaced rest) {accept : Char → Bool} (haccept : accept ' ' = false) :
    EndsBefore accept rest := by
  intro c hc
  rw [h c hc, haccept]

theorem head?_ne (h : IsSpaced rest) {c : Char} (hc : c ≠ ' ') : rest.head? ≠ some c :=
  fun hhead => hc (h c hhead)

end IsSpaced

theorem Word.kind_ne_string (word : String) : Word.kind word ≠ .string := by
  intro hkind
  have hmem := Word.kind_mem word
  rw [hkind] at hmem
  revert hmem
  decide

/-- In front of a blank the text of a lexeme, with the quotes of a string, is a lexeme of the same
kind and text. -/
theorem Lexeme.respell {spelling rest behind : List Char} {kind : TokenKind} {text : String}
    (h : Lexeme spelling rest kind text) (hbehind : IsSpaced behind) :
    Lexeme (respelling kind text) behind kind text := by
  have hslash : behind.head? ≠ some '/' := hbehind.head?_ne (by decide)
  have hequals : behind.head? ≠ some '=' := hbehind.head?_ne (by decide)
  cases h with
  | @sign c kind _ hsign =>
      have hstring : kind ≠ .string := by cases hsign <;> decide
      rw [respelling_of_ne hstring, String.toList_singleton]
      exact .sign hsign
  | lineEnd | comment | lastComment => exact .lineEnd
  | equals => exact .equals
  | notEquals => exact .notEquals
  | slash => exact .slash hslash
  | assignment => exact .assignment hequals
  | exclamation => exact .exclamation hequals
  | @directive body _ hbody =>
      rw [respelling_of_ne (by split <;> simp), String.toList_ofList]
      exact .directive hbody (hbehind.endsBefore rfl)
  | @string body _ hbody | @openString body hbody =>
      have hquoted : respelling .string (String.ofList body) = '"' :: (body ++ ['"']) := by
        rw [respelling, if_pos rfl, String.toList_ofList]
      rw [hquoted]
      exact .string hbody
  | integer hne hdigits =>
      rw [respelling_of_ne (by simp), String.toList_ofList]
      exact .integer hne hdigits (hbehind.endsBefore rfl)
  | word hne hletters =>
      rw [respelling_of_ne (Word.kind_ne_string _), String.toList_ofList]
      exact .word hne hletters (hbehind.endsBefore isAlphabetic_space)
  | stray hstray =>
      rw [respelling_of_ne (by simp), String.toList_singleton]
      exact .stray hstray

/-! ## All lexemes of a text -/

/-- The lexemes of a text, spelled again with blanks between them, are cut apart again. -/
theorem Segmentation.exists_respelled {chars : List Char} {segments : List Segment}
    (h : Segmentation chars segments) :
    ∃ others,
      Segmentation ([' '].intercalate
        (segments.map fun segment => respelling segment.kind segment.text)) others ∧
      others.map (fun segment => (segment.kind, segment.text)) =
        segments.map fun segment => (segment.kind, segment.text) := by
  induction h with
  | nil _ => exact ⟨[], .nil (List.forall_mem_nil _), rfl⟩
  | @cons _ _ _ kind text segments _ hlexeme _ ih =>
      obtain ⟨others, hothers, hmap⟩ := ih
      cases segments with
      | nil =>
          refine ⟨[⟨[], respelling kind text, kind, text⟩], ?_, rfl⟩
          simpa using Segmentation.cons (List.forall_mem_nil _) (hlexeme.respell isSpaced_nil)
            (.nil (List.forall_mem_nil _))
      | cons next segments =>
          obtain ⟨spaced, hspaced, hspacedMap⟩ := hothers.exists_blank isSeparator_space
          refine ⟨⟨[], respelling kind text, kind, text⟩ :: spaced, ?_, ?_⟩
          · simpa [List.intercalate_cons_cons] using Segmentation.cons (List.forall_mem_nil _)
              (hlexeme.respell (isSpaced_space _)) hspaced
          · rw [List.map_cons, hspacedMap, hmap]
            rfl

/-- The tokens that are spelled again are those of the lexemes. -/
theorem Segmentation.toList_respelled {chars : List Char} {segments : List Segment}
    (h : Segmentation chars segments) (position last : Position) :
    (respelled (Segment.tokens position segments ++ [.endAt last])).toList =
      [' '].intercalate (segments.map fun segment => respelling segment.kind segment.text) := by
  have hkept := List.filter_eq_self.mpr fun token htoken =>
    decide_eq_true (h.kind_ne_endOfInput_of_mem_tokens position token htoken)
  have hmap := congrArg (List.map fun pair => respelling pair.1 pair.2)
    (Segment.map_kind_text_tokens position segments)
  rw [List.map_map, List.map_map] at hmap
  rw [respelled, String.toList_ofList, List.filter_append, hkept]
  simpa [Token.endAt, Function.comp_def] using congrArg _ hmap

/-- The tokens of a text, spelled again with blanks between them, are read again: the kinds and the
texts are the same, the end of the input included. -/
theorem tokenize_respelled (text : String) :
    ∃ tokens others, tokenize text = .ok tokens ∧ tokenize (respelled tokens) = .ok others ∧
      others.map (fun token => (token.kind, token.text)) =
        tokens.map fun token => (token.kind, token.text) := by
  obtain ⟨segments, h⟩ := Segmentation.exists_segmentation text.toList
  obtain ⟨others, hothers, hmap⟩ := h.exists_respelled
  rw [← h.toList_respelled .start (Position.start.afterAll text.toList)] at hothers
  refine ⟨_, _, h.tokens_eq .start, hothers.tokens_eq .start, ?_⟩
  rw [List.map_append, List.map_append, Segment.map_kind_text_tokens, Segment.map_kind_text_tokens,
    hmap]
  rfl

end LineScript
