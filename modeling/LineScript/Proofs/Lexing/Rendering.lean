import LineScript.Proofs.Lexing.Segmentation
import LineScript.Proofs.Tree.Induction
import LineScript.Proofs.Tree.Legible
import LineScript.Tree.Render

/-!
# The tokens of a rendered tree

Rendering puts signs and blanks where words and numerals would grow together, so a
legible tree has the tokens that it is spelled with, whatever comes behind it that does
not go on a word or a numeral.  The induction is over trees and goes through each text
from its end.
-/

namespace LineScript

open LineScript.Expr (mark operatorMark grouped separated)

/-- The lexemes of `chars` are those of `marks`, in order. -/
def Lexes (chars : List Char) (marks : List Token) : Prop :=
  ∃ segments, Segmentation chars segments ∧
    segments.map (fun segment => mark segment.kind segment.text) = marks

/-- No word and no numeral goes on into `rest`, whose lexemes are those of `marks`. -/
structure Delimits (rest : List Char) (marks : List Token) : Prop where
  lexes : Lexes rest marks
  endsWord : EndsBefore isAlphabetic rest
  endsNumeral : EndsBefore Char.isDigit rest

/-- The characters `chars` are spelled with `marks` wherever no word and no numeral goes on. -/
def Renders (chars : List Char) (marks : List Token) : Prop :=
  ∀ ⦃rest : List Char⦄ ⦃others : List Token⦄, Delimits rest others →
    Lexes (chars ++ rest) (marks ++ others)

section

variable {c : Char} {chars rest spelling : List Char} {marks others : List Token}
variable {kind : TokenKind} {text operator : String} {value : Int64}

theorem lexes_nil : Lexes [] [] :=
  ⟨[], .nil (List.forall_mem_nil _), rfl⟩

theorem Lexes.cons (h : Lexes rest marks) (hlexeme : Lexeme spelling rest kind text) :
    Lexes (spelling ++ rest) (mark kind text :: marks) := by
  obtain ⟨segments, hsegmentation, rfl⟩ := h
  exact ⟨_, .cons (List.forall_mem_nil _) hlexeme hsegmentation, rfl⟩

theorem Lexes.blank (h : Lexes rest marks) (hc : IsSeparator c) : Lexes (c :: rest) marks := by
  obtain ⟨segments, hsegmentation, rfl⟩ := h
  obtain ⟨others, hothers, hmap⟩ := hsegmentation.exists_blank hc
  have hmarks := congrArg (List.map fun pair => mark pair.1 pair.2) hmap
  rw [List.map_map, List.map_map] at hmarks
  exact ⟨others, hothers, hmarks⟩

/-! ## What ends words and numerals -/

theorem delimits_cons (h : Lexes (c :: rest) marks) (hletter : isAlphabetic c = false)
    (hdigit : c.isDigit = false) : Delimits (c :: rest) marks := by
  refine ⟨h, fun first hfirst => ?_, fun first hfirst => ?_⟩
  · obtain rfl : c = first := Option.some.inj hfirst
    exact hletter
  · obtain rfl : c = first := Option.some.inj hfirst
    exact hdigit

theorem Lexes.delimits_mark (h : Lexes (c :: rest) marks) (hc : c ∈ LineScript.marks) :
    Delimits (c :: rest) marks := by
  refine delimits_cons h ?_ ?_
  · rw [← Bool.not_eq_true]
    exact fun hletter => notMem_marks_of_isAlphabetic hletter hc
  · rw [← Bool.not_eq_true]
    exact fun hdigit => notMem_marks_of_isDigit hdigit hc

theorem Lexes.sign (h : Lexes rest marks) (hsign : IsSign c kind) :
    Delimits (c :: rest) (mark kind (String.singleton c) :: marks) :=
  (h.cons (.sign hsign)).delimits_mark hsign.mem_marks

theorem Lexes.lineEnd (h : Lexes rest marks) :
    Delimits ('\n' :: rest) (mark .newline "\n" :: marks) :=
  (h.cons .lineEnd).delimits_mark (by decide)

theorem Lexes.space (h : Lexes rest marks) : Delimits (' ' :: rest) marks :=
  delimits_cons (h.blank isSeparator_space) isAlphabetic_space rfl

/-! ## Words, numerals, strings and operators -/

theorem renders_word (hne : text.toList ≠ []) (h : ∀ c ∈ text.toList, isAlphabetic c = true) :
    Renders text.toList [mark (Word.kind text) text] := by
  intro rest others hrest
  have hlexeme := Lexeme.word hne h hrest.endsWord
  rw [String.ofList_toList] at hlexeme
  exact hrest.lexes.cons hlexeme

theorem IsIdentifier.renders (h : IsIdentifier text) :
    Renders text.toList [mark .identifier text] := by
  rw [← h.kind_eq]
  exact renders_word h.ne_nil h.isAlphabetic_eq

theorem renders_of_mem_meanings (h : (text, kind) ∈ Word.meanings) :
    Renders text.toList [mark kind text] := by
  have hwords : ∀ entry ∈ Word.meanings, entry.1.toList ≠ [] ∧
      entry.1.toList.all isAlphabetic = true ∧ Word.kind entry.1 = entry.2 := by
    decide +kernel
  obtain ⟨hne, hletters, hkind⟩ := hwords _ h
  rw [← show Word.kind text = kind from hkind]
  exact renders_word hne (List.all_eq_true.mp hletters)

theorem renders_type (h : text ∈ Word.builtinTypes) :
    Renders text.toList [mark .typeName text] := by
  refine renders_of_mem_meanings ?_
  exact List.mem_append_left _ (List.mem_append_right _ (List.mem_map_of_mem h))

theorem IsNumeral.renders (h : IsNumeral text value) :
    Renders text.toList [mark .integer text] := by
  intro rest others hrest
  have hlexeme := Lexeme.integer h.ne_nil h.isDigit_eq hrest.endsNumeral
  rw [String.ofList_toList] at hlexeme
  exact hrest.lexes.cons hlexeme

theorem renders_string (h : '"' ∉ text.toList) :
    Renders ('"' :: (text.toList ++ ['"'])) [mark .string text] := by
  intro rest others hrest
  have hlexeme : Lexeme ('"' :: (text.toList ++ ['"'])) rest .string _ := .string h
  rw [String.ofList_toList] at hlexeme
  exact hrest.lexes.cons hlexeme

/-- Behind a binary operator comes a blank. -/
theorem lexes_binaryOperator (h : operator ∈ binaryOperators.map Prod.fst)
    (hrest : Lexes rest marks) :
    Lexes (operator.toList ++ ' ' :: rest) (operatorMark operator :: marks) := by
  have hspace := hrest.space.lexes
  simp only [binaryOperators, List.map_cons, List.map_nil, List.mem_cons, List.not_mem_nil,
    or_false] at h
  rcases h with rfl | rfl | rfl | rfl | rfl | rfl | rfl | rfl | rfl
  · exact hspace.cons .equals
  · exact hspace.cons .notEquals
  · exact hspace.cons (.sign .less)
  · exact hspace.cons (.sign .greater)
  · exact hspace.cons (.sign .plus)
  · exact hspace.cons (.sign .dash)
  · exact hspace.cons (.sign .star)
  · exact hspace.cons (.slash (by simp))
  · exact hspace.cons (.sign .percent)

theorem lexes_unaryOperator (h : operator ∈ unaryOperators.map Prod.fst)
    (hrest : Lexes rest marks) (hhead : rest.head? ≠ some '=') :
    Lexes (operator.toList ++ rest) (operatorMark operator :: marks) := by
  simp only [unaryOperators, List.map_cons, List.map_nil, List.mem_cons, List.not_mem_nil,
    or_false] at h
  rcases h with rfl | rfl
  · exact hrest.cons (.sign .dash)
  · exact hrest.cons (.exclamation hhead)

/-! ## Groups and lists -/

theorem Renders.delimits_grouped (h : Renders chars marks) (hrest : Lexes rest others) :
    Delimits ('(' :: (chars ++ ')' :: rest)) (grouped marks ++ others) := by
  have hclosing : Delimits (')' :: rest) (mark .closeParen ")" :: others) := hrest.sign .closeParen
  have hopening : Delimits ('(' :: (chars ++ ')' :: rest))
      (mark .openParen "(" :: (marks ++ mark .closeParen ")" :: others)) :=
    (h hclosing).sign .openParen
  simpa [Expr.grouped] using hopening

theorem Renders.grouped (h : Renders chars marks) :
    Renders ('(' :: (chars ++ [')'])) (grouped marks) := by
  intro rest others hrest
  simpa using (h.delimits_grouped hrest.lexes).lexes

theorem Renders.append_space (h : Renders chars marks) : Renders (chars ++ [' ']) marks := by
  intro rest others hrest
  rw [List.append_assoc]
  exact h hrest.lexes.space

/-- Braces, the first one with a blank behind it. -/
theorem Renders.braced (h : Renders chars marks) :
    Renders ('\x7b' :: ' ' :: (chars ++ ['\x7d']))
      (mark .openCurly "\x7b" :: (marks ++ [mark .closeCurly "\x7d"])) := by
  intro rest others hrest
  have hclosing : Delimits ('\x7d' :: rest) (mark .closeCurly "\x7d" :: others) :=
    hrest.lexes.sign .closeCurly
  have hopening : Delimits ('\x7b' :: ' ' :: (chars ++ '\x7d' :: rest))
      (mark .openCurly "\x7b" :: _) :=
    (h hclosing).space.lexes.sign .openCurly
  simpa using hopening.lexes

theorem renders_nil : Renders [] [] :=
  fun _ _ hrest => hrest.lexes

theorem renders_separated {α : Type} {items : List α} {charsOf : α → List Char}
    {marksOf : α → List Token} (h : ∀ item ∈ items, Renders (charsOf item) (marksOf item)) :
    Renders ([',', ' '].intercalate (items.map charsOf)) (separated (items.map marksOf)) := by
  induction items with
  | nil => exact renders_nil
  | cons first others ih =>
      obtain ⟨hfirst, hothers⟩ := List.forall_mem_cons.mp h
      cases others with
      | nil => simpa [separated] using hfirst
      | cons second others =>
          intro rest behind hrest
          have hcomma : Delimits _ (mark .comma "," :: _) :=
            (ih hothers hrest).space.lexes.sign .comma
          simpa [separated, List.intercalate_cons_cons] using hfirst hcomma

end

/-! ## Trees -/

namespace Expr

theorem ne_equalsSign_of_class {accept : Char → Bool} {text : String} (hne : text.toList ≠ [])
    (h : ∀ c ∈ text.toList, accept c = true) (hsign : accept '=' = false) :
    ∃ c, text.toList.head? = some c ∧ c ≠ '=' := by
  obtain ⟨first, others, heq⟩ := List.exists_cons_of_ne_nil hne
  refine ⟨first, by rw [heq]; rfl, ?_⟩
  rintro rfl
  rw [h '=' (by rw [heq]; exact List.mem_cons_self)] at hsign
  cases hsign

/-- No text of an expression begins with the sign that may follow in an operator. -/
theorem exists_head?_render :
    ∀ {e : Expr}, e.Legible → ∃ c, e.render.toList.head? = some c ∧ c ≠ '='
  | .identifier name, h => by
      have hsign : isAlphabetic '=' = false := by decide +kernel
      exact ne_equalsSign_of_class h.ne_nil h.isAlphabetic_eq hsign
  | .boolean _ true, _ => ⟨'t', by simp [render], by decide⟩
  | .boolean _ false, _ => ⟨'f', by simp [render], by decide⟩
  | .integer token value, h => ne_equalsSign_of_class h.ne_nil h.isDigit_eq rfl
  | .string token value, _ => ⟨'"', by simp [render], by decide⟩
  | .unary _ operator operand, _ => ⟨'(', by simp [render], by decide⟩
  | .binary _ left operator right, _ => ⟨'(', by simp [render], by decide⟩
  | .conditional _ condition consequence none, _ => ⟨'i', by simp [render], by decide⟩
  | .conditional _ condition consequence (some alternative), _ =>
      ⟨'i', by simp [render], by decide⟩
  | .call _ callee arguments, h => by
      obtain ⟨c, hcallee, hc⟩ := exists_head?_render h.1
      exact ⟨c, by simp [render, hcallee], hc⟩
  | .function ⟨_, name, parameters, none, body⟩, _ =>
      ⟨'f', by simp [render, FunctionDefinition.render], by decide⟩
  | .function ⟨_, name, parameters, some type, body⟩, _ =>
      ⟨'f', by simp [render, FunctionDefinition.render], by decide⟩
termination_by structural e => e

end Expr

/-- Behind a keyword comes a blank. -/
theorem lexes_keyword {word : String} {kind : TokenKind} {rest : List Char} {others : List Token}
    (h : (word, kind) ∈ Word.meanings) (hrest : Lexes rest others) :
    Lexes (word.toList ++ ' ' :: rest) (mark kind word :: others) :=
  renders_of_mem_meanings h hrest.space

theorem Parameter.Legible.renders {parameter : Parameter} (h : parameter.Legible) :
    Renders parameter.render.toList parameter.spelled := by
  intro rest others hrest
  have htype := renders_type h.declaredType (h.name.renders hrest).space
  simpa [Parameter.render, Parameter.spelled] using htype

theorem renders_binary {left right : List Char} {leftMarks rightMarks : List Token}
    {operator : String} (h : operator ∈ binaryOperators.map Prod.fst)
    (hleft : Renders left leftMarks) (hright : Renders right rightMarks) :
    Renders (left ++ ' ' :: (operator.toList ++ ' ' :: right))
      (leftMarks ++ operatorMark operator :: rightMarks) := by
  intro rest others hrest
  have hoperator := lexes_binaryOperator h (hright hrest)
  simpa using hleft hoperator.space

theorem renders_call {callee : List Char} {calleeMarks : List Token} {list : List Char}
    {listMarks : List Token} (hcallee : Renders callee calleeMarks)
    (hlist : Renders list listMarks) :
    Renders (callee ++ '(' :: (list ++ [')'])) (calleeMarks ++ grouped listMarks) := by
  intro rest others hrest
  simpa using hcallee (hlist.delimits_grouped hrest.lexes)

/-- What comes before the body of a function. -/
theorem renders_head {keyword name : String} {kind : TokenKind} {list rest : List Char}
    {listMarks others : List Token} (hkeyword : (keyword, kind) ∈ Word.meanings)
    (hname : IsIdentifier name) (hlist : Renders list listMarks) (hrest : Lexes rest others) :
    Lexes (keyword.toList ++ ' ' :: (name.toList ++ '(' :: (list ++ ')' :: ' ' :: rest)))
      (mark kind keyword :: mark .identifier name :: (grouped listMarks ++ others)) := by
  have hcall := renders_call hname.renders hlist hrest.space
  simpa using lexes_keyword hkeyword hcall

/-- What comes before the first block of a conditional. -/
theorem lexes_condition {condition rest : List Char} {conditionMarks others : List Token}
    (h : Renders condition conditionMarks) (hrest : Lexes rest others) :
    Lexes ("if".toList ++ ' ' :: '(' :: (condition ++ ')' :: ' ' :: rest))
      (mark .kwIf "if" :: (grouped conditionMarks ++ others)) :=
  lexes_keyword (by decide) (h.delimits_grouped hrest.space.lexes).lexes

/-- A legible tree is spelled with its tokens wherever no word and no numeral goes on. -/
theorem legible_renders :
    Hereditary (fun e => e.Legible → Renders e.render.toList e.spelled)
      (fun block => block.Legible → Renders block.render.toList block.spelled)
      (fun definition => definition.Legible →
        Renders definition.render.toList definition.spelled)
      (fun statement => statement.Legible → Renders statement.render.toList statement.spelled) where
  identifier name h := IsIdentifier.renders h
  boolean token value _ := by
    cases value with
    | true => exact renders_of_mem_meanings (show ("true", .trueLiteral) ∈ Word.meanings by decide)
    | false =>
        exact renders_of_mem_meanings (show ("false", .falseLiteral) ∈ Word.meanings by decide)
  integer token value h := IsNumeral.renders h
  string token value h := by
    simpa [Expr.render, Expr.spelled] using renders_string h
  unary token operator operand ih h := by
    obtain ⟨hoperator, hoperand⟩ := h
    obtain ⟨c, hhead, hc⟩ := Expr.exists_head?_render hoperand
    -- An exclamation mark and a sign of equality behind it would be one token.
    have hunary : Renders (operator.toList ++ operand.render.toList)
        (operatorMark operator :: operand.spelled) := by
      intro rest others hrest
      have hnext : (operand.render.toList ++ rest).head? ≠ some '=' := by
        simpa [hhead] using hc
      simpa using lexes_unaryOperator hoperator (ih hoperand hrest) hnext
    simpa [Expr.render, Expr.spelled] using hunary.grouped
  binary token left operator right ihleft ihright h := by
    obtain ⟨hoperator, hleft, hright⟩ := h
    simpa [Expr.render, Expr.spelled] using
      (renders_binary hoperator (ihleft hleft) (ihright hright)).grouped
  conditional token condition consequence ihcondition ihconsequence h := by
    obtain ⟨hcondition, hconsequence⟩ := h
    intro rest others hrest
    have hblock := ihconsequence hconsequence hrest
    simpa [Expr.render, Expr.spelled] using lexes_condition (ihcondition hcondition) hblock
  alternative token condition consequence otherwise ihcondition ihconsequence ihotherwise h := by
    obtain ⟨hcondition, hconsequence, hotherwise⟩ := h
    intro rest others hrest
    have helse := lexes_keyword (show ("else", .kwElse) ∈ Word.meanings by decide)
      (ihotherwise hotherwise hrest)
    have hblock := ihconsequence hconsequence helse.space
    simpa [Expr.render, Expr.spelled] using lexes_condition (ihcondition hcondition) hblock
  call token callee arguments ihcallee iharguments h := by
    obtain ⟨hcallee, harguments⟩ := h
    rw [Expr.legibleAll_iff] at harguments
    have hlist := renders_separated fun argument hmem =>
      iharguments argument hmem (harguments argument hmem)
    simpa [Expr.render, Expr.spelled, Expr.renderAll_eq_map, Expr.spelledAll_eq_map,
      Function.comp_def] using renders_call (ihcallee hcallee) hlist
  function definition ih h := ih h
  block token statements ih h := by
    obtain ⟨hlength, hstatements⟩ := h
    rcases statements with _ | ⟨statement, _ | ⟨second, others⟩⟩
    · simpa [Block.render, renderBody, Stmt.renderAll, Block.spelled, Stmt.spelledAll] using
        renders_nil.braced
    · have hstatement : Renders statement.render.toList statement.spelled :=
        ih statement List.mem_cons_self hstatements.1
      simpa [Block.render, renderBody, Stmt.renderAll, Block.spelled, Stmt.spelledAll] using
        hstatement.append_space.braced
    · simp at hlength
  definition token name parameters returnType body ih h := by
    obtain ⟨hname, hparameters, htype, hbody⟩ := h
    have hlist := renders_separated fun parameter hmem => (hparameters parameter hmem).renders
    intro rest others hrest
    cases returnType with
    | none =>
        have hhead := renders_head (show ("func", .kwFunc) ∈ Word.meanings by decide) hname hlist
          (ih hbody hrest)
        simpa [FunctionDefinition.render, FunctionDefinition.spelled, TypeName.spelledOption,
          Function.comp_def] using hhead
    | some type =>
        have htyped := renders_type (htype type rfl) (ih hbody hrest).space
        have hhead := renders_head (show ("func", .kwFunc) ∈ Word.meanings by decide) hname hlist
          htyped
        simpa [FunctionDefinition.render, FunctionDefinition.spelled, TypeName.spelledOption,
          Function.comp_def] using hhead
  expressionStmt token value ih h := ih h.2
  blockStmt content ih h := ih h
  varStmt token declaredType name value ih h := by
    obtain ⟨htype, hname, hvalue⟩ := h
    intro rest others hrest
    have hsign : Lexes ('=' :: ' ' :: (value.render.toList ++ rest)) (mark .assignment "=" :: _) :=
      (ih hvalue hrest).space.lexes.cons (.assignment (by simp))
    have hdeclaration := renders_type htype (hname.renders hsign.space).space
    simpa [Stmt.render, Stmt.spelled] using
      lexes_keyword (show ("var", .kwVar) ∈ Word.meanings by decide) hdeclaration
  retStmt token value ih h := by
    intro rest others hrest
    simpa [Stmt.render, Stmt.spelled] using
      lexes_keyword (show ("return", .kwReturn) ∈ Word.meanings by decide) (ih h hrest)
  functionStmt definition ih h := ih h
  entrypointStmt token name body ih h := by
    obtain ⟨hname, hbody⟩ := h
    intro rest others hrest
    have hhead := renders_head (show ("efunc", .kwEfunc) ∈ Word.meanings by decide) hname
      renders_nil (ih hbody hrest)
    simpa [Stmt.render, Stmt.spelled] using hhead

/-- Line ends separate the statements of a program. -/
theorem Program.Legible.lexes {program : Program} (h : program.Legible) :
    Lexes program.render.toList program.spelled := by
  obtain ⟨statements⟩ := program
  induction statements with
  | nil => exact lexes_nil
  | cons first others ih =>
      obtain ⟨hfirst, hothers⟩ := List.forall_mem_cons.mp h
      have hline := (ih hothers).lineEnd
      simpa [Program.render, Program.spelled] using legible_renders.stmt first hfirst hline

theorem Lexes.exists_tokenize {text : String} {marks : List Token} (h : Lexes text.toList marks) :
    ∃ tokens last, tokenize text = .ok (tokens ++ [last]) ∧ Token.Alike tokens marks ∧
      last.kind = .endOfInput := by
  obtain ⟨segments, hsegmentation, rfl⟩ := h
  refine ⟨Segment.tokens .start segments, .endAt (Position.start.afterAll text.toList),
    hsegmentation.tokens_eq .start, ?_, rfl⟩
  have hmap := congrArg (List.map fun pair => mark pair.1 pair.2)
    (Segment.map_kind_text_tokens .start segments)
  rw [List.map_map, List.map_map] at hmap
  rw [Token.Alike, List.map_map]
  exact hmap

end LineScript
