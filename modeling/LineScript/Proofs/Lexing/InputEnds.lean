import LineScript.Proofs.Lexing.Relocation
import LineScript.Proofs.Lexing.Streams

/-!
# Going on behind an end of input

A stream may go on behind an end of its input.  The call that meets such an end between two lexemes
makes the last token of it and remembers it.  A lexeme that could still go on meets it first: the
lexeme ends there, the end is used up, and the next call reads on behind it.  So the first end of
input is the last one, unless a lexeme that could go on stands right in front of it and the stream
goes on right behind it.
-/

namespace LineScript

/-- A longer lexeme begins with the spelling.  So it is for a word, a number, a directive, a comment
or a string that is still open, and the signs that another sign can join. -/
def IsExtensible (spelling : List Char) : Prop :=
  ∃ more kind text, more ≠ [] ∧ Lexeme (spelling ++ more) [] kind text

/-- The characters end with a lexeme that could go on. -/
def EndsExtensible (chars : List Char) : Prop :=
  ∃ before last, Segmentation chars (before ++ [last]) ∧
    Segment.source (before ++ [last]) = chars ∧ IsExtensible last.spelling

/-- Whoever asks the reads for the next byte meets an end of input. -/
def IsExhausted (reads : List Read) : Prop :=
  ∀ event ∈ (byteEvents reads).head?, event = .endOfInput

instance (reads : List Read) : Decidable (IsExhausted reads) :=
  inferInstanceAs (Decidable (∀ event ∈ (byteEvents reads).head?, event = .endOfInput))

/-! ## The lexeme in front of the end -/

section Lexeme

variable {first : Char} {taken : List Char} {kind : TokenKind} {text : String}

theorem isExtensible_of_isDigit {digits : List Char} (h : ∀ c ∈ digits, c.isDigit = true) :
    IsExtensible digits := by
  have hmore : ∀ c ∈ ['0'], c.isDigit = true := List.forall_mem_singleton.mpr rfl
  exact ⟨['0'], _, _, by simp,
    .integer (by simp) (List.forall_mem_append.mpr ⟨h, hmore⟩) (by simp [EndsBefore])⟩

/-- A lexeme at the end of the characters could go on, or its run ends with it whatever comes
behind. -/
theorem Lexeme.isExtensible_or_run (h : Lexeme (first :: taken) [] kind text) :
    IsExtensible (first :: taken) ∨
      ∀ tail, (Opening.ofChar first).run (taken.map .char ++ tail) = ⟨taken, none, tail⟩ := by
  cases h with
  | sign hsign =>
      right
      intro tail
      rw [Opening.ofChar_of_isSign hsign]
      rfl
  | lineEnd => exact .inr fun _ => rfl
  | comment hbody =>
      right
      intro tail
      rw [show Opening.ofChar '/' = .slash from rfl]
      simp [Opening.run, Run.optional, Run.cons, Run.through_of_mem hbody]
  | lastComment hbody => exact .inl ⟨['\n'], _, _, by simp, .comment hbody⟩
  | equals => exact .inr fun _ => rfl
  | notEquals => exact .inr fun _ => rfl
  | slash _ => exact .inl ⟨['/'], _, _, by simp, .lastComment List.not_mem_nil⟩
  | assignment _ => exact .inl ⟨['='], _, _, by simp, .equals⟩
  | exclamation _ => exact .inl ⟨['='], _, _, by simp, .notEquals⟩
  | directive hbody hrest =>
      have hmore : ∀ c ∈ ['@'], isBlank c = false := List.forall_mem_singleton.mpr rfl
      exact .inl ⟨['@'], _, _, by simp,
        .directive (List.forall_mem_append.mpr ⟨hbody, hmore⟩) hrest⟩
  | string hbody =>
      right
      intro tail
      rw [show Opening.ofChar '"' = .quote from rfl]
      simp [Opening.run, Run.through_of_mem hbody]
  | openString hbody => exact .inl ⟨['"'], _, _, by simp, .string hbody⟩
  | integer _ hdigits _ => exact .inl (isExtensible_of_isDigit hdigits)
  | word _ hletters hrest =>
      have hmore : ∀ c ∈ ['a'], isAlphabetic c = true := List.forall_mem_singleton.mpr rfl
      exact .inl ⟨['a'], _, _, by simp,
        .word (by simp) (List.forall_mem_append.mpr ⟨hletters, hmore⟩) hrest⟩
  | stray hstray =>
      right
      intro tail
      rw [Opening.ofChar_of_isStray hstray]
      rfl

/-- A lexeme that could go on meets an end of input behind it and uses it up. -/
theorem IsExtensible.run_endOfInput (hmore : IsExtensible (first :: taken))
    (h : Lexeme (first :: taken) [] kind text) (tail : List Reading) :
    (Opening.ofChar first).run (taken.map .char ++ .endOfInput :: tail) = ⟨taken, none, tail⟩ := by
  obtain ⟨_, _, heq, htakes⟩ := h.exists_takes
  obtain ⟨rfl, rfl⟩ := List.cons.inj heq
  rcases htakes.run_append with hrun | ⟨-, hrun⟩
  · -- A run that ends with the lexeme would not take the longer lexeme.
    obtain ⟨more, _, _, hne, hlonger⟩ := hmore
    obtain ⟨_, _, hcons, hlongerTakes⟩ := hlonger.exists_takes
    rw [List.cons_append] at hcons
    obtain ⟨rfl, rfl⟩ := List.cons.inj hcons
    have hshort := hrun (more.map .char)
    have hlong := hlongerTakes.run_eq
    rw [List.append_nil, List.map_append] at hlong
    rw [List.append_nil, hlong] at hshort
    obtain ⟨htaken, -, -⟩ := Run.mk.inj hshort
    exact absurd (List.append_right_eq_self.mp htaken) hne
  · exact hrun (.endOfInput :: tail) (haveEnded_endOfInput tail)

end Lexeme

/-! ## The text in front of the end -/

section Text

variable {blanks spelling rest chars : List Char} {kind : TokenKind} {text : String}
variable {segments : List Segment}

theorem not_endsExtensible_of_isSeparator (hblanks : ∀ c ∈ blanks, IsSeparator c) :
    ¬ EndsExtensible blanks := by
  rintro ⟨before, last, hsegments, -, -⟩
  have hnil := (Segmentation.nil hblanks).unique hsegments
  exact absurd hnil (by simp)

theorem endsExtensible_iff_of_lexeme (hblanks : ∀ c ∈ blanks, IsSeparator c)
    (hlexeme : Lexeme spelling rest kind text) :
    EndsExtensible (blanks ++ (spelling ++ rest)) ↔
      rest = [] ∧ IsExtensible spelling ∨ EndsExtensible rest := by
  constructor
  · rintro ⟨before, last, hsegments, hsource, hmore⟩
    obtain ⟨others, hrest⟩ := Segmentation.exists_segmentation rest
    have hall := (Segmentation.cons hblanks hlexeme hrest).unique hsegments
    cases before with
    | nil =>
        obtain ⟨rfl, -⟩ := List.cons.inj hall
        left
        simpa [Segment.source, eq_comm] using And.intro hsource hmore
    | cons segment before =>
        rw [List.cons_append] at hall hsource
        obtain ⟨rfl, rfl⟩ := List.cons.inj hall
        rw [Segment.source_cons, List.append_assoc, List.append_cancel_left_eq,
          List.append_cancel_left_eq] at hsource
        exact .inr ⟨before, last, hrest, hsource, hmore⟩
  · rintro (⟨rfl, hmore⟩ | ⟨before, last, hrest, hsource, hmore⟩)
    · exact ⟨[], _, .cons hblanks hlexeme (.nil (List.forall_mem_nil _)), by simp [Segment.source],
        hmore⟩
    · exact ⟨⟨blanks, spelling, kind, text⟩ :: before, last, .cons hblanks hlexeme hrest,
        by simp [Segment.source_cons, hsource], hmore⟩

theorem endsExtensible_of_isDigit {digits : List Char} (hne : digits ≠ [])
    (hdigits : ∀ c ∈ digits, c.isDigit = true) : EndsExtensible digits := by
  have hlexeme : Lexeme digits [] .integer (String.ofList digits) :=
    .integer hne hdigits (by simp [EndsBefore])
  have hiff := endsExtensible_iff_of_lexeme (List.forall_mem_nil IsSeparator) hlexeme
  rw [List.nil_append, List.append_nil] at hiff
  exact hiff.mpr (.inl ⟨rfl, isExtensible_of_isDigit hdigits⟩)

/-- The call that reads the last lexeme uses up the end of input if the lexeme could go on, and
leaves it to the next call if not. -/
theorem Lexer.exists_next_endOfInput (hblanks : ∀ c ∈ blanks, IsSeparator c)
    (hlexeme : Lexeme spelling [] kind text) (position : Position) (tail : List Reading) :
    ∃ left,
      (IsExtensible spelling ∧ left = tail ∨
        ¬ IsExtensible spelling ∧ left = .endOfInput :: tail) ∧
      (Lexer.mk ((blanks ++ spelling).map .char ++ .endOfInput :: tail) position false).next =
        (.ok ⟨kind, text, (position.afterAll blanks).right⟩,
          ⟨left, position.afterAll (blanks ++ spelling), false⟩) := by
  obtain ⟨first, taken, rfl, htakes⟩ := hlexeme.exists_takes
  rw [List.map_append, List.append_assoc]
  by_cases hmore : IsExtensible (first :: taken)
  · have hrun := hmore.run_endOfInput hlexeme tail
    exact ⟨tail, .inl ⟨hmore, rfl⟩, next_of_run hblanks htakes hrun position⟩
  · have hrun := hlexeme.isExtensible_or_run.resolve_left hmore (.endOfInput :: tail)
    exact ⟨_, .inr ⟨hmore, rfl⟩, next_of_run hblanks htakes hrun position⟩

theorem Lexer.tokens_of_head?_eq_endOfInput {readings : List Reading}
    (h : ∀ reading ∈ readings.head?, reading = .endOfInput) (position : Position) :
    (Lexer.mk readings position false).tokens = .ok [.endAt position] := by
  cases readings with
  | nil => exact tokens_of_next_endAt rfl
  | cons reading rest =>
      obtain rfl := h reading rfl
      exact tokens_of_next_endAt rfl

/-- Behind the tokens of a text come those that are made of what is left: all that comes behind the
end of input if the text ends with a lexeme that could go on, and if not, the end as well. -/
theorem Segmentation.exists_tokens_endOfInput (h : Segmentation chars segments)
    (position : Position) (tail : List Reading) :
    ∃ left,
      (EndsExtensible chars ∧ left = tail ∨ ¬ EndsExtensible chars ∧ left = .endOfInput :: tail) ∧
      (Lexer.mk (chars.map .char ++ .endOfInput :: tail) position false).tokens =
        (Lexer.mk left (position.afterAll chars) false).tokens.map
          (Segment.tokens position segments ++ ·) := by
  induction h generalizing position with
  | @nil blanks hblanks =>
      have hnext : (Lexer.mk (blanks.map .char ++ .endOfInput :: tail) position false).next =
          (.ok (.endAt (position.afterAll blanks)), ⟨tail, position.afterAll blanks, true⟩) := by
        rw [Lexer.next, if_neg (by simp), Lexer.scan_of_isSeparator hblanks, Lexer.scan]
      refine ⟨_, .inr ⟨not_endsExtensible_of_isSeparator hblanks, rfl⟩, ?_⟩
      rw [Lexer.tokens_of_next_endAt hnext, Lexer.tokens_of_head?_eq_endOfInput (by simp)]
      rfl
  | @cons blanks spelling rest kind text segments hblanks hlexeme hrest ih =>
      have hiff := endsExtensible_iff_of_lexeme hblanks hlexeme
      by_cases hlast : rest = []
      · subst hlast
        obtain rfl := hrest.eq_nil
        obtain ⟨left, hleft, hnext⟩ := Lexer.exists_next_endOfInput hblanks hlexeme position tail
        have hnil : ¬ EndsExtensible [] := not_endsExtensible_of_isSeparator (by simp)
        simp only [hnil, true_and, or_false] at hiff
        rw [hiff, List.append_nil]
        exact ⟨left, hleft, Lexer.tokens_of_next hnext hlexeme.kind_ne_endOfInput⟩
      · rcases Lexer.next_append_of_lexeme position hblanks hlexeme
          (haveEnded_endOfInput tail) with hnext | ⟨hnil, -⟩
        · obtain ⟨left, hleft, htokens⟩ := ih (position.afterAll (blanks ++ spelling))
          simp only [hlast, false_and, false_or] at hiff
          rw [hiff]
          refine ⟨left, hleft, ?_⟩
          rw [Lexer.tokens_of_next hnext hlexeme.kind_ne_endOfInput, htokens,
            ← Position.afterAll_append, List.append_assoc]
          cases (Lexer.mk left _ false).tokens <;> rfl
        · exact absurd hnil hlast

end Text

/-! ## What comes behind the end -/

namespace Lexer

variable {position : Position} {readings : List Reading}

/-- A token that is made of readings that begin with a character stands further right. -/
theorem haveEnded_or_column_lt {token : Token} {behind : Lexer}
    (hfits : position.Fits (Reading.characters readings))
    (h : scan position readings = (.ok token, behind)) :
    HaveEnded readings ∧ token.position = position ∨
      position.column.toNat < token.position.column.toNat := by
  induction readings generalizing position with
  | nil =>
      obtain ⟨hok, -⟩ := Prod.mk.inj h
      obtain rfl := Except.ok.inj hok
      exact .inl ⟨by simp [HaveEnded], rfl⟩
  | cons reading rest ih =>
      cases reading with
      | endOfInput =>
          obtain ⟨hok, -⟩ := Prod.mk.inj h
          obtain rfl := Except.ok.inj hok
          exact .inl ⟨haveEnded_endOfInput rest, rfl⟩
      | failed failure =>
          obtain ⟨hok, -⟩ := Prod.mk.inj h
          cases hok
      | char first =>
          right
          have hright := Position.toNat_column_right
            (hfits.mono (show 1 ≤ Reading.characters (.char first :: rest) from
              Nat.le_add_left 1 _)).column_lt
          by_cases hfirst : Opening.ofChar first = .blank
          · have hafter : position.after first = position.right :=
              if_neg (Opening.ne_lineEnd_of_ofChar_eq_blank hfirst)
            rw [scan_of_blank hfirst, hafter] at h
            have hroom : position.right.Fits (Reading.characters rest) := hafter ▸ hfits.after first
            rcases ih hroom h with ⟨-, htoken⟩ | hlt
            · rw [htoken]
              omega
            · omega
          · rw [scan_of_ne_blank hfirst] at h
            obtain ⟨hok, -⟩ := Prod.mk.inj h
            split at hok
            · cases hok
            · obtain rfl := Except.ok.inj hok
              exact hright ▸ Nat.lt_succ_self _

theorem exists_next_of_tokens_eq {lexer : Lexer} {token : Token}
    (h : lexer.tokens = .ok [token]) : ∃ behind, lexer.next = (.ok token, behind) := by
  rw [tokens] at h
  split at h
  · cases h
  · rename_i first rest hnext
    split at h
    · obtain ⟨rfl, -⟩ := List.cons.inj (Except.ok.inj h)
      exact ⟨rest, hnext⟩
    · cases hothers : rest.tokens with
      | error diagnostic =>
          rw [hothers] at h
          cases h
      | ok others =>
          rw [hothers] at h
          obtain ⟨rfl, -⟩ := List.cons.inj (Except.ok.inj h)
          exact ⟨rest, hnext⟩

/-- A lexer makes nothing but the last token, at its own position, exactly if no reading comes or
the first one is an end of input. -/
theorem tokens_eq_endAt_iff (hfits : position.Fits (Reading.characters readings)) :
    (Lexer.mk readings position false).tokens = .ok [.endAt position] ↔
      ∀ reading ∈ readings.head?, reading = .endOfInput := by
  refine ⟨fun htokens => ?_, fun h => tokens_of_head?_eq_endOfInput h position⟩
  obtain ⟨behind, hscan⟩ := exists_next_of_tokens_eq htokens
  rw [next, if_neg (by simp)] at hscan
  rcases haveEnded_or_column_lt hfits hscan with ⟨hended, -⟩ | hlt
  · intro reading hreading
    obtain ⟨rest, rfl⟩ := List.head?_eq_some_iff.mp hreading
    cases reading with
    | char c => exact absurd rfl (hended c)
    | endOfInput => rfl
    | failed failure =>
        obtain ⟨hok, -⟩ := Prod.mk.inj hscan
        cases hok
  · exact absurd hlt (Nat.lt_irrefl _)

end Lexer

theorem map_append_eq_ok_iff {front behind : List Token}
    {result : Except Diagnostic (List Token)} :
    result.map (front ++ ·) = .ok (front ++ behind) ↔ result = .ok behind := by
  cases result with
  | error diagnostic => exact ⟨nofun, nofun⟩
  | ok tokens =>
      constructor
      · intro h
        rw [List.append_cancel_left (Except.ok.inj h)]
      · rintro ⟨⟩
        rfl

/-- In front of an end of input a text makes its own tokens and nothing more, exactly if it does
not end with a lexeme that could go on, or the next reading is not there or ends the input again. -/
theorem Segmentation.tokens_endOfInput_iff {chars : List Char} {segments : List Segment}
    {position : Position} {tail : List Reading} (h : Segmentation chars segments)
    (hfits : (position.afterAll chars).Fits (Reading.characters tail)) :
    (Lexer.mk (chars.map .char ++ .endOfInput :: tail) position false).tokens =
        .ok (Segment.tokens position segments ++ [.endAt (position.afterAll chars)]) ↔
      (EndsExtensible chars → ∀ reading ∈ tail.head?, reading = .endOfInput) := by
  obtain ⟨left, hleft, htokens⟩ := h.exists_tokens_endOfInput position tail
  rw [htokens, map_append_eq_ok_iff]
  rcases hleft with ⟨hmore, rfl⟩ | ⟨hmore, rfl⟩
  · rw [Lexer.tokens_eq_endAt_iff hfits]
    exact ⟨fun hends _ => hends, fun hends => hends hmore⟩
  · exact ⟨fun _ hends => absurd hends hmore,
      fun _ => Lexer.tokens_of_head?_eq_endOfInput (by simp) _⟩

/-! ## Streams that go on -/

namespace Reading

theorem ofBytes_ne_endOfInput (bytes : List UInt8) : ofBytes bytes ≠ .endOfInput := by
  unfold ofBytes
  split <;> simp

theorem endOfInput_notMem_decode {events : List ByteEvent} (h : .endOfInput ∉ events)
    (pending : List UInt8) : .endOfInput ∉ decode pending events := by
  induction events generalizing pending with
  | nil =>
      unfold decode
      split <;> simp
  | cons event events ih =>
      rw [List.mem_cons, not_or] at h
      cases event with
      | byte value =>
          unfold decode
          split
          · rw [List.mem_cons, not_or]
            exact ⟨(ofBytes_ne_endOfInput _).symm, ih h.2 _⟩
          · exact ih h.2 _
      | endOfInput => exact absurd rfl h.1
      | failed reason =>
          rw [decode, List.mem_cons, not_or]
          exact ⟨by simp, ih h.2 _⟩

/-- An end of input behind the events is read as one, or it breaks off a character as the end of
the events does. -/
theorem decode_append_endOfInput (pending : List UInt8) (events more : List ByteEvent) :
    decode pending (events ++ .endOfInput :: more) =
        decode pending events ++ .endOfInput :: decode [] more ∨
      .failed .notUtf8 ∈ decode pending events ∧
        decode pending (events ++ .endOfInput :: more) =
          decode pending events ++ decode [] more := by
  induction events generalizing pending with
  | nil =>
      by_cases hpending : pending = []
      · exact .inl (by simp [decode, hpending])
      · exact .inr (by simp [decode, hpending])
  | cons event events ih =>
      cases event with
      | byte value =>
          rw [List.cons_append]
          by_cases hcomplete : isComplete (pending ++ [value]) = true
          · simp only [decode, if_pos hcomplete]
            rcases ih [] with heq | ⟨hmem, heq⟩
            · exact .inl (by rw [heq, List.cons_append])
            · exact .inr ⟨List.mem_cons_of_mem _ hmem, by rw [heq, List.cons_append]⟩
          · simp only [decode, if_neg hcomplete]
            exact ih _
      | endOfInput | failed reason =>
          rw [List.cons_append]
          simp only [decode]
          rcases ih [] with heq | ⟨hmem, heq⟩
          · exact .inl (by rw [heq, List.cons_append])
          · exact .inr ⟨List.mem_cons_of_mem _ hmem, by rw [heq, List.cons_append]⟩

/-- A character that has begun is the next reading, be it broken off. -/
theorem exists_head?_decode {pending : List UInt8} (h : pending ≠ []) (events : List ByteEvent) :
    ∃ reading, (decode pending events).head? = some reading ∧ reading ≠ .endOfInput := by
  induction events generalizing pending with
  | nil => exact ⟨.failed .notUtf8, by simp [decode, h], by simp⟩
  | cons event events ih =>
      cases event with
      | byte value =>
          by_cases hcomplete : isComplete (pending ++ [value]) = true
          · exact ⟨_, by rw [decode, if_pos hcomplete, List.head?_cons], ofBytes_ne_endOfInput _⟩
          · rw [decode, if_neg hcomplete]
            exact ih (by simp)
      | endOfInput => exact ⟨.failed .notUtf8, by simp [decode, h], by simp⟩
      | failed reason => exact ⟨_, rfl, by simp⟩

theorem head?_decode_eq_endOfInput_iff (events : List ByteEvent) :
    (∀ reading ∈ (decode [] events).head?, reading = .endOfInput) ↔
      ∀ event ∈ events.head?, event = .endOfInput := by
  cases events with
  | nil => simp [decode]
  | cons event events =>
      cases event with
      | byte value =>
          obtain ⟨reading, hhead, hne⟩ :
              ∃ reading, (decode [] (.byte value :: events)).head? = some reading ∧
                reading ≠ .endOfInput := by
            by_cases hcomplete : isComplete [value] = true
            · exact ⟨_, by simp [decode, hcomplete], ofBytes_ne_endOfInput [value]⟩
            · rw [decode, List.nil_append, if_neg hcomplete]
              exact exists_head?_decode (by simp) events
          simp [hhead, hne]
      | endOfInput => simp [decode]
      | failed reason => simp [decode]

theorem ofReads_append_endOfInput (before after : List Read) :
    ofReads (before ++ .bytes [] :: after) = ofReads before ++ .endOfInput :: ofReads after ∨
      .failed .notUtf8 ∈ ofReads before ∧
        ofReads (before ++ .bytes [] :: after) = ofReads before ++ ofReads after := by
  rw [ofReads, byteEvents_append]
  exact decode_append_endOfInput [] (byteEvents before) (byteEvents after)

theorem exists_ofReads_append_endOfInput (before after : List Read) :
    ∃ behind, ofReads (before ++ .bytes [] :: after) = ofReads before ++ behind := by
  rcases ofReads_append_endOfInput before after with heq | ⟨-, heq⟩ <;> exact ⟨_, heq⟩

theorem endOfInput_notMem_ofReads {reads : List Read} (h : .bytes [] ∉ reads) :
    .endOfInput ∉ ofReads reads := by
  refine endOfInput_notMem_decode (fun hmem => ?_) []
  obtain ⟨read, hread, hevent⟩ := List.mem_flatMap.mp hmem
  have hend : read = .bytes [] := by
    unfold Read.events at hevent
    split at hevent <;> simp_all
  exact h (hend ▸ hread)

/-- Readings without an end of input are characters up to a failure, or up to their end. -/
theorem exists_eq_map_char_or_failed {readings : List Reading} (h : .endOfInput ∉ readings) :
    ∃ text : List Char, readings = text.map .char ∨
      ∃ failure more, readings = text.map .char ++ .failed failure :: more := by
  induction readings with
  | nil => exact ⟨[], .inl rfl⟩
  | cons reading rest ih =>
      rw [List.mem_cons, not_or] at h
      cases reading with
      | char c =>
          obtain ⟨text, rfl | ⟨failure, more, rfl⟩⟩ := ih h.2
          · exact ⟨c :: text, .inl rfl⟩
          · exact ⟨c :: text, .inr ⟨failure, more, rfl⟩⟩
      | endOfInput => exact absurd rfl h.1
      | failed failure => exact ⟨[], .inr ⟨failure, rest, rfl⟩⟩

end Reading

/-- Behind a text the first end of input is the last one, exactly if the text does not end with a
lexeme that could go on, or nothing comes right behind the end. -/
theorem tokenizeReads_endOfInput_iff_of_text {before after : List Read} {text : List Char}
    (htext : Reading.ofReads before = text.map .char)
    (hlength : Reading.characters (Reading.ofReads (before ++ .bytes [] :: after)) <
      UInt32.size - 1) :
    tokenizeReads (before ++ .bytes [] :: after) = tokenizeReads before ↔
      (EndsExtensible text → IsExhausted after) := by
  have hfull : Reading.ofReads (before ++ .bytes [] :: after) =
      text.map .char ++ .endOfInput :: Reading.ofReads after := by
    rcases Reading.ofReads_append_endOfInput before after with heq | ⟨hmem, -⟩
    · rw [heq, htext]
    · simp [htext] at hmem
  rw [hfull, Reading.characters_append, Reading.characters_map_char] at hlength
  obtain ⟨segments, hsegments⟩ := Segmentation.exists_segmentation text
  have hplain : tokenizeReads before =
      .ok (Segment.tokens .start segments ++ [.endAt (Position.start.afterAll text)]) := by
    rw [tokenizeReads, htext]
    exact hsegments.tokens_eq .start
  rw [hplain, tokenizeReads, hfull, IsExhausted, ← Reading.head?_decode_eq_endOfInput_iff]
  exact hsegments.tokens_endOfInput_iff (Position.Fits.start hlength).afterAll

/-- Behind a failure nothing is read, and no end of input either. -/
theorem tokenizeReads_endOfInput_of_failed {before after : List Read} {text : List Char}
    {failure : ReadFailure} {more : List Reading}
    (h : Reading.ofReads before = text.map .char ++ .failed failure :: more) :
    tokenizeReads (before ++ .bytes [] :: after) = tokenizeReads before := by
  obtain ⟨behind, hbehind⟩ := Reading.exists_ofReads_append_endOfInput before after
  rw [h, List.append_assoc, List.cons_append] at hbehind
  rw [tokenizeReads_of_failed h, tokenizeReads_of_failed hbehind]

/-- The first end of input of a stream is the last one, exactly if the characters in front of it do
not end with a lexeme that could go on, or nothing comes right behind it: no byte and no failure.
If the stream fails in front of it, there are no tokens, whatever comes behind. -/
theorem tokenizeReads_endOfInput_iff {before after : List Read} (hbefore : .bytes [] ∉ before)
    (hlength : Reading.characters (Reading.ofReads (before ++ .bytes [] :: after)) <
      UInt32.size - 1) :
    PushBackLexer.tokensOfReads (before ++ .bytes [] :: after) =
        some (tokenizeReads (before ++ .bytes [] :: after)) ∧
      PushBackLexer.tokensOfReads before = some (tokenizeReads before) ∧
      (tokenizeReads (before ++ .bytes [] :: after) = tokenizeReads before ↔
        ∀ text, Reading.ofReads before = text.map .char → EndsExtensible text →
          IsExhausted after) := by
  obtain ⟨behind, hbehind⟩ := Reading.exists_ofReads_append_endOfInput before after
  have hshort : Reading.characters (Reading.ofReads before) < UInt32.size - 1 := by
    rw [hbehind, Reading.characters_append] at hlength
    omega
  refine ⟨PushBackLexer.tokensOfReads_of_ahead_lt
    (Nat.lt_of_le_of_lt (Reading.ahead_le_characters _) hlength),
    PushBackLexer.tokensOfReads_of_ahead_lt
      (Nat.lt_of_le_of_lt (Reading.ahead_le_characters _) hshort), ?_⟩
  obtain ⟨text, htext | ⟨failure, more, hfailed⟩⟩ :=
    Reading.exists_eq_map_char_or_failed (Reading.endOfInput_notMem_ofReads hbefore)
  · rw [tokenizeReads_endOfInput_iff_of_text htext hlength]
    constructor
    · intro h other hother hmore
      have hinjective := List.map_injective_iff.mpr fun _ _ => Reading.char.inj
      obtain rfl : text = other := hinjective (htext.symm.trans hother)
      exact h hmore
    · exact fun h hmore => h text htext hmore
  · refine ⟨fun _ other hother => ?_, fun _ => tokenizeReads_endOfInput_of_failed hfailed⟩
    rw [hfailed] at hother
    have hmem : Reading.failed failure ∈ other.map Reading.char := hother ▸ by simp
    simp at hmem

/-- The digits of a number. -/
def twelve : List Read :=
  [.bytes [0x31, 0x32]]

/-- More digits. -/
def thirtyFour : List Read :=
  [.bytes [0x33, 0x34]]

/-- Digits are read right behind an end of input inside a number, but not behind two. -/
theorem tokenizeReads_endOfInput_iff_twelve :
    .bytes [] ∉ twelve ∧
      Reading.characters (Reading.ofReads (twelve ++ .bytes [] :: thirtyFour)) <
        UInt32.size - 1 ∧
      Reading.characters (Reading.ofReads
        (twelve ++ .bytes [] :: .interrupted :: .bytes [] :: thirtyFour)) < UInt32.size - 1 ∧
      tokenizeReads (twelve ++ .bytes [] :: thirtyFour) ≠ tokenizeReads twelve ∧
      tokenizeReads (twelve ++ .bytes [] :: .interrupted :: .bytes [] :: thirtyFour) =
        tokenizeReads twelve := by
  have htwelve : .bytes [] ∉ twelve := by decide
  have hone : Reading.characters (Reading.ofReads (twelve ++ .bytes [] :: thirtyFour)) <
      UInt32.size - 1 := by decide
  have htwo : Reading.characters (Reading.ofReads
      (twelve ++ .bytes [] :: .interrupted :: .bytes [] :: thirtyFour)) < UInt32.size - 1 := by
    decide
  obtain ⟨-, -, hgoesOn⟩ := tokenizeReads_endOfInput_iff htwelve hone
  obtain ⟨-, -, hends⟩ := tokenizeReads_endOfInput_iff htwelve htwo
  refine ⟨htwelve, hone, htwo, fun heq => ?_, hends.mpr fun _ _ _ => by decide⟩
  have htext : Reading.ofReads twelve = ['1', '2'].map .char := by decide
  have hdigits : ∀ c ∈ ['1', '2'], c.isDigit = true :=
    List.forall_mem_cons.mpr ⟨rfl, List.forall_mem_singleton.mpr rfl⟩
  have hexhausted := hgoesOn.mp heq _ htext (endsExtensible_of_isDigit (by simp) hdigits)
  exact absurd hexhausted (by decide)

/-- The stream that goes on has two numbers, and the one that ends has one. -/
theorem tokenizeReads_endOfInput_inside_number :
    tokenizeReads twelve = .ok [⟨.integer, "12", ⟨1, 1⟩⟩, .endAt ⟨1, 2⟩] ∧
      tokenizeReads (twelve ++ .bytes [] :: thirtyFour) =
        .ok [⟨.integer, "12", ⟨1, 1⟩⟩, ⟨.integer, "34", ⟨1, 3⟩⟩, .endAt ⟨1, 4⟩] ∧
      ¬ ∀ before after : List Read, .bytes [] ∉ before →
        tokenizeReads (before ++ .bytes [] :: after) = tokenizeReads before := by
  have hends : tokenizeReads twelve = .ok [⟨.integer, "12", ⟨1, 1⟩⟩, .endAt ⟨1, 2⟩] := by
    decide +kernel
  have hgoesOn : tokenizeReads (twelve ++ .bytes [] :: thirtyFour) =
      .ok [⟨.integer, "12", ⟨1, 1⟩⟩, ⟨.integer, "34", ⟨1, 3⟩⟩, .endAt ⟨1, 4⟩] := by
    decide +kernel
  refine ⟨hends, hgoesOn, fun h => ?_⟩
  have heq := h twelve thirtyFour (by decide)
  rw [hends, hgoesOn] at heq
  exact absurd heq (by decide)

end LineScript
