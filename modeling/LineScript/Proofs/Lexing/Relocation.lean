import LineScript.Proofs.Lexing.Positions
import Mathlib.Data.List.Forall2

/-!
# Lexing at another place

The readings alone decide what a lexer makes; its place decides only the positions.  So two lexers
that have the same readings in front of them, one at the start of a source and one further on, make
the same results call by call.  The positions of the second are those of the first, counted on
from the place where it began: the first line goes on the line that was reached there, and the
lines behind it only have higher numbers.
-/

namespace LineScript

/-! ## Counting on -/

/-- What is at `fresh` in a text of its own is at `moved` if the text begins at `base`. -/
structure Position.CountsOn (base fresh moved : Position) : Prop where
  base_line_pos : 0 < base.line.toNat
  fresh_line_pos : 0 < fresh.line.toNat
  line_eq : moved.line.toNat + 1 = base.line.toNat + fresh.line.toNat
  column_eq : moved.column.toNat =
    fresh.column.toNat + if fresh.line.toNat = 1 then base.column.toNat else 0

/-- The same token in a text of its own and in a text that begins at `base`. -/
structure Token.CountsOn (base : Position) (fresh moved : Token) : Prop where
  kind_eq : moved.kind = fresh.kind
  text_eq : moved.text = fresh.text
  position : base.CountsOn fresh.position moved.position

/-- The same result of a call: a token, or a failure with the same cause. -/
inductive Lexer.ResultCountsOn (base : Position) :
    Except Diagnostic Token → Except Diagnostic Token → Prop where
  | token {fresh moved : Token} (h : fresh.CountsOn base moved) :
    ResultCountsOn base (.ok fresh) (.ok moved)
  | failure {cause : Cause} {fresh moved : Position} (h : base.CountsOn fresh moved) :
    ResultCountsOn base (.error ⟨cause, fresh⟩) (.error ⟨cause, moved⟩)

namespace Position

variable {base fresh moved : Position}

theorem toNat_column_right {position : Position} (h : position.column.toNat + 1 < UInt32.size) :
    position.right.column.toNat = position.column.toNat + 1 := by
  simp only [UInt32.size] at h
  simp only [right, UInt32.toNat_add, UInt32.reduceToNat]
  omega

theorem toNat_line_nextLine {position : Position} (h : position.line.toNat + 1 < UInt32.size) :
    position.nextLine.line.toNat = position.line.toNat + 1 := by
  simp only [UInt32.size] at h
  simp only [nextLine, UInt32.toNat_add, UInt32.reduceToNat]
  omega

theorem countsOn_start (h : 0 < base.line.toNat) : base.CountsOn .start base := by
  refine ⟨h, by decide, rfl, ?_⟩
  simp [start]

namespace CountsOn

theorem right (h : base.CountsOn fresh moved) (hfits : moved.Fits 1) :
    base.CountsOn fresh.right moved.right := by
  obtain ⟨hbase, hfresh, hline, hcolumn⟩ := h
  have hroom := hfits.column_lt
  have hle : fresh.column.toNat ≤ moved.column.toNat := hcolumn ▸ Nat.le_add_right _ _
  refine ⟨hbase, hfresh, hline, ?_⟩
  rw [toNat_column_right hroom, toNat_column_right (by omega), hcolumn]
  exact Nat.add_right_comm _ _ _

theorem nextLine (h : base.CountsOn fresh moved) (hfits : moved.Fits 1) :
    base.CountsOn fresh.nextLine moved.nextLine := by
  obtain ⟨hbase, hfresh, hline, -⟩ := h
  have hroom := hfits.line_lt
  have hnext := toNat_line_nextLine (show fresh.line.toNat + 1 < UInt32.size by omega)
  have hmoved := toNat_line_nextLine hroom
  refine ⟨hbase, by omega, by omega, ?_⟩
  -- No line behind a line end is the first one.
  rw [if_neg (by omega)]
  rfl

theorem after (h : base.CountsOn fresh moved) (hfits : moved.Fits 1) (c : Char) :
    base.CountsOn (fresh.after c) (moved.after c) := by
  unfold Position.after
  split
  · exact h.nextLine hfits
  · exact h.right hfits

theorem afterAll (h : base.CountsOn fresh moved) {cs : List Char} (hfits : moved.Fits cs.length) :
    base.CountsOn (fresh.afterAll cs) (moved.afterAll cs) := by
  induction cs generalizing fresh moved with
  | nil => exact h
  | cons c cs ih => exact ih (h.after (hfits.mono (by simp)) c) (hfits.after c)

end CountsOn

end Position

/-! ## Room for all that is left -/

/-- How many characters the readings hold, whatever stands between them. -/
def Reading.characters : List Reading → Nat
  | [] => 0
  | .char _ :: rest => characters rest + 1
  | .endOfInput :: rest | .failed _ :: rest => characters rest

theorem Reading.ahead_le_characters (readings : List Reading) :
    ahead readings ≤ characters readings := by
  induction readings with
  | nil => exact Nat.le_refl 0
  | cons reading rest ih =>
      cases reading with
      | char c => exact Nat.succ_le_succ ih
      | endOfInput => exact ih
      | failed failure => exact Nat.zero_le _

theorem Reading.characters_append (readings rest : List Reading) :
    characters (readings ++ rest) = characters readings + characters rest := by
  induction readings with
  | nil => simp [characters]
  | cons reading readings ih =>
      cases reading with
      | char c => rw [List.cons_append, characters, characters, ih, Nat.add_right_comm]
      | endOfInput | failed => exact ih

theorem Reading.characters_map_char (chars : List Char) :
    characters (chars.map .char) = chars.length := by
  induction chars with
  | nil => rfl
  | cons c chars ih => rw [List.map_cons, characters, ih, List.length_cons]

namespace Run

theorem characters_takeWhile (accept : Char → Bool) (readings : List Reading) :
    (takeWhile accept readings).taken.length +
      Reading.characters (takeWhile accept readings).rest = Reading.characters readings := by
  fun_induction takeWhile accept readings with
  | case4 c rest _ ih =>
      simp only [cons, List.length_cons, Reading.characters]
      omega
  | _ => simp [empty, Reading.characters]

theorem characters_through (closing : Char) (readings : List Reading) :
    (through closing readings).taken.length +
      Reading.characters (through closing readings).rest = Reading.characters readings := by
  fun_induction through closing readings with
  | case5 c rest _ ih =>
      simp only [cons, List.length_cons, Reading.characters]
      omega
  | case4 => simp [Reading.characters, Nat.add_comm]
  | _ => simp [empty, Reading.characters]

theorem characters_optional (second : Char) {more : List Reading → Run}
    (h : ∀ readings, (more readings).taken.length + Reading.characters (more readings).rest =
      Reading.characters readings) (readings : List Reading) :
    (optional second more readings).taken.length +
      Reading.characters (optional second more readings).rest = Reading.characters readings := by
  fun_cases optional second more readings with
  | case4 rest =>
      have := h rest
      simp only [cons, List.length_cons, Reading.characters]
      omega
  | _ => simp [empty, Reading.characters]

end Run

/-- A run takes the characters that it does not leave. -/
theorem Opening.characters_run (opening : Opening) (readings : List Reading) :
    (opening.run readings).taken.length + Reading.characters (opening.run readings).rest =
      Reading.characters readings := by
  have hempty : ∀ readings, (Run.empty readings).taken.length +
      Reading.characters (Run.empty readings).rest = Reading.characters readings :=
    fun _ => Nat.zero_add _
  cases opening with
  | slash => exact Run.characters_optional _ (Run.characters_through _) _
  | pair => exact Run.characters_optional _ hempty _
  | directive | digits | word => exact Run.characters_takeWhile _ _
  | quote => exact Run.characters_through _ _
  | sign | lineEnd | blank | unknown => exact hempty _

theorem Position.Fits.afterAll {position : Position} {cs : List Char} {count : Nat}
    (h : position.Fits (cs.length + count)) : (position.afterAll cs).Fits count := by
  induction cs generalizing position with
  | nil => simpa using h
  | cons c cs ih =>
      have hlength : (c :: cs).length + count = cs.length + count + 1 := by
        rw [List.length_cons]
        omega
      exact ih ((hlength ▸ h).after c)

/-- The counters of the lexer can take all characters that it can still read. -/
def Lexer.HasRoom (lexer : Lexer) : Prop :=
  lexer.position.Fits (Reading.characters lexer.readings)

/-! ## One call -/

/-- The same state of a lexer, but for the place. -/
structure Lexer.CountsOn (base : Position) (fresh moved : Lexer) : Prop where
  readings_eq : moved.readings = fresh.readings
  ended_eq : moved.ended = fresh.ended
  position : base.CountsOn fresh.position moved.position

/-- The same outcome of a call, but for the places. -/
structure Lexer.OutcomeCountsOn (base : Position)
    (fresh moved : Except Diagnostic Token × Lexer) : Prop where
  result : ResultCountsOn base fresh.1 moved.1
  lexer : CountsOn base fresh.2 moved.2

namespace Lexer

variable {base fresh moved position : Position} {readings rest : List Reading} {first : Char}

theorem scan_of_blank (h : Opening.ofChar first = .blank) (position : Position)
    (rest : List Reading) :
    scan position (.char first :: rest) = scan (position.after first) rest := by
  rw [scan, h]

theorem hasRoom_scan (h : position.Fits (Reading.characters readings)) :
    (scan position readings).2.HasRoom := by
  induction readings generalizing position with
  | nil => exact h
  | cons reading rest ih =>
      cases reading with
      | endOfInput | failed => exact h
      | char first =>
          have hroom := h.after first
          by_cases hfirst : Opening.ofChar first = .blank
          · rw [scan_of_blank hfirst]
            exact ih hroom
          · rw [scan_of_ne_blank hfirst]
            rw [← (Opening.ofChar first).characters_run rest] at hroom
            exact hroom.afterAll

/-- A call leaves room for the calls behind it, also if it fails. -/
theorem HasRoom.next {lexer : Lexer} (h : lexer.HasRoom) : lexer.next.2.HasRoom := by
  unfold Lexer.next
  split
  · exact h
  · exact hasRoom_scan h

theorem countsOn_endAt (h : base.CountsOn fresh moved) :
    ResultCountsOn base (.ok (.endAt fresh)) (.ok (.endAt moved)) :=
  .token ⟨rfl, rfl, h⟩

theorem scan_lexeme_countsOn (hfirst : Opening.ofChar first ≠ .blank)
    (h : base.CountsOn fresh moved)
    (hfits : moved.Fits (Reading.characters (.char first :: rest))) :
    OutcomeCountsOn base (scan fresh (.char first :: rest)) (scan moved (.char first :: rest)) := by
  rw [Reading.characters, ← (Opening.ofChar first).characters_run rest] at hfits
  have hone : moved.Fits 1 := hfits.mono (by omega)
  have htaken : (moved.after first).Fits ((Opening.ofChar first).run rest).taken.length :=
    (hfits.after first).mono (Nat.le_add_right _ _)
  have hreached := (h.after hone first).afterAll htaken
  -- The run does not depend on the place.
  rw [scan_of_ne_blank hfirst, scan_of_ne_blank hfirst]
  refine ⟨?_, rfl, rfl, hreached⟩
  cases ((Opening.ofChar first).run rest).failure with
  | none => exact .token ⟨rfl, rfl, h.right hone⟩
  | some failure => exact .failure hreached

theorem scan_countsOn (h : base.CountsOn fresh moved)
    (hfits : moved.Fits (Reading.characters readings)) :
    OutcomeCountsOn base (scan fresh readings) (scan moved readings) := by
  induction readings generalizing fresh moved with
  | nil => exact ⟨countsOn_endAt h, rfl, rfl, h⟩
  | cons reading rest ih =>
      cases reading with
      | endOfInput => exact ⟨countsOn_endAt h, rfl, rfl, h⟩
      | failed failure => exact ⟨.failure h, rfl, rfl, h⟩
      | char first =>
          by_cases hfirst : Opening.ofChar first = .blank
          · rw [scan_of_blank hfirst, scan_of_blank hfirst]
            rw [Reading.characters] at hfits
            exact ih (h.after (hfits.mono (by omega)) first) (hfits.after first)
          · exact scan_lexeme_countsOn hfirst h hfits

/-- One call at both places. -/
theorem CountsOn.next {left right : Lexer} (h : CountsOn base left right)
    (hroom : right.HasRoom) : OutcomeCountsOn base left.next right.next := by
  obtain ⟨hreadings, hended, hposition⟩ := h
  unfold Lexer.next
  rw [hended]
  split
  · exact ⟨countsOn_endAt hposition, hreadings, hended, hposition⟩
  · rw [hreadings]
    exact scan_countsOn hposition (hreadings ▸ hroom)

/-! ## Any number of calls -/

/-- The results of the next `count` calls. -/
def results (lexer : Lexer) : Nat → List (Except Diagnostic Token)
  | 0 => []
  | count + 1 => lexer.next.1 :: lexer.next.2.results count

/-- Calls behind other calls begin with the lexer that those have left. -/
theorem results_add_of_eq {lexer behind : Lexer} {count : Nat}
    {given : List (Except Diagnostic Token)} (hresults : lexer.results count = given)
    (hafter : lexer.afterCalls count = behind) (more : Nat) :
    lexer.results (count + more) = given ++ behind.results more := by
  subst hresults hafter
  induction count generalizing lexer with
  | zero => rw [Nat.zero_add, results, afterCalls, List.nil_append]
  | succ count ih => rw [Nat.succ_add, results, results, afterCalls, ih, List.cons_append]

theorem afterCalls_add_of_eq {lexer behind : Lexer} {count : Nat}
    (hafter : lexer.afterCalls count = behind) (more : Nat) :
    lexer.afterCalls (count + more) = behind.afterCalls more := by
  subst hafter
  induction count generalizing lexer with
  | zero => rw [Nat.zero_add, afterCalls]
  | succ count ih => rw [Nat.succ_add, afterCalls, afterCalls, ih]

/-- However often they are called, the two lexers do the same. -/
theorem CountsOn.results {left right : Lexer} (h : CountsOn base left right)
    (hroom : right.HasRoom) (count : Nat) :
    List.Forall₂ (ResultCountsOn base) (left.results count) (right.results count) ∧
      CountsOn base (left.afterCalls count) (right.afterCalls count) := by
  induction count generalizing left right with
  | zero => exact ⟨.nil, h⟩
  | succ count ih =>
      obtain ⟨hresult, hlexer⟩ := h.next hroom
      obtain ⟨hresults, hafter⟩ := ih hlexer hroom.next
      exact ⟨.cons hresult hresults, hafter⟩

end Lexer

end LineScript
