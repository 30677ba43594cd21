import LineScript.Text.Decimal
import Mathlib.Data.List.Basic
import Mathlib.Data.Nat.Digits.Defs

/-!
# Decimal integers are read exactly

A text writes an integer if it consists of digits, of which any number may be leading zeros, and at
most one sign in front of them.  Reading accepts these texts and no others, and it gives a 64-bit
integer exactly for those whose integer is in range.
-/

namespace LineScript

namespace Decimal

variable {chars : List Char} {value : Nat}

/-- The characters are decimal digits, at least one, and denote the number.  The last digit counts
once, the one before it ten times, and so on. -/
def Spells (chars : List Char) (value : Nat) : Prop :=
  ∃ digits : List Nat, digits ≠ [] ∧ (∀ digit ∈ digits, digit < 10) ∧
    chars = digits.map Nat.digitChar ∧ value = Nat.ofDigits 10 digits.reverse

/-- The characters write the integer: a sign or none, and digits. -/
inductive Writes : List Char → Int → Prop where
  | unsigned {chars : List Char} {value : Nat} (h : Spells chars value) : Writes chars value
  | plus {chars : List Char} {value : Nat} (h : Spells chars value) : Writes ('+' :: chars) value
  | minus {chars : List Char} {value : Nat} (h : Spells chars value) :
    Writes ('-' :: chars) (-value)

/-! ## Digits -/

theorem isDigit_digitChar {digit : Nat} (h : digit < 10) : digit.digitChar.isDigit = true := by
  have hall : ∀ digit < 10, digit.digitChar.isDigit = true := by decide
  exact hall digit h

/-- Every ASCII digit is the digit of a number below ten. -/
theorem digitChar_sub {c : Char} (h : c.isDigit = true) :
    c.toNat - '0'.toNat < 10 ∧ (c.toNat - '0'.toNat).digitChar = c := by
  obtain ⟨hge, hle⟩ := Char.isDigit_iff_toNat.mp h
  have hzero : '0'.toNat = 48 := rfl
  have hnine : '9'.toNat = 57 := rfl
  have hlt : c.toNat - '0'.toNat < 10 := by omega
  refine ⟨hlt, Char.toNat_inj.mp ?_⟩
  rw [Nat.toNat_digitChar_of_lt_ten hlt]
  omega

theorem exists_digits (h : chars.all Char.isDigit = true) :
    ∃ digits : List Nat, (∀ digit ∈ digits, digit < 10) ∧ chars = digits.map Nat.digitChar := by
  rw [List.all_eq_true] at h
  refine ⟨chars.map fun c => c.toNat - '0'.toNat, ?_, ?_⟩
  · rw [List.forall_mem_map]
    exact fun c hc => (digitChar_sub (h c hc)).1
  · rw [List.map_map]
    calc chars = chars.map id := (List.map_id chars).symm
      _ = chars.map (Nat.digitChar ∘ fun c => c.toNat - '0'.toNat) :=
        List.map_congr_left fun c hc => (digitChar_sub (h c hc)).2.symm

/-- The value of digits is what they denote. -/
theorem valueOfDigits_map_digitChar {digits : List Nat} (h : ∀ digit ∈ digits, digit < 10) :
    valueOfDigits (digits.map Nat.digitChar) = Nat.ofDigits 10 digits.reverse := by
  rw [valueOfDigits, List.foldl_map, Nat.ofDigits_eq_foldr, List.foldr_reverse]
  apply List.foldl_ext
  intro value digit hdigit
  have hzero : '0'.toNat = 48 := rfl
  rw [Nat.toNat_digitChar_of_lt_ten (h digit hdigit), Nat.cast_id]
  omega

theorem readNat?_eq_some_iff : readNat? chars = some value ↔ Spells chars value := by
  unfold readNat?
  constructor
  · intro h
    split at h
    next hdigits =>
      obtain ⟨digits, hlt, rfl⟩ := exists_digits hdigits.2
      rw [valueOfDigits_map_digitChar hlt, Option.some_inj] at h
      exact ⟨digits, by simpa using hdigits.1, hlt, rfl, h.symm⟩
    next => cases h
  · rintro ⟨digits, hne, hlt, rfl, rfl⟩
    have hdigits : (digits.map Nat.digitChar).all Char.isDigit = true := by
      simpa using fun digit hdigit => isDigit_digitChar (hlt digit hdigit)
    rw [if_pos ⟨by simpa using hne, hdigits⟩, valueOfDigits_map_digitChar hlt]

/-! ## Signs -/

/-- Digits do not begin with a sign. -/
theorem Spells.ne_cons {c : Char} {others : List Char} (h : Spells chars value)
    (hc : c.isDigit = false) : chars ≠ c :: others := by
  obtain ⟨digits, -, hlt, rfl, -⟩ := h
  intro heq
  obtain ⟨digit, rest, rfl, rfl, -⟩ := List.map_eq_cons_iff.mp heq
  rw [isDigit_digitChar (hlt digit List.mem_cons_self)] at hc
  cases hc

theorem readInt?_of_spells (h : Spells chars value) : readInt? chars = some (value : Int) := by
  unfold readInt?
  split
  next => exact absurd rfl (h.ne_cons (by decide))
  next => exact absurd rfl (h.ne_cons (by decide))
  next => simp [readNat?_eq_some_iff.mpr h]

/-- Reading accepts exactly the texts that write an integer. -/
theorem readInt?_eq_some_iff {chars : List Char} {value : Int} :
    readInt? chars = some value ↔ Writes chars value := by
  constructor
  · intro h
    unfold readInt? at h
    split at h
    next digits =>
      obtain ⟨natural, hread, rfl⟩ := Option.map_eq_some_iff.mp h
      exact .plus (readNat?_eq_some_iff.mp hread)
    next digits =>
      obtain ⟨natural, hread, rfl⟩ := Option.map_eq_some_iff.mp h
      exact .minus (readNat?_eq_some_iff.mp hread)
    next =>
      obtain ⟨natural, hread, rfl⟩ := Option.map_eq_some_iff.mp h
      exact .unsigned (readNat?_eq_some_iff.mp hread)
  · intro h
    cases h with
    | unsigned hspells => exact readInt?_of_spells hspells
    | plus hspells => simp [readInt?, readNat?_eq_some_iff.mpr hspells]
    | minus hspells => simp [readInt?, readNat?_eq_some_iff.mpr hspells]

end Decimal

/-! ## The range of 64-bit integers -/

/-- The text writes the integer, which is in the range of 64-bit integers. -/
structure WritesInt64 (text : String) (value : Int) : Prop where
  writes : Decimal.Writes text.toList value
  ge : -9223372036854775808 ≤ value
  le : value ≤ 9223372036854775807

theorem readInt64?_eq_some {text : String} {value : Int} (h : WritesInt64 text value) :
    readInt64? text = some (Int64.ofInt value) := by
  have hmin : Int64.minValue.toInt = -9223372036854775808 := rfl
  have hmax : Int64.maxValue.toInt = 9223372036854775807 := rfl
  simp only [readInt64?, Decimal.readInt?_eq_some_iff.mpr h.writes]
  rw [if_pos ⟨hmin ▸ h.ge, hmax ▸ h.le⟩]

theorem WritesInt64.toInt_ofInt {text : String} {value : Int} (h : WritesInt64 text value) :
    (Int64.ofInt value).toInt = value :=
  Int64.toInt_ofInt_of_le (by have := h.ge; omega) (by have := h.le; omega)

/-- An integer is read from a text exactly if the text writes it and it is in range. -/
theorem writesInt64_of_readInt64? {text : String} {word : Int64} (h : readInt64? text = some word) :
    WritesInt64 text word.toInt := by
  unfold readInt64? at h
  split at h
  next value hread =>
    split at h
    next hrange =>
      have hwrites : WritesInt64 text value :=
        ⟨Decimal.readInt?_eq_some_iff.mp hread, hrange.1, hrange.2⟩
      obtain rfl := Option.some_inj.mp h
      rwa [hwrites.toInt_ofInt]
    next => cases h
  next => cases h

theorem readInt64?_eq_none_iff {text : String} :
    readInt64? text = none ↔ ∀ value, ¬WritesInt64 text value := by
  constructor
  · intro h value hwrites
    rw [readInt64?_eq_some hwrites] at h
    cases h
  · intro h
    rw [Option.eq_none_iff_forall_ne_some]
    exact fun word hread => h _ (writesInt64_of_readInt64? hread)

end LineScript
