import LineScript.Proofs.Source.Decoding
import LineScript.Source.CharReader

/-!
# The characters of a byte stream

Which bytes encode a character is told by a table: the first byte says how many there are, and
behind four of the first bytes the second one is bounded further, which rules out overlong forms,
surrogates and numbers above the last code point.  The decoder does not follow this table.  It lets
more first bytes pass, takes the bytes that they announce, and checks them at the end.  Still, a
reader hands out exactly the characters of the longest beginning of a stream that the table allows,
and then it meets either the end of the stream or a failure.
-/

namespace LineScript

/-! ## The table of UTF-8 -/

/-- A byte that goes on with a character. -/
def IsTail (value : UInt8) : Prop :=
  0x80 ≤ value ∧ value ≤ 0xBF

/-- The bytes of one character. -/
inductive IsOctets : List UInt8 → Prop where
  | one {first : UInt8} (hfirst : first ≤ 0x7F) : IsOctets [first]
  | two {first second : UInt8} (hfirst : 0xC2 ≤ first ∧ first ≤ 0xDF) (hsecond : IsTail second) :
    IsOctets [first, second]
  | three {first second third : UInt8} (hfirst : 0xE0 ≤ first ∧ first ≤ 0xEF)
    (hsecond : IsTail second) (hthird : IsTail third) (hshortest : first = 0xE0 → 0xA0 ≤ second)
    (hsurrogate : first = 0xED → second ≤ 0x9F) : IsOctets [first, second, third]
  | four {first second third fourth : UInt8} (hfirst : 0xF0 ≤ first ∧ first ≤ 0xF4)
    (hsecond : IsTail second) (hthird : IsTail third) (hfourth : IsTail fourth)
    (hshortest : first = 0xF0 → 0x90 ≤ second) (hlast : first = 0xF4 → second ≤ 0x8F) :
    IsOctets [first, second, third, fourth]

/-- Bytes that are cut into those of characters. -/
def IsUtf8 (bytes : List UInt8) : Prop :=
  ∃ characters : List (List UInt8), (∀ octets ∈ characters, IsOctets octets) ∧
    bytes = characters.flatten

/-- The number that the bytes of a character spell: the low bits of the first byte, and six bits
of every tail. -/
def codePoint : List UInt8 → Nat
  | [first] => first.toNat
  | [first, second] => first.toNat % 32 * 64 + second.toNat % 64
  | [first, second, third] =>
    (first.toNat % 16 * 64 + second.toNat % 64) * 64 + third.toNat % 64
  | [first, second, third, fourth] =>
    ((first.toNat % 8 * 64 + second.toNat % 64) * 64 + third.toNat % 64) * 64 + fourth.toNat % 64
  | _ => 0

theorem isOctets_utf8EncodeChar (c : Char) : IsOctets (String.utf8EncodeChar c) := by
  have hvalid : c.val.toNat < 0xD800 ∨ 0xDFFF < c.val.toNat ∧ c.val.toNat < 0x110000 := c.valid
  fun_cases String.utf8EncodeChar c with
  | case1 =>
    apply IsOctets.one
    simp only [UInt8.le_iff_toNat_le, UInt8.toNat_ofNat', UInt8.reduceToNat]
    omega
  | case2 =>
    apply IsOctets.two <;>
      simp only [IsTail, UInt8.le_iff_toNat_le, UInt8.toNat_ofNat', UInt8.reduceToNat] <;> omega
  | case3 =>
    apply IsOctets.three <;>
      simp only [IsTail, UInt8.le_iff_toNat_le, ← UInt8.toNat_inj, UInt8.toNat_ofNat',
        UInt8.reduceToNat] <;> omega
  | case4 =>
    apply IsOctets.four <;>
      simp only [IsTail, UInt8.le_iff_toNat_le, ← UInt8.toNat_inj, UInt8.toNat_ofNat',
        UInt8.reduceToNat] <;> omega

namespace IsOctets

variable {octets : List UInt8}

/-- The table allows no surrogate and nothing above the last code point. -/
theorem isValidChar_codePoint (h : IsOctets octets) : (codePoint octets).isValidChar := by
  cases h <;>
    simp only [IsTail, UInt8.le_iff_toNat_le, ← UInt8.toNat_inj, UInt8.reduceToNat, codePoint,
      Nat.isValidChar] at * <;> omega

/-- The table allows no overlong form: the bytes are those that encode the number. -/
theorem utf8EncodeChar_eq (h : IsOctets octets) {c : Char}
    (hc : c.val.toNat = codePoint octets) : String.utf8EncodeChar c = octets := by
  cases h <;>
    simp only [IsTail, UInt8.le_iff_toNat_le, ← UInt8.toNat_inj, UInt8.reduceToNat,
      codePoint] at * <;>
    fun_cases String.utf8EncodeChar c <;>
    simp only [List.cons.injEq, ← UInt8.toNat_inj, UInt8.toNat_ofNat', and_true, reduceCtorEq,
      and_false] <;> omega

theorem exists_utf8EncodeChar_eq (h : IsOctets octets) :
    ∃ c, String.utf8EncodeChar c = octets :=
  ⟨Char.ofNatAux (codePoint octets) h.isValidChar_codePoint, h.utf8EncodeChar_eq rfl⟩

end IsOctets

theorem isUtf8_encode (text : List Char) : IsUtf8 (encode text) := by
  refine ⟨text.map String.utf8EncodeChar, ?_, List.flatMap_def⟩
  intro octets hoctets
  obtain ⟨c, -, rfl⟩ := List.mem_map.mp hoctets
  exact isOctets_utf8EncodeChar c

theorem IsUtf8.exists_eq_encode {bytes : List UInt8} (h : IsUtf8 bytes) :
    ∃ text, bytes = encode text := by
  obtain ⟨characters, hcharacters, rfl⟩ := h
  induction characters with
  | nil => exact ⟨[], rfl⟩
  | cons octets others ih =>
      obtain ⟨hoctets, hothers⟩ := List.forall_mem_cons.mp hcharacters
      obtain ⟨c, rfl⟩ := hoctets.exists_utf8EncodeChar_eq
      obtain ⟨text, htext⟩ := ih hothers
      exact ⟨c :: text, by rw [List.flatten_cons, htext, encode_cons]⟩

/-! ## The longest text -/

theorem isMalformed_nil : IsMalformed [] := by
  intro c hbegins
  exact String.utf8EncodeChar_ne_nil (List.prefix_nil.mp hbegins)

namespace IsLongestText

variable {text other : List Char} {bytes : List UInt8}

theorem unique (h : IsLongestText text bytes) (hother : IsLongestText other bytes) :
    other = text := by
  have hle := h.isPrefix_of_encode other hother.isPrefix_encode
  have hge := hother.isPrefix_of_encode text h.isPrefix_encode
  exact hle.eq_of_length (Nat.le_antisymm hle.length_le hge.length_le)

theorem eq_of_eq_encode (h : IsLongestText text bytes) (hbytes : bytes = encode other) :
    other = text := by
  have hother := isMalformed_nil.isLongestText other
  rw [List.append_nil, ← hbytes] at hother
  exact h.unique hother

/-- Whatever the table allows at the beginning of the bytes is part of the longest text. -/
theorem isPrefix_of_isUtf8 (h : IsLongestText text bytes) {octets : List UInt8}
    (hoctets : IsUtf8 octets) (hbegins : octets <+: bytes) : octets <+: encode text := by
  obtain ⟨other, rfl⟩ := hoctets.exists_eq_encode
  obtain ⟨behind, rfl⟩ := h.isPrefix_of_encode other hbegins
  exact ⟨encode behind, List.flatMap_append.symm⟩

end IsLongestText

/-! ## Reading again and again -/

/-- What a read makes of a reading. -/
def Reading.outcome : Reading → Except ReadFailure (Option Char)
  | char c => .ok (some c)
  | endOfInput => .ok none
  | failed failure => .error failure

namespace CharReader

/-- The results of the next `count` reads. -/
def results (reader : CharReader) : Nat → List (Except ReadFailure (Option Char))
  | 0 => []
  | count + 1 => reader.read.1 :: reader.read.2.results count

theorem exists_read_cons (reading : Reading) (rest : List Reading) (last : Option Char) :
    ∃ kept, (CharReader.mk (reading :: rest) last false).read =
      (reading.outcome, ⟨rest, kept, false⟩) := by
  cases reading with
  | char c => exact ⟨some c, rfl⟩
  | endOfInput => exact ⟨none, rfl⟩
  | failed failure => exact ⟨last, rfl⟩

/-- Readings are handed out in their order. -/
theorem exists_results_append (readings rest : List Reading) (last : Option Char) (more : Nat) :
    ∃ kept, (CharReader.mk (readings ++ rest) last false).results (readings.length + more) =
      readings.map Reading.outcome ++ (CharReader.mk rest kept false).results more := by
  induction readings generalizing last with
  | nil => exact ⟨last, by simp⟩
  | cons reading others ih =>
      obtain ⟨next, hread⟩ := exists_read_cons reading (others ++ rest) last
      obtain ⟨kept, hresults⟩ := ih next
      refine ⟨kept, ?_⟩
      rw [List.length_cons, Nat.add_right_comm, List.cons_append, results, hread, hresults]
      rfl

/-- At the end of its source a reader stays there. -/
theorem results_replicate_endOfInput (count : Nat) (last : Option Char) (more : Nat) :
    (CharReader.mk (List.replicate count .endOfInput) last false).results more =
      List.replicate more (.ok none) := by
  induction more generalizing count last with
  | zero => rfl
  | succ more ih =>
      have hread : (CharReader.mk (List.replicate count .endOfInput) last false).read =
          (.ok none, ⟨List.replicate (count - 1) .endOfInput, none, false⟩) := by
        cases count <;> rfl
      rw [results, hread, ih]
      rfl

end CharReader

/-- However the bytes of a stream are cut, and however often it is interrupted: the reads give the
characters of the longest beginning that the table of UTF-8 allows, and no others.  If this is all
of the stream, then every further read meets its end, and if not, the next read fails.  So what
encodes a text is read as this text. -/
theorem results_delivered {reads : List Read} {content : List UInt8} (h : Delivers reads content) :
    ∃ text,
      (encode text <+: content ∧ IsUtf8 (encode text) ∧
        ∀ octets, IsUtf8 octets → octets <+: content → octets <+: encode text) ∧
      (∀ other, content = encode other → other = text) ∧
      ∀ ends : List Read, (∀ read ∈ ends, read.IsIdle) →
        let reader := CharReader.ofReadings (Reading.ofReads (reads ++ ends))
        let characters : List (Except ReadFailure (Option Char)) := text.map fun c => .ok (some c)
        (content = encode text → ∀ more,
          reader.results (text.length + more) = characters ++ List.replicate more (.ok none)) ∧
        (content ≠ encode text →
          reader.results (text.length + 1) = characters ++ [.error .notUtf8]) := by
  obtain ⟨text, rest, rfl, hrest⟩ := exists_encode_append content
  have hlongest := hrest.isLongestText text
  have houtcome : (text.map Reading.char).map Reading.outcome =
      text.map fun c => .ok (some c) := List.map_map
  refine ⟨text, ⟨hlongest.isPrefix_encode, isUtf8_encode text, fun octets hoctets hbegins =>
    hlongest.isPrefix_of_isUtf8 hoctets hbegins⟩, fun other => hlongest.eq_of_eq_encode,
    fun ends hends => ⟨fun hall more => ?_, fun hmore => ?_⟩⟩
  · have hnil : rest = [] := List.append_right_eq_self.mp hall
    rw [hnil, List.append_nil] at h
    obtain ⟨count, hreadings⟩ := h.exists_ofReads_of_isIdle hends
    obtain ⟨kept, hresults⟩ := CharReader.exists_results_append (text.map .char)
      (List.replicate count .endOfInput) none more
    rw [List.length_map, houtcome, CharReader.results_replicate_endOfInput] at hresults
    rw [CharReader.ofReadings, hreadings, hresults]
  · have hne : rest ≠ [] := fun hnil => hmore (by rw [hnil, List.append_nil])
    obtain ⟨behind, hreadings⟩ := h.exists_ofReads_of_isMalformed hne hrest hends
    obtain ⟨kept, hresults⟩ := CharReader.exists_results_append (text.map .char)
      (.failed .notUtf8 :: behind) none 1
    rw [List.length_map, houtcome] at hresults
    rw [CharReader.ofReadings, hreadings, hresults]
    rfl

/-- Characters of three and of four bytes, cut where neither begins. -/
def cutSigns : List Read :=
  [.bytes [0xE2], .interrupted, .bytes [0x82, 0xAC, 0xF0, 0x9F], .bytes [0x98, 0x80]]

/-- A letter, and then three bytes that would encode a surrogate. -/
def surrogateBehindLetter : List Read :=
  [.bytes [0x61, 0xED], .bytes [0xA0, 0x80]]

theorem results_delivered_signs :
    Delivers cutSigns [0xE2, 0x82, 0xAC, 0xF0, 0x9F, 0x98, 0x80] ∧
      (CharReader.ofReadings (Reading.ofReads (cutSigns ++ [.bytes []]))).results 4 =
        [.ok (some '€'), .ok (some '😀'), .ok none, .ok none] ∧
      Delivers surrogateBehindLetter [0x61, 0xED, 0xA0, 0x80] ∧
      ∃ text, encode text <+: [0x61, 0xED, 0xA0, 0x80] ∧
        (CharReader.ofReadings (Reading.ofReads (surrogateBehindLetter ++ []))).results
            (text.length + 1) =
          (text.map fun c => .ok (some c)) ++ [.error .notUtf8] := by
  have hcut : Delivers cutSigns [0xE2, 0x82, 0xAC, 0xF0, 0x9F, 0x98, 0x80] :=
    .bytes 0xE2 [] (.interrupted (.bytes 0x82 [0xAC, 0xF0, 0x9F] (.bytes 0x98 [0x80] .nil)))
  have hlone : Delivers surrogateBehindLetter [0x61, 0xED, 0xA0, 0x80] :=
    .bytes 0x61 [0xED] (.bytes 0xA0 [0x80] .nil)
  have hsigns : [0xE2, 0x82, 0xAC, 0xF0, 0x9F, 0x98, 0x80] = encode ['€', '😀'] := by decide
  have hnone : String.fromUTF8? [0x61, 0xED, 0xA0, 0x80].toByteArray = none := by rfl
  obtain ⟨signs, -, hunique, hreads⟩ := results_delivered hcut
  obtain rfl := hunique ['€', '😀'] hsigns
  obtain ⟨text, hbegins, -, hfails⟩ := results_delivered hlone
  exact ⟨hcut, (hreads [.bytes []] (by decide)).1 hsigns 2, hlone, text, hbegins.1,
    (hfails [] (by simp)).2 (ne_encode_of_fromUTF8?_eq_none hnone text)⟩

end LineScript
