import LineScript.Source.Reading

/-!
# Decoding a byte stream

A stream delivers its bytes in pieces, and interruptions leave no trace, so it does not matter
how the bytes are cut.  The bytes are decoded as UTF-8: first come the characters whose
encodings they begin with, and what is left then begins with no encoding of a character and is
a failure.  That a character is taken by the width that its first byte announces, and checked
only afterwards, makes no difference to this.
-/

namespace LineScript

/-! ## Delivery -/

/-- The reads deliver the bytes, cut into pieces in any way and with any interruptions. -/
inductive Delivers : List Read → List UInt8 → Prop where
  | nil : Delivers [] []
  | bytes {reads : List Read} {content : List UInt8} (first : UInt8) (others : List UInt8)
    (h : Delivers reads content) :
    Delivers (.bytes (first :: others) :: reads) (first :: others ++ content)
  | interrupted {reads : List Read} {content : List UInt8} (h : Delivers reads content) :
    Delivers (.interrupted :: reads) content

/-- A read that delivers nothing, be it because the stream is at its end or interrupted. -/
def Read.IsIdle (read : Read) : Prop :=
  read = .bytes [] ∨ read = .interrupted

instance (read : Read) : Decidable read.IsIdle :=
  inferInstanceAs (Decidable (_ ∨ _))

theorem byteEvents_append (reads more : List Read) :
    byteEvents (reads ++ more) = byteEvents reads ++ byteEvents more :=
  List.flatMap_append

theorem Delivers.byteEvents_eq {reads : List Read} {content : List UInt8}
    (h : Delivers reads content) : byteEvents reads = content.map .byte := by
  induction h with
  | nil => rfl
  | bytes first others _ ih => simp_all [byteEvents, Read.events]
  | interrupted _ ih => simpa [byteEvents, Read.events] using ih

theorem exists_byteEvents_of_isIdle {ends : List Read} (h : ∀ read ∈ ends, read.IsIdle) :
    ∃ count, byteEvents ends = List.replicate count .endOfInput := by
  induction ends with
  | nil => exact ⟨0, rfl⟩
  | cons read others ih =>
      obtain ⟨hread, hothers⟩ := List.forall_mem_cons.mp h
      obtain ⟨count, hcount⟩ := ih hothers
      rcases hread with rfl | rfl
      · exact ⟨count + 1, by simpa [byteEvents, Read.events, List.replicate_succ] using hcount⟩
      · exact ⟨count, by simpa [byteEvents, Read.events] using hcount⟩

/-! ## Well-formed bytes -/

/-- The UTF-8 encoding of characters. -/
def encode (text : List Char) : List UInt8 :=
  text.flatMap String.utf8EncodeChar

/-- The bytes begin with the encoding of no character. -/
def IsMalformed (bytes : List UInt8) : Prop :=
  ∀ c, ¬ String.utf8EncodeChar c <+: bytes

/-- The text is the longest one whose encoding the bytes begin with. -/
structure IsLongestText (text : List Char) (bytes : List UInt8) : Prop where
  isPrefix_encode : encode text <+: bytes
  isPrefix_of_encode : ∀ other, encode other <+: bytes → other <+: text

theorem encode_cons (c : Char) (text : List Char) :
    encode (c :: text) = String.utf8EncodeChar c ++ encode text :=
  List.flatMap_cons

theorem length_le_length_encode (text : List Char) : text.length ≤ (encode text).length := by
  induction text with
  | nil => exact Nat.le_refl 0
  | cons c others ih =>
      have hpos := c.utf8Size_pos
      rw [encode_cons, List.length_cons, List.length_append, String.length_utf8EncodeChar]
      omega

theorem toByteArray_encode (text : List Char) : (encode text).toByteArray = text.utf8Encode :=
  rfl

/-- The first character of a text is the only one whose encoding its encoding begins with. -/
theorem eq_of_utf8EncodeChar_append {c d : Char} {rest behind : List UInt8}
    (h : String.utf8EncodeChar c ++ rest = String.utf8EncodeChar d ++ behind) : c = d := by
  have hbytes := congrArg List.toByteArray h
  rw [List.toByteArray_append, List.toByteArray_append] at hbytes
  have hdecode := congrArg (ByteArray.utf8DecodeChar? · 0) hbytes
  simpa only [ByteArray.utf8DecodeChar?_utf8EncodeChar_append, Option.some.injEq] using hdecode

/-- Every list of bytes is the encoding of a text and a malformed rest, which may be empty. -/
theorem exists_encode_append (bytes : List UInt8) :
    ∃ text rest, bytes = encode text ++ rest ∧ IsMalformed rest := by
  induction hlength : bytes.length using Nat.strongRecOn generalizing bytes with
  | _ length ih =>
      by_cases h : IsMalformed bytes
      · exact ⟨[], bytes, rfl, h⟩
      · simp only [IsMalformed, Classical.not_forall, Classical.not_not] at h
        obtain ⟨c, behind, rfl⟩ := h
        have hpos : 0 < (String.utf8EncodeChar c).length := by
          rw [String.length_utf8EncodeChar]
          exact c.utf8Size_pos
        obtain ⟨text, rest, rfl, hrest⟩ :=
          ih behind.length (by rw [← hlength, List.length_append]; omega) behind rfl
        exact ⟨c :: text, rest, by rw [encode_cons, List.append_assoc], hrest⟩

/-- In front of malformed bytes a text is the longest one that is encoded. -/
theorem IsMalformed.isLongestText {rest : List UInt8} (h : IsMalformed rest) (text : List Char) :
    IsLongestText text (encode text ++ rest) := by
  refine ⟨List.prefix_append _ _, fun other hother => ?_⟩
  induction text generalizing other with
  | nil =>
      cases other with
      | nil => exact List.nil_prefix
      | cons c others =>
          rw [encode_cons] at hother
          exact absurd ((List.prefix_append _ _).trans hother) (h c)
  | cons c text ih =>
      cases other with
      | nil => exact List.nil_prefix
      | cons d others =>
          obtain ⟨behind, hbehind⟩ := hother
          rw [encode_cons, encode_cons, List.append_assoc, List.append_assoc] at hbehind
          obtain rfl := eq_of_utf8EncodeChar_append hbehind
          exact List.prefix_cons_inj d |>.mpr
            (ih others ⟨behind, List.append_cancel_left hbehind⟩)

/-- A text that the bytes can be decoded to is encoded by them. -/
theorem eq_encode_of_fromUTF8? {content : List UInt8} {text : String}
    (h : String.fromUTF8? content.toByteArray = some text) : content = encode text.toList := by
  unfold String.fromUTF8? at h
  split at h
  · rename_i hvalid
    rw [← Option.some.inj h, ← List.toByteArray_inj, toByteArray_encode, String.utf8Encode_toList]
    rfl
  · cases h

/-- Bytes that cannot be decoded encode no text. -/
theorem ne_encode_of_fromUTF8?_eq_none {content : List UInt8}
    (h : String.fromUTF8? content.toByteArray = none) (text : List Char) :
    content ≠ encode text := by
  rintro rfl
  unfold String.fromUTF8? at h
  rw [dif_pos (.intro text (toByteArray_encode text))] at h
  cases h

namespace Reading

/-! ## Characters -/

theorem announcedWidth_pos (lead : UInt8) : 0 < announcedWidth lead := by
  unfold announcedWidth
  repeat' split
  all_goals decide

/-- The first byte of an encoding announces its length. -/
theorem announcedWidth_utf8EncodeChar (c : Char) :
    (String.utf8EncodeChar c).head?.map announcedWidth =
      some (String.utf8EncodeChar c).length := by
  fun_cases String.utf8EncodeChar c <;>
    simp only [List.head?_cons, Option.map_some, announcedWidth, UInt8.lt_iff_toNat_lt,
      UInt8.toNat_ofNat', UInt8.reduceToNat] <;>
    repeat' split
  all_goals first | rfl | omega

/-- A byte completes a character if it is the last one that is announced. -/
theorem decode_byte {pending others : List UInt8} {value : UInt8} {width : Nat}
    (h : (pending ++ value :: others).head?.map announcedWidth = some width)
    (events : List ByteEvent) :
    decode pending (.byte value :: events) =
      if width ≤ pending.length + 1 then ofBytes (pending ++ [value]) :: decode [] events
      else decode (pending ++ [value]) events := by
  cases pending with
  | nil =>
      obtain rfl := Option.some.inj h
      simp [decode, isComplete]
  | cons lead pending =>
      obtain rfl := Option.some.inj h
      simp [decode, isComplete]

/-- Bytes that are fewer than announced are kept. -/
theorem decode_of_lt (pending : List UInt8) {bytes : List UInt8} {width : Nat}
    (h : (pending ++ bytes).head?.map announcedWidth = some width)
    (hlength : (pending ++ bytes).length < width) (events : List ByteEvent) :
    decode pending (bytes.map .byte ++ events) = decode (pending ++ bytes) events := by
  induction bytes generalizing pending with
  | nil => simp
  | cons value others ih =>
      have hshort : ¬ width ≤ pending.length + 1 := by
        rw [List.length_append, List.length_cons] at hlength
        omega
      rw [List.map_cons, List.cons_append, decode_byte h, if_neg hshort]
      rw [List.append_cons pending value others] at h hlength ⊢
      exact ih _ h hlength

/-- Bytes that are as many as announced are taken together. -/
theorem decode_of_eq (pending : List UInt8) {bytes : List UInt8} (hne : bytes ≠ [])
    (h : (pending ++ bytes).head?.map announcedWidth = some (pending ++ bytes).length)
    (events : List ByteEvent) :
    decode pending (bytes.map .byte ++ events) =
      ofBytes (pending ++ bytes) :: decode [] events := by
  induction bytes generalizing pending with
  | nil => exact absurd rfl hne
  | cons value others ih =>
      rw [List.map_cons, List.cons_append, decode_byte h]
      cases others with
      | nil => simp
      | cons next others =>
          have hshort : ¬ (pending ++ value :: next :: others).length ≤ pending.length + 1 := by
            simp
          rw [if_neg hshort]
          rw [List.append_cons pending value (next :: others)] at h ⊢
          exact ih _ (by simp) h

theorem ofBytes_utf8EncodeChar (c : Char) : ofBytes (String.utf8EncodeChar c) = char c := by
  have h : (String.utf8EncodeChar c).toByteArray.utf8DecodeChar? 0 = some c := by
    rw [← List.utf8Encode_singleton]
    exact List.utf8DecodeChar?_utf8Encode_singleton
  rw [ofBytes, h]

theorem ofBytes_of_isMalformed {bytes : List UInt8} (h : IsMalformed bytes) :
    ofBytes bytes = failed .notUtf8 := by
  unfold ofBytes
  cases hdecode : bytes.toByteArray.utf8DecodeChar? 0 with
  | none => rfl
  | some c =>
      obtain ⟨behind, hbehind⟩ := ByteArray.exists_of_utf8DecodeChar?_eq_some hdecode
      have hlist := congrArg (·.data.toList) hbehind
      simp only [ByteArray.data_append, Array.toList_append, List.toList_data_toByteArray] at hlist
      exact absurd ⟨_, hlist.symm⟩ (h c)

/-- The encoding of a text is decoded to the text, whatever comes behind it. -/
theorem decode_encode (text : List Char) (events : List ByteEvent) :
    decode [] ((encode text).map .byte ++ events) = text.map char ++ decode [] events := by
  induction text with
  | nil => rfl
  | cons c others ih =>
      have hdecode := decode_of_eq [] String.utf8EncodeChar_ne_nil
        (announcedWidth_utf8EncodeChar c) ((encode others).map .byte ++ events)
      rw [encode_cons, List.map_append, List.append_assoc, hdecode, List.nil_append,
        ofBytes_utf8EncodeChar, ih]
      rfl

/-- Malformed bytes in front of the end of a stream are a failure. -/
theorem exists_decode_of_isMalformed {bytes : List UInt8} (hne : bytes ≠ [])
    (h : IsMalformed bytes) (count : Nat) :
    ∃ more, decode [] (bytes.map .byte ++ List.replicate count .endOfInput) =
      failed .notUtf8 :: more := by
  obtain ⟨lead, others, rfl⟩ := List.exists_cons_of_ne_nil hne
  by_cases hshort : (lead :: others).length < announcedWidth lead
  · -- The stream ends before the announced bytes have come.
    rw [decode_of_lt [] rfl hshort]
    cases count with
    | zero => exact ⟨_, rfl⟩
    | succ count => exact ⟨_, rfl⟩
  · -- The announced bytes have come, and they encode nothing.
    obtain ⟨width, hwidth⟩ : ∃ width, announcedWidth lead = width + 1 :=
      Nat.exists_eq_add_one.mpr (announcedWidth_pos lead)
    rw [List.length_cons, hwidth] at hshort
    rw [← List.take_append_drop width others] at h ⊢
    have hlength : (others.take width).length = width := List.length_take_of_le (by omega)
    have hmalformed : IsMalformed (lead :: others.take width) := fun c hbegins =>
      h c (List.IsPrefix.trans hbegins (List.prefix_append _ _))
    rw [← List.cons_append, List.map_append, List.append_assoc,
      decode_of_eq [] (by simp) (by simp [hwidth, hlength]), List.nil_append,
      ofBytes_of_isMalformed hmalformed]
    exact ⟨_, rfl⟩

theorem decode_replicate_endOfInput (count : Nat) :
    decode [] (List.replicate count .endOfInput) = List.replicate count .endOfInput := by
  induction count with
  | zero => rfl
  | succ count ih => simp [List.replicate_succ, decode, ih]

end Reading

/-! ## Readings of a stream -/

variable {reads : List Read} {text : List Char}

/-- The readings of a stream that delivers the bytes of a text and then something else. -/
theorem Delivers.ofReads_append {rest : List UInt8}
    (h : Delivers reads (encode text ++ rest)) (more : List Read) :
    Reading.ofReads (reads ++ more) =
      text.map .char ++ Reading.decode [] (rest.map .byte ++ byteEvents more) := by
  rw [Reading.ofReads, byteEvents_append, h.byteEvents_eq, List.map_append, List.append_assoc,
    Reading.decode_encode]

/-- The readings of a stream that delivers a text and ends. -/
theorem Delivers.exists_ofReads_of_isIdle {ends : List Read} (h : Delivers reads (encode text))
    (hends : ∀ read ∈ ends, read.IsIdle) :
    ∃ count,
      Reading.ofReads (reads ++ ends) = text.map .char ++ List.replicate count .endOfInput := by
  obtain ⟨count, hcount⟩ := exists_byteEvents_of_isIdle hends
  rw [← List.append_nil (encode text)] at h
  refine ⟨count, ?_⟩
  rw [h.ofReads_append, hcount, List.map_nil, List.nil_append,
    Reading.decode_replicate_endOfInput]

/-- The readings of a stream that ends behind bytes that begin no text. -/
theorem Delivers.exists_ofReads_of_isMalformed {rest : List UInt8} {ends : List Read}
    (h : Delivers reads (encode text ++ rest)) (hne : rest ≠ []) (hrest : IsMalformed rest)
    (hends : ∀ read ∈ ends, read.IsIdle) :
    ∃ more, Reading.ofReads (reads ++ ends) = text.map .char ++ .failed .notUtf8 :: more := by
  obtain ⟨count, hcount⟩ := exists_byteEvents_of_isIdle hends
  obtain ⟨more, hmore⟩ := Reading.exists_decode_of_isMalformed hne hrest count
  exact ⟨more, by rw [h.ofReads_append, hcount, hmore]⟩

/-- The readings of a stream that fails behind a text. -/
theorem Delivers.exists_ofReads_failed (h : Delivers reads (encode text)) (reason : String)
    (more : List Read) :
    ∃ behind, Reading.ofReads (reads ++ .failed reason :: more) =
      text.map .char ++ .failed (.device reason) :: behind := by
  rw [← List.append_nil (encode text)] at h
  exact ⟨_, h.ofReads_append _⟩

end LineScript
