import StonePlus.Js.TextEncoder
import StonePlus.Kiro.Chunking

/-!
# StonePlus.Kiro.FrameEncoding

The AWS Event Stream layout, as a sender writes it, and the parser as its inverse.

`encodeFrame` writes a twelve-byte prelude, the headers, the payload and a checksum; a
frame that is too long for its own length field has no encoding.  `parseHeaders` is
followed header by header (`parseHeaders_encode`), and every block it accepts is made of
whole headers (`parseHeaders_within`).
-/

namespace StonePlus.Kiro

open Lib

/-! ## Integers -/

/-- The lowest `width` bytes of a number, the highest first. -/
def bigEndianBytes : Nat → Nat → Bytes
  | 0, _ => []
  | width + 1, n => bigEndianBytes width (n / 0x100) ++ [UInt8.ofNat n]

@[simp] theorem length_bigEndianBytes (width n : Nat) : (bigEndianBytes width n).length = width := by
  induction width generalizing n with
  | zero => rfl
  | succ width ih => rw [bigEndianBytes, List.length_append, ih, List.length_singleton]

theorem bigEndian_append (bytes : Bytes) (last : UInt8) :
    bigEndian (bytes ++ [last]) = bigEndian bytes * 0x100 + last.toNat := by
  rw [bigEndian, List.foldl_append]
  rfl

/-- A number is read back from its bytes, as far as they reach. -/
theorem bigEndian_bigEndianBytes (width n : Nat) :
    bigEndian (bigEndianBytes width n) = n % 0x100 ^ width := by
  induction width generalizing n with
  | zero => simp [bigEndianBytes, bigEndian, Nat.mod_one]
  | succ width ih =>
      have hpow : 0x100 ^ (width + 1) = 0x100 * 0x100 ^ width := Nat.pow_succ'
      rw [bigEndianBytes, bigEndian_append, ih, UInt8.toNat_ofNat', hpow, Nat.mod_mul]
      omega

theorem bigEndianBytes_add (front width n : Nat) :
    bigEndianBytes (front + width) n =
      bigEndianBytes front (n / 0x100 ^ width) ++ bigEndianBytes width n := by
  induction width generalizing n with
  | zero => simp [bigEndianBytes]
  | succ width ih =>
      rw [← Nat.add_assoc, bigEndianBytes, ih, bigEndianBytes, List.append_assoc,
        Nat.div_div_eq_div_mul, Nat.pow_succ']

theorem readUint16_bigEndianBytes (h : n < 0x100 ^ 2) (rest : Bytes) :
    readUint16 (bigEndianBytes 2 n ++ rest) 0 = n := by
  rw [readUint16, List.drop_zero, List.take_append_of_le_length (by simp),
    List.take_of_length_le (by simp), bigEndian_bigEndianBytes, Nat.mod_eq_of_lt h]

theorem readUint32_bigEndianBytes (h : n < 0x100 ^ 4) (rest : Bytes) :
    readUint32 (bigEndianBytes 4 n ++ rest) 0 = n := by
  rw [readUint32, List.drop_zero, List.take_append_of_le_length (by simp),
    List.take_of_length_le (by simp), bigEndian_bigEndianBytes, Nat.mod_eq_of_lt h]

theorem readUint32_append (h : front.length = offset) :
    readUint32 (front ++ rest) offset = readUint32 rest 0 := by
  rw [readUint32, readUint32, ← h, List.drop_left, List.drop_zero]

theorem readInt16_bigEndianBytes (value : BitVec 16) :
    readInt16 (bigEndianBytes 2 value.toNat) 0 = value.toInt := by
  have hread := readUint16_bigEndianBytes value.isLt []
  rw [List.append_nil] at hread
  rw [readInt16, hread, BitVec.toInt_eq_toNat_cond]
  split <;> split <;> omega

theorem readInt32_bigEndianBytes (value : BitVec 32) :
    readInt32 (bigEndianBytes 4 value.toNat) 0 = value.toInt := by
  have hread := readUint32_bigEndianBytes value.isLt []
  rw [List.append_nil] at hread
  rw [readInt32, hread, BitVec.toInt_eq_toNat_cond]
  split <;> split <;> omega

theorem readBigInt64_bigEndianBytes (value : BitVec 64) :
    readBigInt64 (bigEndianBytes 8 value.toNat) 0 = value.toInt := by
  have hlt := value.isLt
  have hsplit : bigEndianBytes 8 value.toNat =
      bigEndianBytes 4 (value.toNat / 0x100 ^ 4) ++ bigEndianBytes 4 value.toNat :=
    bigEndianBytes_add 4 4 _
  have hhigh := readUint32_bigEndianBytes (n := value.toNat / 0x100 ^ 4) (by omega)
    (bigEndianBytes 4 value.toNat)
  have hlow : readUint32 (bigEndianBytes 8 value.toNat) 4 = value.toNat % 0x100 ^ 4 := by
    rw [hsplit, readUint32_append (by simp), readUint32, List.drop_zero,
      List.take_of_length_le (by simp), bigEndian_bigEndianBytes]
  rw [← hsplit] at hhigh
  have hwhole : value.toNat / 0x100 ^ 4 * 2 ^ 32 + value.toNat % 0x100 ^ 4 = value.toNat := by
    omega
  rw [readBigInt64, hhigh, hlow, hwhole, BitVec.toInt_eq_toNat_cond]
  split <;> split <;> omega

/-! ## What a sender writes -/

/-- A header value of one of the ten types. -/
inductive WireValue
  | boolean (value : Bool)
  | byte (value : BitVec 8)
  | short (value : BitVec 16)
  | integer (value : BitVec 32)
  | long (value : BitVec 64)
  | byteArray (value : Bytes) (fits : value.length < 0x10000)
  | string (value : List Char) (fits : (encodeUtf8 value).length < 0x10000)
  | timestamp (value : BitVec 64)
  | uuid (value : Bytes) (size : value.length = 16)

namespace WireValue

/-- The type byte. -/
def valueType : WireValue → UInt8
  | .boolean true => 0
  | .boolean false => 1
  | .byte _ => 2
  | .short _ => 3
  | .integer _ => 4
  | .long _ => 5
  | .byteArray .. => 6
  | .string .. => 7
  | .timestamp _ => 8
  | .uuid .. => 9

/-- What follows the type byte. -/
def body : WireValue → Bytes
  | .boolean _ => []
  | .byte value => bigEndianBytes 1 value.toNat
  | .short value => bigEndianBytes 2 value.toNat
  | .integer value => bigEndianBytes 4 value.toNat
  | .long value | .timestamp value => bigEndianBytes 8 value.toNat
  | .byteArray value _ => bigEndianBytes 2 value.length ++ value
  | .string value _ => bigEndianBytes 2 (encodeUtf8 value).length ++ encodeUtf8 value
  | .uuid value _ => value

/-- The value as the program represents it: a byte has no sign, the other integers do. -/
def represent : WireValue → HeaderValue
  | .boolean value => .boolean value
  | .byte value => .number value.toNat
  | .short value => .number value.toInt
  | .integer value => .number value.toInt
  | .long value | .timestamp value => .bigint value.toInt
  | .byteArray value _ => .bytes value
  | .string value _ => .string (encodeUtf16 value)
  | .uuid value _ => .bytes value

/-- The text of a value begins with a byte order mark. -/
def StartsWithBom : WireValue → Prop
  | .string value _ => value.head? = some bom
  | _ => False

instance : DecidablePred StartsWithBom := fun value => by
  unfold StartsWithBom
  split <;> infer_instance

end WireValue

/-- A header: a name of 1 to 255 bytes, and a value. -/
structure WireHeader where
  name : List Char
  value : WireValue
  nonempty : name ≠ []
  fits : (encodeUtf8 name).length < 0x100

namespace WireHeader

def encode (header : WireHeader) : Bytes :=
  UInt8.ofNat (encodeUtf8 header.name).length ::
    (encodeUtf8 header.name ++ header.value.valueType :: header.value.body)

/-- A text of the header begins with a byte order mark. -/
def StartsWithBom (header : WireHeader) : Prop :=
  header.name.head? = some bom ∨ header.value.StartsWithBom

instance : DecidablePred StartsWithBom := fun header => by
  unfold StartsWithBom
  infer_instance

/-- The entry of the header in the map. -/
def entry (header : WireHeader) : JsString × HeaderValue :=
  (encodeUtf16 header.name, header.value.represent)

end WireHeader

def encodeHeaders (headers : List WireHeader) : Bytes := headers.flatMap WireHeader.encode

/-- The two lengths of a frame, before their checksum. -/
def encodeLengths (headers : Bytes) (payload : Bytes) : Bytes :=
  bigEndianBytes 4 (headers.length + payload.length + 16) ++ bigEndianBytes 4 headers.length

/-- Bytes with their checksum. -/
def sealBytes (bytes : Bytes) : Bytes := bytes ++ bigEndianBytes 4 (crc32Ieee bytes).toNat

/-- A frame, unless it is too long for its length field. -/
def encodeFrame (headers : List WireHeader) (payload : Bytes) : Option Bytes :=
  let block := encodeHeaders headers
  if block.length + payload.length + 16 < 0x100 ^ 4 then
    some (sealBytes (sealBytes (encodeLengths block payload) ++ block ++ payload))
  else none

/-! ## Reading a value -/

theorem headerBytes_append (h : value.length = length) (rest : Bytes) :
    headerBytes (value ++ rest) length = .ok (value, rest) := by
  subst h
  simp [headerBytes]

/-- What the parser makes of a value: a leading byte order mark is gone. -/
def WireValue.decoded : WireValue → HeaderValue
  | .string value _ => .string (encodeUtf16 (Utf8Decoder.withoutBom value))
  | value => value.represent

theorem parseHeaderValue_fixed (htrue : valueType ≠ 0) (hfalse : valueType ≠ 1)
    (h : fixedLength? valueType = some length) (hlength : value.length = length) (rest : Bytes) :
    parseHeaderValue (value ++ rest) valueType = .ok (fixedHeaderValue valueType value, rest) := by
  simp only [parseHeaderValue, htrue, hfalse, if_false, h, headerBytes_append hlength]
  rfl

/-- The two types of variable size: a length, and as many bytes. -/
theorem parseHeaderValue_sized (h : valueType = 6 ∨ valueType = 7)
    (hfits : value.length < 0x10000) (rest : Bytes) :
    parseHeaderValue (bigEndianBytes 2 value.length ++ value ++ rest) valueType =
      if valueType = 7 then
        (decodeUtf8 value (js "AWS Event Stream string header")).map fun text =>
          (.string text, rest)
      else .ok (.bytes value, rest) := by
  have hsize := readUint16_bigEndianBytes hfits []
  rw [List.append_nil] at hsize
  have hlength : (bigEndianBytes 2 value.length).length = 2 := length_bigEndianBytes 2 _
  have hbytes : headerBytes (bigEndianBytes 2 value.length ++ (value ++ rest)) 2 =
      .ok (bigEndianBytes 2 value.length, value ++ rest) := headerBytes_append hlength _
  have hvalue : headerBytes (value ++ rest) value.length = .ok (value, rest) :=
    headerBytes_append rfl rest
  have hfixed : fixedLength? valueType = none := by
    rcases h with h | h <;> rw [h] <;> rfl
  have htrue : valueType ≠ 0 := by
    rcases h with h | h <;> rw [h] <;> decide
  have hfalse : valueType ≠ 1 := by
    rcases h with h | h <;> rw [h] <;> decide
  simp only [parseHeaderValue, htrue, hfalse, if_false, hfixed, h, if_true, List.append_assoc,
    hbytes, bind, Except.bind, hsize, hvalue]
  cases decodeUtf8 value (js "AWS Event Stream string header") <;> rfl

theorem parseHeaderValue_body (value : WireValue) (rest : Bytes) :
    parseHeaderValue (value.body ++ rest) value.valueType = .ok (value.decoded, rest) := by
  cases value with
  | boolean value => cases value <;> rfl
  | byte value =>
      have hbyte : (UInt8.ofNat value.toNat).toNat = value.toNat := by
        rw [UInt8.toNat_ofNat']
        exact Nat.mod_eq_of_lt value.isLt
      rw [WireValue.valueType, WireValue.body,
        parseHeaderValue_fixed (by decide) (by decide) rfl (by simp)]
      exact congrArg (fun n : Nat => Except.ok (HeaderValue.number n, rest)) hbyte
  | short value =>
      rw [WireValue.valueType, WireValue.body,
        parseHeaderValue_fixed (by decide) (by decide) rfl (by simp)]
      exact congrArg (fun n => Except.ok (HeaderValue.number n, rest))
        (readInt16_bigEndianBytes value)
  | integer value =>
      rw [WireValue.valueType, WireValue.body,
        parseHeaderValue_fixed (by decide) (by decide) rfl (by simp)]
      exact congrArg (fun n => Except.ok (HeaderValue.number n, rest))
        (readInt32_bigEndianBytes value)
  | long value =>
      rw [WireValue.valueType, WireValue.body,
        parseHeaderValue_fixed (by decide) (by decide) rfl (by simp)]
      exact congrArg (fun n => Except.ok (HeaderValue.bigint n, rest))
        (readBigInt64_bigEndianBytes value)
  | byteArray value fits => exact parseHeaderValue_sized (Or.inl rfl) fits rest
  | string value fits =>
      refine (parseHeaderValue_sized (Or.inr rfl) fits rest).trans ?_
      rw [if_pos rfl, decodeUtf8, Utf8Decoder.decode_encodeUtf8]
      rfl
  | timestamp value =>
      rw [WireValue.valueType, WireValue.body,
        parseHeaderValue_fixed (by decide) (by decide) rfl (by simp)]
      exact congrArg (fun n => Except.ok (HeaderValue.bigint n, rest))
        (readBigInt64_bigEndianBytes value)
  | uuid value size =>
      rw [WireValue.valueType, WireValue.body,
        parseHeaderValue_fixed (by decide) (by decide) rfl size]
      rfl

/-! ## Reading the headers -/

/-- What the parser makes of a header. -/
def WireHeader.decoded (header : WireHeader) : JsString × HeaderValue :=
  (encodeUtf16 (Utf8Decoder.withoutBom header.name), header.value.decoded)

theorem length_encodeUtf8_pos (h : text ≠ []) : 0 < (encodeUtf8 text).length := by
  cases text with
  | nil => exact absurd rfl h
  | cons c rest =>
      have hc : utf8 c.toNat ≠ [] := by
        unfold utf8
        split_ifs <;> simp
      have := List.length_pos_of_ne_nil hc
      simp only [encodeUtf8, List.flatMap_cons, List.length_append]
      omega

/-- One header. -/
theorem parseHeaders_encode_cons (entries : JsMap JsString HeaderValue) (header : WireHeader)
    (rest : Bytes) :
    parseHeaders entries (header.encode ++ rest) =
      if entries.has header.decoded.1 then
        .error (failure "kiro_event_stream_header_duplicate"
          (js "Duplicate AWS Event Stream header " ++ Json.quote header.decoded.1))
      else parseHeaders (entries.set header.decoded.1 header.decoded.2) rest := by
  have hfits := header.fits
  have hpos := length_encodeUtf8_pos header.nonempty
  have hlength : (UInt8.ofNat (encodeUtf8 header.name).length).toNat =
      (encodeUtf8 header.name).length := by
    rw [UInt8.toNat_ofNat']
    exact Nat.mod_eq_of_lt hfits
  -- what stands behind the length of the name
  have hrest : encodeUtf8 header.name ++ header.value.valueType :: header.value.body ++ rest =
      encodeUtf8 header.name ++ header.value.valueType :: (header.value.body ++ rest) := by
    rw [List.append_assoc, List.cons_append]
  have hlong : ¬((encodeUtf8 header.name).length = 0 ∨
      (encodeUtf8 header.name ++ header.value.valueType :: (header.value.body ++ rest)).length <
        (encodeUtf8 header.name).length + 1) := by
    rw [List.length_append, List.length_cons]
    omega
  have hname : decodeUtf8 (encodeUtf8 header.name) (js "AWS Event Stream header name") =
      .ok header.decoded.1 := by
    rw [decodeUtf8, Utf8Decoder.decode_encodeUtf8]
    rfl
  have htype : (encodeUtf8 header.name ++ header.value.valueType :: (header.value.body ++ rest)).getD
      (encodeUtf8 header.name).length 0 = header.value.valueType := by
    simp [List.getD_eq_getElem?_getD]
  have hbody : (encodeUtf8 header.name ++ header.value.valueType :: (header.value.body ++ rest)).drop
      ((encodeUtf8 header.name).length + 1) = header.value.body ++ rest := by
    rw [List.drop_length_add_append]
    rfl
  rw [WireHeader.encode, List.cons_append, hrest, parseHeaders]
  simp only [hlength, hlong, if_false, List.take_left, hname]
  split
  · rfl
  · split
    · rename_i e hvalue
      rw [hlength, hbody, htype, parseHeaderValue_body] at hvalue
      cases hvalue
    · rename_i value rest' hvalue
      rw [hlength, hbody, htype, parseHeaderValue_body] at hvalue
      cases hvalue
      rfl

/-- Headers with new names are all read, in their order. -/
theorem parseHeaders_encode {entries : JsMap JsString HeaderValue} {headers : List WireHeader}
    (hnew : ∀ header ∈ headers, entries.has header.decoded.1 = false)
    (hnodup : (headers.map fun header => header.decoded.1).Nodup) :
    ∃ map, parseHeaders entries (encodeHeaders headers) = .ok map := by
  induction headers generalizing entries with
  | nil => exact ⟨entries, by rw [encodeHeaders, List.flatMap_nil, parseHeaders]⟩
  | cons header rest ih =>
      rw [List.map_cons, List.nodup_cons] at hnodup
      have hfirst := hnew header List.mem_cons_self
      rw [encodeHeaders, List.flatMap_cons, parseHeaders_encode_cons, if_neg (by simp [hfirst])]
      refine ih (fun other hother => ?_) hnodup.2
      have hne : other.decoded.1 ≠ header.decoded.1 := by
        intro heq
        exact hnodup.1 (heq ▸ List.mem_map_of_mem hother)
      have hfree := hnew other (List.mem_cons_of_mem _ hother)
      rwa [JsMap.has, JsMap.get?_set_of_ne _ _ hne]

/-- Headers that are all read are the entries that were added. -/
theorem entries_of_parseHeaders (h : parseHeaders entries (encodeHeaders headers) = .ok map) :
    map.entries = entries.entries ++ headers.map WireHeader.decoded := by
  induction headers generalizing entries with
  | nil =>
      rw [encodeHeaders, List.flatMap_nil, parseHeaders] at h
      cases h
      simp
  | cons header rest ih =>
      rw [encodeHeaders, List.flatMap_cons, parseHeaders_encode_cons] at h
      split at h
      · cases h
      · rename_i hnew
        have hset : (entries.set header.decoded.1 header.decoded.2).entries =
            entries.entries ++ [header.decoded] := by
          rw [JsMap.has_eq_true_iff] at hnew
          exact JsMap.setEntries_of_not_mem hnew
        rw [ih h, hset, List.append_assoc]
        rfl

/-! ## Reading a frame -/

/-- No text of a header begins with a byte order mark exactly when it is read as it was
written. -/
theorem WireHeader.decoded_eq_entry_iff (header : WireHeader) :
    header.decoded = header.entry ↔ ¬header.StartsWithBom := by
  have htext (text : List Char) :
      encodeUtf16 (Utf8Decoder.withoutBom text) = encodeUtf16 text ↔ text.head? ≠ some bom := by
    rw [← Utf8Decoder.decode_encodeUtf8_iff, Utf8Decoder.decode_encodeUtf8, Option.some.injEq]
  have hvalue : header.value.decoded = header.value.represent ↔ ¬header.value.StartsWithBom := by
    cases header.value with
    | string text fits =>
        simp only [WireValue.decoded, WireValue.represent, WireValue.StartsWithBom,
          HeaderValue.string.injEq, htext, ne_eq]
    | _ => simp [WireValue.decoded, WireValue.StartsWithBom]
  rw [decoded, entry, Prod.mk.injEq, htext, hvalue, StartsWithBom, not_or]

theorem length_sealBytes (bytes : Bytes) : (sealBytes bytes).length = bytes.length + 4 := by
  rw [sealBytes, List.length_append, length_bigEndianBytes]

theorem validateCrc_sealBytes (code subject : String) (bytes : Bytes) :
    validateCrc code subject ((sealBytes bytes).take bytes.length)
      (readUint32 (sealBytes bytes) bytes.length) = .ok () := by
  have hread := readUint32_bigEndianBytes (crc32Ieee bytes).toNat_lt []
  rw [List.append_nil] at hread
  rw [sealBytes, List.take_left, readUint32_append rfl, hread, validateCrc, if_neg (by simp)]

theorem length_encodeLengths (block payload : Bytes) : (encodeLengths block payload).length = 8 := by
  simp [encodeLengths]

/-- The lengths of a frame are read back. -/
theorem readPrelude_encode (hfits : block.length + payload.length + 16 < 0x100 ^ 4)
    (hmax : block.length + payload.length + 16 ≤ maxFrameBytes) :
    readPrelude maxFrameBytes (sealBytes (encodeLengths block payload)) =
      .ok (block.length + payload.length + 16, block.length) := by
  have hcrc := validateCrc_sealBytes "kiro_event_stream_prelude_crc" "prelude"
    (encodeLengths block payload)
  rw [length_encodeLengths] at hcrc
  have htotal : readUint32 (sealBytes (encodeLengths block payload)) 0 =
      block.length + payload.length + 16 := by
    rw [sealBytes, encodeLengths, List.append_assoc]
    exact readUint32_bigEndianBytes hfits _
  have hheaders : readUint32 (sealBytes (encodeLengths block payload)) 4 = block.length := by
    rw [sealBytes, encodeLengths, List.append_assoc, readUint32_append (by simp)]
    exact readUint32_bigEndianBytes (by omega) _
  have hlengths : validateFrameLengths (block.length + payload.length + 16) block.length
      maxFrameBytes = .ok () := by
    rw [validateFrameLengths, minFrameBytes, if_neg (by omega), if_neg (by omega),
      if_neg (by omega)]
  simp only [readPrelude, validatePreludeCrc, hcrc, htotal, hheaders, hlengths, bind, Except.bind]

/-- A frame that was written is parsed with its headers and payload. -/
theorem parseFrame_encode (block payload : Bytes) :
    parseFrame (sealBytes (sealBytes (encodeLengths block payload) ++ block ++ payload))
        block.length =
      (parseHeaders ∅ block).map fun map => ⟨map, payload⟩ := by
  have hprelude : (sealBytes (encodeLengths block payload)).length = 12 := by
    rw [length_sealBytes, length_encodeLengths]
  generalize hp : sealBytes (encodeLengths block payload) = prelude at hprelude
  have hcrc := validateCrc_sealBytes "kiro_event_stream_message_crc" "message"
    (prelude ++ block ++ payload)
  have hlength : (sealBytes (prelude ++ block ++ payload)).length - 4 =
      (prelude ++ block ++ payload).length := by
    rw [length_sealBytes]
    omega
  have hblock : ((sealBytes (prelude ++ block ++ payload)).take (12 + block.length)).drop 12 =
      block := by
    rw [sealBytes, List.append_assoc, List.append_assoc, ← hprelude, List.take_length_add_append,
      List.drop_left, List.take_left]
  have hpayload : ((sealBytes (prelude ++ block ++ payload)).take
      (prelude ++ block ++ payload).length).drop (12 + block.length) = payload := by
    rw [sealBytes, List.take_left, ← hprelude, ← List.length_append, List.drop_left]
  simp only [parseFrame, validateMessageCrc, hlength, hcrc, hblock, hpayload, bind, Except.bind]
  cases parseHeaders ∅ block <;> rfl

theorem exists_encodeFrame {headers : List WireHeader} {payload : Bytes}
    (h : (encodeHeaders headers).length + payload.length + 16 < 0x100 ^ 4) :
    ∃ frame, encodeFrame headers payload = some frame := by
  unfold encodeFrame
  exact ⟨_, if_pos h⟩

theorem length_encodeFrame (h : encodeFrame headers payload = some frame) :
    frame.length = (encodeHeaders headers).length + payload.length + 16 := by
  unfold encodeFrame at h
  dsimp only at h
  split at h
  · cases h
    simp only [length_sealBytes, List.length_append, length_encodeLengths]
    omega
  · cases h

/-- The frame at the front of some bytes is parsed with its headers, whatever follows. -/
theorem frameFront_encode {headers : List WireHeader} {payload frame : Bytes}
    {maxFrameBytes : Nat} (h : encodeFrame headers payload = some frame)
    (hmax : frame.length ≤ maxFrameBytes) (rest : Bytes) :
    frameFront maxFrameBytes (frame ++ rest) =
      match parseHeaders ∅ (encodeHeaders headers) with
      | .ok map => .frame ⟨map, payload⟩ frame.length
      | .error e => .malformed e := by
  have hlength := length_encodeFrame h
  unfold encodeFrame at h
  dsimp only at h
  split at h
  · rename_i hfits
    cases h
    generalize encodeHeaders headers = block at hfits hmax hlength ⊢
    have hparse := parseFrame_encode block payload
    have htake : (sealBytes (sealBytes (encodeLengths block payload) ++ block ++ payload) ++
        rest).take 12 = sealBytes (encodeLengths block payload) := by
      rw [sealBytes, List.append_assoc, List.append_assoc, List.append_assoc,
        List.take_append_of_le_length (by simp [length_sealBytes, length_encodeLengths]),
        List.take_of_length_le (by simp [length_sealBytes, length_encodeLengths])]
    rw [hlength] at hmax
    rw [frameFront, htake, readPrelude_encode hfits hmax]
    rw [← hlength]
    rw [if_neg (by rw [List.length_append]; omega)]
    dsimp only
    rw [if_neg (by rw [List.length_append]; omega), List.take_left, hparse]
    cases parseHeaders ∅ block <;> rfl
  · cases h

/-! ## What is accepted -/

/-- A header as it stands in a block. -/
structure RawHeader where
  name : Bytes
  valueType : UInt8
  body : Bytes

namespace RawHeader

/-- The bytes of a header: the length of its name, the name, the type and the value. -/
def bytes (header : RawHeader) : Bytes :=
  UInt8.ofNat header.name.length :: (header.name ++ header.valueType :: header.body)

/-- The value has the size that its type or its own length field declares. -/
def Sized (header : RawHeader) : Prop :=
  header.valueType = 0 ∧ header.body = [] ∨ header.valueType = 1 ∧ header.body = [] ∨
    fixedLength? header.valueType = some header.body.length ∨
    (header.valueType = 6 ∨ header.valueType = 7) ∧ ∃ value : Bytes, value.length < 0x10000 ∧
      header.body = bigEndianBytes 2 value.length ++ value

/-- A header whose lengths are those of its parts. -/
structure Whole (header : RawHeader) : Prop where
  name_pos : 0 < header.name.length
  name_lt : header.name.length < 0x100
  sized : header.Sized

end RawHeader

theorem headerBytes_eq_ok (h : headerBytes bytes length = .ok (value, rest)) :
    bytes = value ++ rest ∧ value.length = length := by
  unfold headerBytes at h
  split at h
  · cases h
  · rename_i hlength
    cases h
    have hle : length ≤ bytes.length := not_lt.mp hlength
    exact ⟨(List.take_append_drop length bytes).symm, List.length_take_of_le hle⟩

theorem bigEndianBytes_readUint16 (h : size.length = 2) :
    bigEndianBytes 2 (readUint16 size 0) = size ∧ readUint16 size 0 < 0x10000 := by
  match size, h with
  | [high, low], _ =>
      have hhigh := high.toNat_lt
      have hlow := low.toNat_lt
      have hvalue : readUint16 [high, low] 0 = high.toNat * 0x100 + low.toNat := by
        simp [readUint16, bigEndian]
      have hdiv : (high.toNat * 0x100 + low.toNat) / 0x100 = high.toNat := by omega
      refine ⟨?_, by omega⟩
      rw [hvalue]
      simp only [bigEndianBytes, hdiv, List.nil_append, List.cons_append, List.cons.injEq, and_true]
      refine ⟨UInt8.ofNat_toNat, UInt8.toNat_inj.mp ?_⟩
      rw [UInt8.toNat_ofNat']
      omega

/-- An accepted value is as long as it is declared to be. -/
theorem parseHeaderValue_sized_of_ok (h : parseHeaderValue bytes valueType = .ok (value, rest)) :
    ∃ body, bytes = body ++ rest ∧ ∀ name, RawHeader.Sized ⟨name, valueType, body⟩ := by
  unfold parseHeaderValue at h
  split at h
  · rename_i htype
    cases h
    exact ⟨[], rfl, fun _ => .inl ⟨htype, rfl⟩⟩
  · split at h
    · rename_i htype
      cases h
      exact ⟨[], rfl, fun _ => .inr (.inl ⟨htype, rfl⟩)⟩
    · split at h
      · rename_i length hfixed
        obtain ⟨⟨body, rest'⟩, hbytes, hvalue⟩ := bind_eq_ok.mp h
        cases hvalue
        obtain ⟨hsplit, hlength⟩ := headerBytes_eq_ok hbytes
        exact ⟨body, hsplit, fun _ => .inr (.inr (.inl (hlength ▸ hfixed)))⟩
      · split at h
        · rename_i htype
          obtain ⟨⟨size, rest'⟩, hsize, h⟩ := bind_eq_ok.mp h
          obtain ⟨⟨content, rest''⟩, hcontent, h⟩ := bind_eq_ok.mp h
          obtain ⟨hsplit, hlength⟩ := headerBytes_eq_ok hsize
          obtain ⟨hsplit', hlength'⟩ := headerBytes_eq_ok hcontent
          obtain ⟨hback, hlt⟩ := bigEndianBytes_readUint16 hlength
          have hbody : bytes = (bigEndianBytes 2 content.length ++ content) ++ rest'' := by
            rw [hlength', hback, List.append_assoc, ← hsplit', hsplit]
          have hsized (name : Bytes) : RawHeader.Sized
              ⟨name, valueType, bigEndianBytes 2 content.length ++ content⟩ :=
            .inr (.inr (.inr ⟨htype, content, hlength' ▸ hlt, rfl⟩))
          have hrest : rest = rest'' := by
            dsimp only at h
            split at h
            · obtain ⟨text, -, hvalue⟩ := bind_eq_ok.mp h
              cases hvalue
              rfl
            · cases h
              rfl
          exact ⟨_, hrest ▸ hbody, hsized⟩
        · cases h

/-- An accepted block is made of whole headers: no declared length runs past it. -/
theorem parseHeaders_within (h : parseHeaders entries bytes = .ok map) :
    ∃ raw : List RawHeader, bytes = raw.flatMap RawHeader.bytes ∧ ∀ header ∈ raw, header.Whole := by
  fun_induction parseHeaders entries bytes with
  | case1 entries => exact ⟨[], rfl, nofun⟩
  | case6 entries nameLength rest n hlong name hname hnew value rest' hvalue ih =>
      obtain ⟨raw, hraw, hwhole⟩ := ih h
      obtain ⟨body, hbody, hsized⟩ := parseHeaderValue_sized_of_ok hvalue
      have hn : n < rest.length := by omega
      have hname : (rest.take n).length = n := List.length_take_of_le (Nat.le_of_lt hn)
      have hsplit : rest = rest.take n ++ rest.getD n 0 :: (body ++ rest') := by
        rw [← hbody, List.getD_eq_getElem?_getD, List.getElem?_eq_getElem hn, Option.getD_some,
          List.cons_getElem_drop_succ, List.take_append_drop]
      refine ⟨⟨rest.take n, rest.getD n 0, body⟩ :: raw, ?_, ?_⟩
      · rw [List.flatMap_cons, RawHeader.bytes, ← hraw, hname, UInt8.ofNat_toNat]
        conv_lhs => rw [hsplit]
        simp
      · intro header hheader
        cases hheader with
        | head =>
            have hlt := nameLength.toNat_lt
            have hpos : 0 < (rest.take n).length := by omega
            have hbyte : (rest.take n).length < 0x100 := by omega
            exact ⟨hpos, hbyte, hsized _⟩
        | tail _ hin => exact hwhole header hin
  | _ => cases h

/-- The frame read off the front of some bytes: its parts follow each other, the header block
is as long as the prelude says, and it is made of whole headers. -/
def Framed (bytes : Bytes) (parsed : ParsedFrame) (left : Bytes) : Prop :=
  ∃ (prelude crc : Bytes) (raw : List RawHeader),
    bytes = prelude ++ raw.flatMap RawHeader.bytes ++ parsed.payload ++ crc ++ left ∧
      prelude.length = 12 ∧ crc.length = 4 ∧
      readUint32 prelude 4 = (raw.flatMap RawHeader.bytes).length ∧ ∀ header ∈ raw, header.Whole

theorem validateFrameLengths_body
    (h : validateFrameLengths total headersLength maxFrameBytes = .ok ()) :
    headersLength + 16 ≤ total := by
  have hmin := validateFrameLengths_eq_ok h
  unfold validateFrameLengths at h
  split at h
  · cases h
  · split at h
    · cases h
    · split at h
      · cases h
      · rename_i hbody
        rw [minFrameBytes] at hmin hbody
        omega

/-- A list cut at four places. -/
theorem cut_four {bytes : Bytes} (hab : a ≤ b) (hbc : b ≤ c) (hcn : c ≤ n) :
    bytes = bytes.take a ++ ((bytes.take n).take b).drop a ++ ((bytes.take n).take c).drop b ++
      (bytes.take n).drop c ++ bytes.drop n := by
  have hfront : bytes.take a ++ ((bytes.take n).take b).drop a = (bytes.take n).take b := by
    have hsplit := List.take_append_drop a ((bytes.take n).take b)
    rwa [List.take_take, List.take_take, Nat.min_eq_left hab,
      Nat.min_eq_left (hab.trans (hbc.trans hcn))] at hsplit
  have hmiddle : (bytes.take n).take b ++ ((bytes.take n).take c).drop b = (bytes.take n).take c := by
    have hsplit := List.take_append_drop b ((bytes.take n).take c)
    rwa [List.take_take, Nat.min_eq_left hbc] at hsplit
  rw [hfront, hmiddle, List.take_append_drop, List.take_append_drop]

theorem framed_of_frameFront {bytes : Bytes}
    (h : frameFront maxFrameBytes bytes = .frame parsed n) :
    Framed bytes parsed (bytes.drop n) := by
  obtain ⟨hprelude, hn, hmin, headersLength, hread, hparse⟩ := frameFront_eq_frame h
  obtain ⟨_, -, hread⟩ := bind_eq_ok.mp hread
  obtain ⟨_, hlengths, hread⟩ := bind_eq_ok.mp hread
  cases hread
  have hbody := validateFrameLengths_body hlengths
  obtain ⟨_, -, hparse⟩ := bind_eq_ok.mp hparse
  obtain ⟨map, hheaders, hparse⟩ := bind_eq_ok.mp hparse
  cases hparse
  obtain ⟨raw, hraw, hwhole⟩ := parseHeaders_within hheaders
  have hlength : (bytes.take (readUint32 (bytes.take 12) 0)).length =
      readUint32 (bytes.take 12) 0 := List.length_take_of_le hn
  refine ⟨bytes.take 12, (bytes.take (readUint32 (bytes.take 12) 0)).drop
    (readUint32 (bytes.take 12) 0 - 4), raw, ?_, List.length_take_of_le hprelude, ?_, ?_, hwhole⟩
  · rw [← hraw, hlength]
    exact cut_four (by omega) (by omega) (by omega)
  · rw [List.length_drop, hlength]
    omega
  · rw [← hraw, List.length_drop, List.length_take, hlength]
    omega

/-! ## The frame loop -/

namespace KiroEventStreamParser

/-- What the frame loop does with a frame it has read. -/
def afterFrame (cfg : KiroConfig) (p : KiroEventStreamParser) (frame : ParsedFrame)
    (queue : ByteQueue) : List CanonicalStreamEvent × KiroEventStreamParser :=
  match handleFrame cfg frame { p.state with sawFrame := true } with
  | (.ok _, state, events) =>
    let rest := drainFrames cfg { p with bytes := queue, state := state }
    (events ++ rest.1, rest.2)
  | (.error e, state, events) =>
    let failed := { p with bytes := queue, state := state }.emitFailure (asKiroFailure e)
    (events ++ failed.1, failed.2)

/-- The loop reads these headers and this payload, and goes on with these bytes in the queue. -/
def Decodes (cfg : KiroConfig) (p : KiroEventStreamParser) (headers : List WireHeader)
    (payload rest : Bytes) : Prop :=
  ∃ (map : JsMap JsString HeaderValue) (queue : ByteQueue),
    readFrame cfg.maxFrameBytes p.bytes = .ok (some (⟨map, payload⟩, queue)) ∧
      p.drainFrames cfg = p.afterFrame cfg ⟨map, payload⟩ queue ∧
      map.entries = headers.map WireHeader.entry ∧ queue.toList = rest

variable {cfg : KiroConfig} {p : KiroEventStreamParser}

theorem drainFrames_of_readFrame (hfailed : p.failed = false) (hfinished : p.finished = false)
    (hlength : 12 ≤ p.bytes.length)
    (h : readFrame cfg.maxFrameBytes p.bytes = .ok (some (frame, queue))) :
    p.drainFrames cfg = p.afterFrame cfg frame queue := by
  rw [drainFrames, if_pos (by simp [hfailed, hfinished, hlength])]
  split
  · rename_i heq
    rw [h] at heq
    cases heq
  · rename_i heq
    rw [h] at heq
    cases heq
  · rename_i frame' queue' heq
    rw [h] at heq
    cases heq
    rfl

/-- A frame at the front of the queue is decoded when no text in it begins with a byte order
mark, and only then. -/
theorem decodes_iff (hfailed : p.failed = false) (hfinished : p.finished = false)
    {headers : List WireHeader} (hnames : (headers.map WireHeader.name).Nodup)
    {payload frame rest : Bytes} (hframe : encodeFrame headers payload = some frame)
    (hmax : frame.length ≤ cfg.maxFrameBytes) (hbytes : p.bytes.toList = frame ++ rest) :
    Decodes cfg p headers payload rest ↔ ∀ header ∈ headers, ¬header.StartsWithBom := by
  have hlong : 12 ≤ p.bytes.toList.length := by
    rw [hbytes, List.length_append, length_encodeFrame hframe]
    omega
  have hread := readFrame_eq cfg.maxFrameBytes hlong
  rw [hbytes, frameFront_encode hframe hmax] at hread
  constructor
  · rintro ⟨map, queue, hok, _, hentries, _⟩ header hheader
    rw [hok] at hread
    cases hparse : parseHeaders ∅ (encodeHeaders headers) with
    | error e =>
        rw [hparse] at hread
        cases hread
    | ok map' =>
        rw [hparse] at hread
        cases hread
        have hdecoded := entries_of_parseHeaders hparse
        rw [hentries] at hdecoded
        have heq := List.map_inj_left.mp hdecoded header hheader
        exact header.decoded_eq_entry_iff.mp heq.symm
  · intro hnone
    have hentry : headers.map WireHeader.decoded = headers.map WireHeader.entry :=
      List.map_congr_left fun header hheader =>
        header.decoded_eq_entry_iff.mpr (hnone header hheader)
    have hnodup : (headers.map fun header => header.decoded.1).Nodup := by
      have hkeys : (headers.map fun header => header.decoded.1) =
          (headers.map WireHeader.name).map encodeUtf16 := by
        simpa [WireHeader.entry] using congrArg (List.map Prod.fst) hentry
      rw [hkeys]
      exact hnames.map encodeUtf16_injective
    obtain ⟨map, hparse⟩ := @parseHeaders_encode ∅ _ (fun _ _ => rfl) hnodup
    rw [hparse] at hread
    have hentries := entries_of_parseHeaders hparse
    refine ⟨map, _, hread, ?_, ?_, ?_⟩
    · exact drainFrames_of_readFrame hfailed hfinished
        (by rwa [ByteQueue.length_toList] at hlong) hread
    · rw [hentries, hentry]
      rfl
    · rw [ByteQueue.toList_discard _ _, hbytes, List.drop_left]

/-- Every frame the loop accepts ends where its lengths say, its headers inside it. -/
theorem readFrame_framed {bytes : ByteQueue}
    (h : readFrame maxFrameBytes bytes = .ok (some (parsed, queue))) :
    Framed bytes.toList parsed queue.toList := by
  have hlong : 12 ≤ bytes.toList.length := by
    by_contra hshort
    obtain ⟨prelude, hpeek, -⟩ := bind_eq_ok.mp h
    rw [ByteQueue.length_toList] at hshort
    rw [ByteQueue.peek, if_pos (not_le.mp hshort)] at hpeek
    cases hpeek
  rw [readFrame_eq maxFrameBytes hlong] at h
  cases hfront : frameFront maxFrameBytes bytes.toList with
  | incomplete => simp [hfront] at h
  | malformed e => simp [hfront] at h
  | frame parsed' n =>
      rw [hfront] at h
      cases h
      rw [ByteQueue.toList_discard]
      exact framed_of_frameFront hfront

/-- Decoding inverts encoding for every frame without a text that begins with a byte order
mark, and for no other; and no accepted frame has a header that runs past it. -/
theorem decodes_encoded_iff_no_bom (cfg : KiroConfig) (p : KiroEventStreamParser)
    (hfailed : p.failed = false) (hfinished : p.finished = false)
    {headers : List WireHeader} (hnames : (headers.map WireHeader.name).Nodup)
    {payload frame rest : Bytes} (hframe : encodeFrame headers payload = some frame)
    (hmax : frame.length ≤ cfg.maxFrameBytes) (hbytes : p.bytes.toList = frame ++ rest) :
    (Decodes cfg p headers payload rest ↔ ∀ header ∈ headers, ¬header.StartsWithBom) ∧
      ∀ (bytes queue : ByteQueue) (parsed : ParsedFrame),
        readFrame cfg.maxFrameBytes bytes = .ok (some (parsed, queue)) →
          Framed bytes.toList parsed queue.toList :=
  ⟨decodes_iff hfailed hfinished hnames hframe hmax hbytes, fun _ _ _ => readFrame_framed⟩

/-- A header with a plain text, and a sequence number of sixteen bits. -/
def plainHeaders : List WireHeader :=
  [⟨"source".toList, .string "agent".toList (by decide), by decide, by decide⟩,
    ⟨"part".toList, .short 0xFFFE, by decide, by decide⟩]

/-- A frame behind which two bytes of the next one have arrived. -/
theorem decodes_plainHeaders :
    ∃ frame, encodeFrame plainHeaders [0x7B, 0x7D] = some frame ∧
      Decodes plainConfig { bytes := ByteQueue.empty.push (frame ++ [0, 0]) } plainHeaders
        [0x7B, 0x7D] [0, 0] := by
  obtain ⟨frame, hframe⟩ := @exists_encodeFrame plainHeaders [0x7B, 0x7D] (by decide)
  have hlength : frame.length ≤ plainConfig.maxFrameBytes := by
    rw [length_encodeFrame hframe]
    decide
  have hbytes : (ByteQueue.empty.push (frame ++ [0, 0])).toList = frame ++ [0, 0] :=
    ByteQueue.toList_push _ _
  exact ⟨frame, hframe, (decodes_encoded_iff_no_bom plainConfig
    { bytes := ByteQueue.empty.push (frame ++ [0, 0]) } rfl rfl (by decide) hframe hlength
    hbytes).1.mpr (by decide)⟩

/-- A header whose text begins with a byte order mark. -/
def bomHeaders : List WireHeader :=
  [⟨"source".toList, .string (bom :: "agent".toList) (by decide), by decide, by decide⟩]

/-- The byte order mark is lost. -/
theorem not_decodes_bomHeaders :
    ∃ frame, encodeFrame bomHeaders [] = some frame ∧
      frame.length ≤ plainConfig.maxFrameBytes ∧
      ¬Decodes plainConfig { bytes := ByteQueue.empty.push frame } bomHeaders [] [] := by
  obtain ⟨frame, hframe⟩ := @exists_encodeFrame bomHeaders [] (by decide)
  have hlength : frame.length ≤ plainConfig.maxFrameBytes := by
    rw [length_encodeFrame hframe]
    decide
  have hbytes : (ByteQueue.empty.push frame).toList = frame ++ [] := by
    rw [ByteQueue.toList_push, List.append_nil]
    rfl
  refine ⟨frame, hframe, hlength, fun hdecodes => ?_⟩
  have hnone := (@decodes_iff plainConfig { bytes := ByteQueue.empty.push frame } rfl rfl
    bomHeaders (by decide) [] frame [] hframe hlength hbytes).mp hdecodes
  exact hnone _ List.mem_cons_self (Or.inr rfl)

end KiroEventStreamParser

end StonePlus.Kiro
