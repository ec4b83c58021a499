import StonePlus.Js.Json
import StonePlus.Js.Map

/-!
# StonePlus.Kiro.Frame

AWS Event Stream frames, as `gateway/kiro-event-stream.ts` checks and parses
them: a twelve-byte prelude with its checksum, typed headers, a payload and
the message checksum.

A read position in the source is the list of the bytes from it on.
-/

namespace StonePlus.Kiro

/-- `KiroStreamFailure`. -/
structure KiroStreamFailure where
  code : JsString
  message : JsString
  errorType : JsString
  deriving DecidableEq

/-- What the parser's code throws: its own failures, or an error of the runtime. -/
inductive Thrown
  | failure (failure : KiroStreamFailure)
  | error (message : JsString)

/-- `asKiroFailure`. -/
def asKiroFailure : Thrown → KiroStreamFailure
  | .failure failure => failure
  | .error message =>
    ⟨js "kiro_event_stream_internal", message, js "invalid_upstream_response"⟩

/-- `new KiroStreamFailure(code, message, errorType)`. -/
def failureAs (errorType code : String) (message : JsString) : Thrown :=
  .failure ⟨js code, message, js errorType⟩

/-- `new KiroStreamFailure(code, message)`. -/
def failure (code : String) (message : JsString) : Thrown :=
  failureAs "invalid_upstream_response" code message

/-- `MIN_FRAME_BYTES`. -/
def minFrameBytes : Nat := 16

/-! ## Integers -/

/-- The big-endian value of some bytes. -/
def bigEndian (bytes : Bytes) : Nat := bytes.foldl (fun n b => n * 0x100 + b.toNat) 0

def readUint16 (bytes : Bytes) (offset : Nat) : Nat := bigEndian ((bytes.drop offset).take 2)

def readInt16 (bytes : Bytes) (offset : Nat) : Int :=
  let value := readUint16 bytes offset
  if 0x8000 ≤ value then value - 0x10000 else value

def readUint32 (bytes : Bytes) (offset : Nat) : Nat := bigEndian ((bytes.drop offset).take 4)

def readInt32 (bytes : Bytes) (offset : Nat) : Int :=
  let value := readUint32 bytes offset
  if 2 ^ 31 ≤ value then value - 2 ^ 32 else value

def readBigInt64 (bytes : Bytes) (offset : Nat) : Int :=
  let unsigned : Nat := readUint32 bytes offset * 2 ^ 32 + readUint32 bytes (offset + 4)
  if 2 ^ 63 ≤ unsigned then unsigned - 2 ^ 64 else unsigned

/-- `hex`: at least eight lower-case digits. -/
def hex (value : Nat) : JsString :=
  let digits := (Nat.toDigits 16 value).map fun c => UInt16.ofNat c.toNat
  List.replicate (8 - digits.length) 0x30 ++ digits

/-! ## Checksums -/

/-- One of the eight rounds that build a table entry. -/
def crcRound (value : UInt32) : UInt32 :=
  if value &&& 1 = 0 then value >>> 1 else (0xedb88320 : UInt32) ^^^ (value >>> 1)

/-- `CRC32_IEEE_TABLE[index]`. -/
def crc32IeeeTable (index : UInt32) : UInt32 := Nat.iterate crcRound 8 index

def crc32Ieee (bytes : Bytes) : UInt32 :=
  let crc : UInt32 := bytes.foldl
    (fun crc byte => crc32IeeeTable ((crc ^^^ byte.toUInt32) &&& 0xff) ^^^ (crc >>> 8)) 0xffffffff
  crc ^^^ 0xffffffff

example : crc32Ieee ((js "123456789").map fun c => UInt8.ofNat c.toNat) = 0xcbf43926 := by
  decide +kernel

/-- Compare a stored checksum with the one of the bytes it covers. -/
def validateCrc (code subject : String) (covered : Bytes) (expected : Nat) : Except Thrown Unit :=
  let actual := (crc32Ieee covered).toNat
  if actual ≠ expected then
    .error (failure code (js "Kiro Event Stream " ++ js subject ++ js " CRC mismatch (expected " ++
      hex expected ++ js ", received " ++ hex actual ++ js ")"))
  else .ok ()

def validatePreludeCrc (prelude : Bytes) : Except Thrown Unit :=
  validateCrc "kiro_event_stream_prelude_crc" "prelude" (prelude.take 8) (readUint32 prelude 8)

def validateMessageCrc (frame : Bytes) : Except Thrown Unit :=
  validateCrc "kiro_event_stream_message_crc" "message" (frame.take (frame.length - 4))
    (readUint32 frame (frame.length - 4))

def validateFrameLengths (totalLength headersLength maxFrameBytes : Nat) : Except Thrown Unit :=
  if totalLength < minFrameBytes then
    .error (failure "kiro_event_stream_frame_length"
      (js "Kiro Event Stream frame length " ++ natToString totalLength ++ js " is smaller than " ++
        natToString minFrameBytes))
  else if maxFrameBytes < totalLength then
    .error (failureAs "frame_too_large" "kiro_event_stream_frame_too_large"
      (js "Kiro Event Stream frame length " ++ natToString totalLength ++ js " exceeds " ++
        natToString maxFrameBytes))
  else if totalLength - minFrameBytes < headersLength then
    .error (failure "kiro_event_stream_headers_length"
      (js "Kiro Event Stream headers length " ++ natToString headersLength ++
        js " exceeds the frame body"))
  else .ok ()

theorem validateFrameLengths_eq_ok
    (h : validateFrameLengths totalLength headersLength maxFrameBytes = .ok ()) :
    minFrameBytes ≤ totalLength := by
  by_contra hlt
  rw [validateFrameLengths, if_pos (not_le.mp hlt)] at h
  cases h

/-! ## Headers -/

inductive HeaderValue
  | boolean (value : Bool)
  | number (value : Int)
  | bigint (value : Int)
  | string (value : JsString)
  | bytes (value : Bytes)

def decodeUtf8 (bytes : Bytes) (label : JsString) : Except Thrown JsString :=
  match Utf8Decoder.decode bytes with
  | some s => .ok s
  | none => .error (failure "kiro_event_stream_utf8" (label ++ js " is not valid UTF-8"))

/-- `ensureHeaderBytes` and the `subarray` it guards: the value's bytes and the rest. -/
def headerBytes (bytes : Bytes) (length : Nat) : Except Thrown (Bytes × Bytes) :=
  if bytes.length < length then
    .error (failure "kiro_event_stream_header_truncated"
      (js "Truncated AWS Event Stream header value"))
  else .ok (bytes.take length, bytes.drop length)

/-- The sizes of the header types of fixed size. -/
def fixedLength? (valueType : UInt8) : Option Nat :=
  [(2, 1), (3, 2), (4, 4), (5, 8), (8, 8), (9, 16)].lookup valueType

/-- The value of a header of fixed size. -/
def fixedHeaderValue (valueType : UInt8) (value : Bytes) : HeaderValue :=
  if valueType = 2 then .number (value.headD 0).toNat
  else if valueType = 3 then .number (readInt16 value 0)
  else if valueType = 4 then .number (readInt32 value 0)
  else if valueType = 5 ∨ valueType = 8 then .bigint (readBigInt64 value 0)
  else .bytes value

/-- A header's value and what follows it. -/
def parseHeaderValue (bytes : Bytes) (valueType : UInt8) : Except Thrown (HeaderValue × Bytes) :=
  if valueType = 0 then .ok (.boolean true, bytes)
  else if valueType = 1 then .ok (.boolean false, bytes)
  else match fixedLength? valueType with
    | some length => do
      let (value, rest) ← headerBytes bytes length
      .ok (fixedHeaderValue valueType value, rest)
    | none =>
      if valueType = 6 ∨ valueType = 7 then do
        let (size, rest) ← headerBytes bytes 2
        let (value, rest) ← headerBytes rest (readUint16 size 0)
        if valueType = 7 then
          let value ← decodeUtf8 value (js "AWS Event Stream string header")
          .ok (.string value, rest)
        else .ok (.bytes value, rest)
      else
        .error (failure "kiro_event_stream_header_type"
          (js "Unsupported AWS Event Stream header value type " ++ natToString valueType.toNat))

theorem length_headerBytes (h : headerBytes bytes length = .ok (value, rest)) :
    rest.length ≤ bytes.length := by
  unfold headerBytes at h
  split at h
  · cases h
  · cases h
    simp

theorem bind_eq_ok {ε α β : Type} {x : Except ε α} {f : α → Except ε β} {b : β} :
    (x >>= f) = .ok b ↔ ∃ a, x = .ok a ∧ f a = .ok b := by
  cases x <;> simp [bind, Except.bind]

theorem length_parseHeaderValue {bytes rest : Bytes}
    (h : parseHeaderValue bytes valueType = .ok (value, rest)) : rest.length ≤ bytes.length := by
  unfold parseHeaderValue at h
  split at h
  · cases h; exact Nat.le_refl _
  · split at h
    · cases h; exact Nat.le_refl _
    · split at h
      · obtain ⟨⟨fixed, rest'⟩, hbytes, hvalue⟩ := bind_eq_ok.mp h
        cases hvalue
        exact length_headerBytes hbytes
      · split at h
        · obtain ⟨⟨size, rest'⟩, hsize, h⟩ := bind_eq_ok.mp h
          obtain ⟨⟨content, rest''⟩, hcontent, h⟩ := bind_eq_ok.mp h
          have hle := (length_headerBytes hcontent).trans (length_headerBytes hsize)
          dsimp only at h
          split at h
          · obtain ⟨text, -, hvalue⟩ := bind_eq_ok.mp h
            cases hvalue
            exact hle
          · cases h
            exact hle
        · cases h

/-- `parseHeaders`, from the headers read so far. -/
def parseHeaders (headers : JsMap JsString HeaderValue) (bytes : Bytes) :
    Except Thrown (JsMap JsString HeaderValue) :=
  match bytes with
  | [] => .ok headers
  | nameLength :: rest =>
    let n := nameLength.toNat
    if n = 0 ∨ rest.length < n + 1 then
      .error (failure "kiro_event_stream_header_invalid"
        (js "Malformed AWS Event Stream header name"))
    else
      match decodeUtf8 (rest.take n) (js "AWS Event Stream header name") with
      | .error e => .error e
      | .ok name =>
        if headers.has name then
          .error (failure "kiro_event_stream_header_duplicate"
            (js "Duplicate AWS Event Stream header " ++ Json.quote name))
        else
          match _h : parseHeaderValue (rest.drop (n + 1)) (rest.getD n 0) with
          | .error e => .error e
          | .ok (value, rest) => parseHeaders (headers.set name value) rest
termination_by bytes.length
decreasing_by
  have := length_parseHeaderValue _h
  rw [List.length_drop] at this
  simp only [List.length_cons]
  omega

/-! ## Frames -/

structure ParsedFrame where
  headers : JsMap JsString HeaderValue
  payload : Bytes

def parseFrame (frame : Bytes) (headersLength : Nat) : Except Thrown ParsedFrame := do
  validateMessageCrc frame
  let headersStart := 12
  let payloadStart := headersStart + headersLength
  let headers ← parseHeaders ∅ ((frame.take payloadStart).drop headersStart)
  .ok ⟨headers, (frame.take (frame.length - 4)).drop payloadStart⟩

def requiredStringHeader (headers : JsMap JsString HeaderValue) (name : String) :
    Except Thrown JsString :=
  match headers.get? (js name) with
  | some (.string (c :: value)) => .ok (c :: value)
  | _ =>
    .error (failure "kiro_event_stream_header_required"
      (js "Kiro Event Stream frame is missing string header " ++ js name))

end StonePlus.Kiro
