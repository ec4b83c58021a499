import StonePlus.Js.Unicode

/-!
# StonePlus.Js.TextDecoder

`new TextDecoder()` used with `{ stream: true }`: UTF-8, with replacement or fatal.

With replacement a malformed sequence becomes one U+FFFD and the octet that broke it is read
again; a fatal decoder throws.  A byte order mark at the start is dropped.  The decoder works
octet by octet, so the text does not depend on how the octets arrive.
-/

namespace StonePlus

/-- A streaming decoder. -/
structure TextDecoder where
  utf8 : Utf8Decoder := .start
  bomSeen : Bool := false

namespace TextDecoder

/-- One octet, with replacement of what is malformed. -/
def decodeByte (d : Utf8Decoder) (byte : UInt8) : List Nat × Utf8Decoder :=
  match d.step byte with
  | some r => r
  | none =>
    if d.needed = 0 then ([0xFFFD], .start)
    else
      match Utf8Decoder.start.step byte with
      | some (codePoints, d) => (0xFFFD :: codePoints, d)
      | none => ([0xFFFD, 0xFFFD], .start)

/-- Drop the byte order mark: the first code point, if it is U+FEFF. -/
def dropBom (bomSeen : Bool) : List Nat → List Nat × Bool
  | [] => ([], bomSeen)
  | c :: cs => (if !bomSeen && c == 0xFEFF then cs else c :: cs, true)

/-- The text one octet completes. -/
def next (t : TextDecoder) (byte : UInt8) : JsString × TextDecoder :=
  let (codePoints, utf8) := decodeByte t.utf8 byte
  let (codePoints, bomSeen) := dropBom t.bomSeen codePoints
  (codePoints.flatMap JsString.utf16, ⟨utf8, bomSeen⟩)

/-- `decode(chunk, { stream: true })`. -/
def decode (t : TextDecoder) : Bytes → JsString × TextDecoder
  | [] => ([], t)
  | byte :: rest =>
    let first := t.next byte
    let more := decode first.2 rest
    (first.1 ++ more.1, more.2)

/-- `decode()`: an unfinished sequence becomes U+FFFD, and the decoder starts
afresh. -/
def flush (t : TextDecoder) : JsString :=
  if t.utf8.needed = 0 then [] else [0xFFFD]

/-- Octets decode to the same text however they are split. -/
theorem decode_append (t : TextDecoder) (a b : Bytes) :
    t.decode (a ++ b) =
      ((t.decode a).1 ++ ((t.decode a).2.decode b).1, ((t.decode a).2.decode b).2) := by
  induction a generalizing t with
  | nil => simp [decode]
  | cons byte a ih => simp [decode, ih]

example : (decode {} [0xEF, 0xBB, 0xBF, 0x24, 0xE2, 0x28, 0xC0, 0xF0, 0x9F]).1 =
    [0x24, 0xFFFD, 0x28, 0xFFFD] := by decide

/-! ## Fatal decoding -/

/-- `decode(chunk, { stream: true })` with `{ fatal: true }`; `none` is a TypeError. -/
def decodeFatal (t : TextDecoder) : Bytes → Option (JsString × TextDecoder)
  | [] => some ([], t)
  | byte :: rest => do
    let (codePoints, utf8) ← t.utf8.step byte
    let (codePoints, bomSeen) := dropBom t.bomSeen codePoints
    let (text, t) ← decodeFatal ⟨utf8, bomSeen⟩ rest
    some (codePoints.flatMap JsString.utf16 ++ text, t)

/-- An unfinished sequence is pending: a fatal `decode()` throws. -/
def pending (t : TextDecoder) : Bool := t.utf8.needed != 0

theorem decodeFatal_append (t : TextDecoder) (a b : Bytes) :
    t.decodeFatal (a ++ b) = (t.decodeFatal a).bind fun (text, t') =>
      (t'.decodeFatal b).map fun (more, t'') => (text ++ more, t'') := by
  induction a generalizing t with
  | nil => simp [decodeFatal]
  | cons byte a ih =>
      simp only [List.cons_append, decodeFatal, Option.bind_eq_bind, Option.bind_assoc]
      refine Option.bind_congr fun step _ => ?_
      rw [ih, Option.bind_assoc]
      refine Option.bind_congr fun decoded _ => ?_
      simp [Option.map_eq_bind, Option.bind_assoc, Function.comp_def]

/-- The text of octets that a fatal decoder accepts, `new TextDecoder('utf-8', { fatal: true })`
having read them all. -/
def decodedText (bytes : Bytes) : Option JsString :=
  (decodeFatal {} bytes).bind fun (text, t) => if t.pending then none else some text

example : decodedText [0xEF, 0xBB, 0xBF, 0x24, 0xC3, 0xA9] = some [0x24, 0xE9] := by decide

end TextDecoder

end StonePlus
