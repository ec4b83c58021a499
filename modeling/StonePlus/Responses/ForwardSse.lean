import StonePlus.Js.Json
import StonePlus.Js.TextDecoder
import StonePlus.Lib.Effect
import StonePlus.Lib.Search

/-!
# StonePlus.Responses.ForwardSse

`forwardResponsesSse` of `gateway/responses-websocket.ts`: a Responses SSE body becomes one
JSON message per event.

A program's output are the events it hands to `onEvent`, which is taken to accept them.  The
search for the end of a frame starts three bytes before the end of what was searched before.
-/

namespace StonePlus

/-- `text.split(/\r?\n/)`. -/
def splitLines (text : JsString) : List JsString :=
  let pieces := text.splitOn 0x0A
  pieces.dropLast.map (fun line => if line.getLast? = some 0x0D then line.dropLast else line) ++
    pieces.getLast?.toList

end StonePlus

namespace StonePlus.Responses

open Lib Lib.Effect

/-! ## Frames -/

def sseFrameBoundaries : List Bytes :=
  [[0x0D, 0x0A, 0x0D, 0x0A], [0x0D, 0x0A, 0x0A], [0x0A, 0x0D, 0x0A], [0x0A, 0x0A]]

/-- The first boundary from a position on: where it stands and how long it is. -/
def findSseDelimiter (buffer : Bytes) (start : Nat) : Option (Nat × Nat) :=
  (earliest sseFrameBoundaries (buffer.drop start)).map fun (index, boundary) =>
    (start + index, boundary.length)

theorem sseFrameBoundaries_delimiters : Delimiters sseFrameBoundaries where
  ne_nil := by decide
  eq_of_prefix := by decide
  not_inside := by decide

theorem findSseDelimiter_eq_some : findSseDelimiter buffer start = some (index, length) ↔
      ∃ i m, IsEarliest sseFrameBoundaries (buffer.drop start) i m ∧ index = start + i ∧
        length = m.length := by
  simp only [findSseDelimiter, Option.map_eq_some_iff, Prod.exists, Prod.mk.injEq,
    sseFrameBoundaries_delimiters.earliest_eq_some, @eq_comm Nat _ index, @eq_comm Nat _ length]

theorem findSseDelimiter_bounds (h : findSseDelimiter buffer start = some (index, length)) :
    start ≤ index ∧ 0 < length ∧ index + length ≤ buffer.length := by
  obtain ⟨i, m, hm, rfl, rfl⟩ := findSseDelimiter_eq_some.mp h
  have hpos := sseFrameBoundaries_delimiters.length_pos hm.mem
  have hfits := hm.occurs.fits hpos
  rw [List.length_drop] at hfits
  omega

/-- `Buffer.prototype.toString('utf8')`, which keeps a byte order mark. -/
def utf8Text (bytes : Bytes) : JsString :=
  let decoded := TextDecoder.decode { bomSeen := true } bytes
  decoded.1 ++ decoded.2.flush

inductive ForwardFailure
  | noBody
  | invalidLimit
  | invalidJson
  | frameTooLarge (maxFrameBytes : Nat)
  | missingTerminal
  deriving DecidableEq

/-- The text of the `data` lines of a frame. -/
def frameData (text : JsString) : JsString :=
  Json.join [0x0A] (((splitLines text).filter fun line => js "data:" <+: line).map fun line =>
    (line.drop 5).dropWhile JsString.isWhitespace)

def parseSseFrame (frame : Bytes) (allowLeadingBom : Bool) :
    Except ForwardFailure (Option Json) :=
  let text := utf8Text frame
  let text := if allowLeadingBom && text.head? == some 0xFEFF then text.tail else text
  let data := frameData text
  if data = [] ∨ data = js "[DONE]" then .ok none
  else
    match Json.parse data with
    | none => .error .invalidJson
    | some event => .ok (if event.isJsonObject then some event else none)

/-! ## The reader -/

structure ForwardState where
  buffer : Bytes := []
  searchStart : Nat := 0
  firstFrame : Bool := true
  sawTerminalEvent : Bool := false
  sawErrorEvent : Bool := false

/-- The reader, its output being the events handed to `onEvent`. -/
abbrev Forward := Effect ForwardState Json ForwardFailure

def isResponsesTerminalEvent (type : Option Json) : Bool :=
  type = some (.string (js "response.completed")) || type = some (.string (js "response.failed")) ||
    type = some (.string (js "response.incomplete"))

def forwardEvent (event : Json) : Forward Unit := do
  let type := event.get? (js "type")
  modify fun s => { s with
    sawTerminalEvent := s.sawTerminalEvent || isResponsesTerminalEvent type
    sawErrorEvent := s.sawErrorEvent || type = some (.string (js "error")) }
  emit event

/-- Parse a frame and hand over its event, if it has one. -/
def forwardFrame (frame : Bytes) : Forward Unit := do
  let s ← get
  let event ← parseSseFrame frame s.firstFrame
  modify fun s => { s with firstFrame := false }
  match event with
  | none => pure ()
  | some event => forwardEvent event

/-- The frames that end in the buffer, from the cursor on; the cursor after them. -/
def forwardFrames (maxFrameBytes : Nat) (buffer : Bytes) (cursor start : Nat) : Forward Nat :=
  match _h : findSseDelimiter buffer start with
  | none => pure cursor
  | some (index, length) => do
    ensure (index - cursor ≤ maxFrameBytes) (.frameTooLarge maxFrameBytes)
    forwardFrame ((buffer.take index).drop cursor)
    forwardFrames maxFrameBytes buffer (index + length) (index + length)
termination_by buffer.length - start
decreasing_by
  have := findSseDelimiter_bounds _h
  omega

theorem forwardFrames_none (h : findSseDelimiter buffer start = none) :
    forwardFrames maxFrameBytes buffer cursor start = pure cursor := by
  rw [forwardFrames]
  split
  · rfl
  · rename_i hsome
    rw [h] at hsome
    cases hsome

theorem forwardFrames_some {maxFrameBytes : Nat} {buffer : Bytes} {cursor start index length : Nat}
    (h : findSseDelimiter buffer start = some (index, length)) :
    forwardFrames maxFrameBytes buffer cursor start = (do
      ensure (index - cursor ≤ maxFrameBytes) (.frameTooLarge maxFrameBytes)
      forwardFrame ((buffer.take index).drop cursor)
      forwardFrames maxFrameBytes buffer (index + length) (index + length)) := by
  rw [forwardFrames]
  split
  · rename_i hnone
    rw [h] at hnone
    cases hnone
  · rename_i index' length' hsome
    rw [h] at hsome
    cases hsome
    rfl

def forwardChunk (maxFrameBytes : Nat) (chunk : Bytes) : Forward Unit := do
  let s ← get
  let buffer := s.buffer ++ chunk
  let cursor ← forwardFrames maxFrameBytes buffer 0 s.searchStart
  let buffer := buffer.drop cursor
  modify fun s => { s with buffer := buffer, searchStart := buffer.length - 3 }
  -- A delimiter may straddle chunks and is at most four bytes.
  ensure (buffer.length ≤ maxFrameBytes + 3) (.frameTooLarge maxFrameBytes)

def forwardChunks (maxFrameBytes : Nat) : List Bytes → Forward Unit
  | [] => pure ()
  | chunk :: rest => do
    forwardChunk maxFrameBytes chunk
    forwardChunks maxFrameBytes rest

/-- What is left at the end of the body is a frame without its delimiter. -/
def forwardEnd (maxFrameBytes : Nat) : Forward Unit := do
  let s ← get
  ensure (s.buffer.length ≤ maxFrameBytes) (.frameTooLarge maxFrameBytes)
  whenever (s.buffer ≠ []) (forwardFrame s.buffer)
  let s ← get
  ensure (s.sawTerminalEvent = true ∨ s.sawErrorEvent = true) .missingTerminal

def forwardBody (maxFrameBytes : Nat) (chunks : List Bytes) : Forward Unit := do
  forwardChunks maxFrameBytes chunks
  forwardEnd maxFrameBytes

/-- The events handed to `onEvent`, and how the call ends. -/
def forwardResponsesSse (body : Option (List Bytes)) (maxFrameBytes : JsNumber) :
    List Json × Except ForwardFailure Unit :=
  match body with
  | none => ([], .error .noBody)
  | some chunks =>
    match maxFrameBytes.toNat? with
    | none => ([], .error .invalidLimit)
    | some limit =>
      if maxFrameBytes.isSafeInteger ∧ 1 ≤ limit then
        let run := forwardBody limit chunks {}
        (run.2.2, run.1)
      else ([], .error .invalidLimit)

end StonePlus.Responses
