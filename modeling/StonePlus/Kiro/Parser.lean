import StonePlus.Js.Unicode
import StonePlus.Kiro.Handlers

/-!
# StonePlus.Kiro.Parser

The byte queue of `gateway/kiro-event-stream.ts`: received chunks are kept as
they came, and an offset marks how much of the first one has been read.

The queue denotes the bytes still unread (`toList`); `push`, `peek` and `read`
are append, take and drop on them.
-/

namespace StonePlus.Kiro

/-- The chunks not read to the end, the offset into the first, and the number
of unread bytes. -/
structure ByteQueue where
  chunks : List Bytes
  headOffset : Nat
  byteLength : Nat
  offset_le : headOffset ≤ (chunks.headD []).length
  length_eq : byteLength = (chunks.flatten.drop headOffset).length

namespace ByteQueue

/-- The unread bytes. -/
def toList (q : ByteQueue) : Bytes := q.chunks.flatten.drop q.headOffset

theorem length_toList (q : ByteQueue) : q.toList.length = q.byteLength := q.length_eq.symm

/-- `this.bytes.length`. -/
def length (q : ByteQueue) : Nat := q.byteLength

/-- A queue with nothing to read; also what `clear()` leaves. -/
def empty : ByteQueue := ⟨[], 0, 0, Nat.le_refl 0, rfl⟩

@[simp] theorem toList_empty : empty.toList = [] := rfl

variable {chunks : List Bytes}

theorem offset_le_flatten (h : offset ≤ (chunks.headD []).length) :
    offset ≤ chunks.flatten.length := by
  cases chunks with
  | nil => exact h
  | cons chunk chunks =>
      rw [List.flatten_cons, List.length_append]
      exact Nat.le_add_right_of_le h

theorem flatten_append_drop (h : offset ≤ (chunks.headD []).length) (chunk : Bytes) :
    (chunks ++ [chunk]).flatten.drop offset = chunks.flatten.drop offset ++ chunk := by
  rw [List.flatten_append, List.flatten_singleton,
    List.drop_append_of_le_length (offset_le_flatten h)]

/-- Append a chunk; an empty one is not kept. -/
def push (q : ByteQueue) (chunk : Bytes) : ByteQueue :=
  if chunk.length = 0 then q
  else
    { chunks := q.chunks ++ [chunk]
      headOffset := q.headOffset
      byteLength := q.byteLength + chunk.length
      offset_le := by
        have h := q.offset_le
        cases hchunks : q.chunks <;> simp_all
      length_eq := by
        rw [flatten_append_drop q.offset_le, List.length_append, q.length_eq] }

theorem toList_push (q : ByteQueue) (chunk : Bytes) :
    (q.push chunk).toList = q.toList ++ chunk := by
  unfold push
  split
  · next h => rw [List.length_eq_zero_iff.mp h, List.append_nil]
  · exact flatten_append_drop q.offset_le chunk

/-- The loop of `peek`: copy from chunk after chunk until `length` bytes are out. -/
def peekFrom : List Bytes → Nat → Nat → Bytes
  | [], _, _ => []
  | chunk :: chunks, offset, length =>
    let taken := (chunk.drop offset).take length
    if taken.length < length then taken ++ peekFrom chunks 0 (length - taken.length) else taken

theorem peekFrom_eq {length : Nat} (h : offset ≤ (chunks.headD []).length) :
    peekFrom chunks offset length = (chunks.flatten.drop offset).take length := by
  induction chunks generalizing offset length with
  | nil => simp [peekFrom]
  | cons chunk chunks ih =>
      have hrest := @ih 0 (length - (chunk.drop offset).length) (Nat.zero_le _)
      rw [List.drop_zero] at hrest
      rw [List.flatten_cons, List.drop_append_of_le_length (by simpa using h), List.take_append]
      unfold peekFrom
      dsimp only
      split
      · next hlt =>
          have hall : (chunk.drop offset).take length = chunk.drop offset :=
            List.take_of_length_le (by rw [List.length_take] at hlt; omega)
          rw [hall, hrest]
      · next hge =>
          have hnone : length - (chunk.drop offset).length = 0 := by
            rw [List.length_take] at hge
            omega
          rw [hnone, List.take_zero, List.append_nil]

/-- `peek(length)`; throws a RangeError (`none`) past the end. -/
def peek (q : ByteQueue) (length : Nat) : Option Bytes :=
  if q.byteLength < length then none else some (peekFrom q.chunks q.headOffset length)

theorem peek_eq {q : ByteQueue} {length : Nat} (h : length ≤ q.toList.length) :
    q.peek length = some (q.toList.take length) := by
  rw [length_toList] at h
  rw [peek, if_neg (not_lt.mpr h), peekFrom_eq q.offset_le, toList]

/-- The loop of `discard`: drop whole chunks, then move the offset. -/
def discardFrom : List Bytes → Nat → Nat → List Bytes × Nat
  | [], offset, _ => ([], offset)
  | chunk :: chunks, offset, remaining =>
    let available := chunk.length - offset
    if remaining = 0 then (chunk :: chunks, offset)
    else if remaining < available then (chunk :: chunks, offset + remaining)
    else discardFrom chunks 0 (remaining - available)

theorem discardFrom_spec (h : offset ≤ (chunks.headD []).length) :
    (discardFrom chunks offset remaining).2 ≤
        ((discardFrom chunks offset remaining).1.headD []).length ∧
      (discardFrom chunks offset remaining).1.flatten.drop (discardFrom chunks offset remaining).2 =
        (chunks.flatten.drop offset).drop remaining := by
  induction chunks generalizing offset remaining with
  | nil => simpa [discardFrom] using h
  | cons chunk chunks ih =>
      unfold discardFrom
      dsimp only
      split
      · next hzero => exact ⟨h, by rw [hzero, List.drop_zero]⟩
      · split
        · next hlt => exact ⟨by simp only [List.headD_cons]; omega, by rw [List.drop_drop]⟩
        · next hge =>
            obtain ⟨hle, hflat⟩ := @ih 0 (remaining - (chunk.length - offset)) (Nat.zero_le _)
            have hall : (chunk.drop offset).drop remaining = [] :=
              List.drop_of_length_le (by rw [List.length_drop]; omega)
            refine ⟨hle, ?_⟩
            rw [hflat, List.drop_zero, List.flatten_cons,
              List.drop_append_of_le_length (by simpa using h), List.drop_append, hall,
              List.nil_append, List.length_drop]

/-- `discard(length)`. -/
def discard (q : ByteQueue) (length : Nat) : ByteQueue :=
  { chunks := (discardFrom q.chunks q.headOffset length).1
    headOffset := (discardFrom q.chunks q.headOffset length).2
    byteLength := q.byteLength - length
    offset_le := (discardFrom_spec q.offset_le).1
    length_eq := by rw [(discardFrom_spec q.offset_le).2, List.length_drop, q.length_eq] }

theorem toList_discard (q : ByteQueue) (length : Nat) :
    (q.discard length).toList = q.toList.drop length :=
  (discardFrom_spec q.offset_le).2

/-- `read(length)`: the bytes peeked and the queue without them. -/
def read (q : ByteQueue) (length : Nat) : Option (Bytes × ByteQueue) :=
  (q.peek length).map fun bytes => (bytes, q.discard length)

theorem read_eq {q : ByteQueue} {length : Nat} (h : length ≤ q.toList.length) :
    q.read length = some (q.toList.take length, q.discard length) := by
  rw [read, peek_eq h, Option.map_some]

end ByteQueue

end StonePlus.Kiro

/-!
## The parser

`KiroEventStreamParser`: buffering, the frame loop, `push` and `finish`.
-/

namespace StonePlus.Kiro

/-- The parser: its byte queue, the fields of `KiroState`, and whether it has
failed or finished. -/
structure KiroEventStreamParser where
  bytes : ByteQueue := .empty
  state : KiroState := {}
  failed : Bool := false
  finished : Bool := false

/-- The three events of `emitFailure`. -/
def failureEvents (failure : KiroStreamFailure) : List CanonicalStreamEvent :=
  [.error failure.message (some failure.code) (some failure.errorType),
    .stop .error (some failure.code), .done]

/-! ## Reading a frame -/

/-- A peek past the end is a RangeError. -/
def inBounds {α : Type} : Option α → Except Thrown α
  | some a => .ok a
  | none => .error (.error (js "ByteQueue peek is out of bounds"))

/-- The checks of a prelude: the total length and the headers' length. -/
def readPrelude (maxFrameBytes : Nat) (prelude : Bytes) : Except Thrown (Nat × Nat) := do
  validatePreludeCrc prelude
  let totalLength := readUint32 prelude 0
  let headersLength := readUint32 prelude 4
  validateFrameLengths totalLength headersLength maxFrameBytes
  .ok (totalLength, headersLength)

/-- The body of the frame loop up to `handleFrame`: a frame and the queue
behind it, or `none` while the frame is incomplete. -/
def readFrame (maxFrameBytes : Nat) (bytes : ByteQueue) :
    Except Thrown (Option (ParsedFrame × ByteQueue)) := do
  let prelude ← inBounds (bytes.peek 12)
  let (totalLength, headersLength) ← readPrelude maxFrameBytes prelude
  if bytes.length < totalLength then .ok none
  else
    let (frame, bytes) ← inBounds (bytes.read totalLength)
    let frame ← parseFrame frame headersLength
    .ok (some (frame, bytes))

theorem readPrelude_le (h : readPrelude maxFrameBytes prelude = .ok (total, headers)) :
    minFrameBytes ≤ total := by
  obtain ⟨_, -, h⟩ := bind_eq_ok.mp h
  obtain ⟨_, hlengths, h⟩ := bind_eq_ok.mp h
  cases h
  exact validateFrameLengths_eq_ok hlengths

/-- A read frame is at least a minimal frame long. -/
theorem readFrame_lt (h : readFrame maxFrameBytes bytes = .ok (some (frame, rest))) :
    rest.byteLength < bytes.byteLength := by
  obtain ⟨prelude, -, h⟩ := bind_eq_ok.mp h
  obtain ⟨⟨total, headers⟩, hprelude, h⟩ := bind_eq_ok.mp h
  have hmin := readPrelude_le hprelude
  dsimp only at h
  split at h
  · cases h
  · next henough =>
      obtain ⟨⟨content, queue⟩, hread, h⟩ := bind_eq_ok.mp h
      obtain ⟨parsed, -, h⟩ := bind_eq_ok.mp h
      cases h
      have hle : total ≤ bytes.toList.length := by
        rw [ByteQueue.length_toList]
        exact not_lt.mp henough
      rw [ByteQueue.read_eq hle] at hread
      cases hread
      rw [ByteQueue.length_toList] at hle
      have : minFrameBytes = 16 := rfl
      show bytes.byteLength - total < bytes.byteLength
      omega

/-! ## The parser -/

namespace KiroEventStreamParser

def emitFailure (failure : KiroStreamFailure) (p : KiroEventStreamParser) :
    List CanonicalStreamEvent × KiroEventStreamParser :=
  if p.failed then ([], p) else (failureEvents failure, { p with failed := true, bytes := .empty })

/-- `drainFrames`, with the events it pushes. -/
def drainFrames (cfg : KiroConfig) (p : KiroEventStreamParser) :
    List CanonicalStreamEvent × KiroEventStreamParser :=
  if !p.failed && !p.finished && 12 ≤ p.bytes.length then
    match _h : readFrame cfg.maxFrameBytes p.bytes with
    | .error e => p.emitFailure (asKiroFailure e)
    | .ok none => ([], p)
    | .ok (some (frame, bytes)) =>
      match handleFrame cfg frame { p.state with sawFrame := true } with
      | (.ok _, state, events) =>
        let rest := drainFrames cfg { p with bytes := bytes, state := state }
        (events ++ rest.1, rest.2)
      | (.error e, state, events) =>
        let failed := { p with bytes := bytes, state := state }.emitFailure (asKiroFailure e)
        (events ++ failed.1, failed.2)
  else ([], p)
termination_by p.bytes.byteLength
decreasing_by exact readFrame_lt _h

def push (cfg : KiroConfig) (p : KiroEventStreamParser) (chunk : Bytes) :
    List CanonicalStreamEvent × KiroEventStreamParser :=
  if p.finished || p.failed || chunk.length == 0 then ([], p)
  else { p with bytes := p.bytes.push chunk }.drainFrames cfg

/-- The events of a complete stream: unfinished tools are recovered, then the
filter's tail, `stop` and `done` follow. -/
def completeStream (cfg : KiroConfig) : Handler Unit := do
  recoverOrRejectUnfinishedTools cfg
  emitReadyTools
  let s ← Lib.Effect.get
  let filteredTail := s.thinkingTagFilter.finish
  Lib.Effect.modify fun s => { s with thinkingTagFilter := filteredTail.2 }
  emitFiltered filteredTail.1
  let s ← Lib.Effect.get
  Lib.Effect.emit (.stop (if s.sawCompletedTool then .toolCalls else .stop)
    (some (if s.sawCompletedTool then js "tool_use" else js "end_turn")))
  Lib.Effect.emit .done

/-- Why a stream that ends here is not complete, if it is not. -/
def endFailure? (p : KiroEventStreamParser) : Option KiroStreamFailure :=
  let failure (code : String) (message : JsString) : KiroStreamFailure :=
    ⟨js code, message, js "invalid_upstream_response"⟩
  if 0 < p.bytes.length then
    some (failure "kiro_event_stream_truncated"
      (if p.bytes.length < 12 then
        js "Kiro Event Stream ended with a truncated prelude (" ++ natToString p.bytes.length ++
          js "/12 bytes)"
      else
        js "Kiro Event Stream ended with a truncated frame (" ++ natToString p.bytes.length ++
          js " buffered bytes)"))
  else if !p.state.sawFrame then
    some (failure "kiro_event_stream_empty" (js "Kiro Event Stream ended without any frames"))
  else if p.state.diagnostics.recognizedEventCount = 0 then
    some (failure "kiro_event_stream_unrecognized"
      (js "Kiro Event Stream ended without a recognized event"))
  else none

/-- `finish` once every complete frame is handled. -/
def finishDrained (cfg : KiroConfig) (p : KiroEventStreamParser) :
    List CanonicalStreamEvent × KiroEventStreamParser :=
  match p.endFailure? with
  | some failure =>
    let failed := p.emitFailure failure
    (failed.1, { failed.2 with finished := true })
  | none =>
    match completeStream cfg p.state with
    | (.ok _, state, events) => (events, { p with state := state, finished := true })
    | (.error e, state, events) =>
      let failed := { p with state := state }.emitFailure (asKiroFailure e)
      (events ++ failed.1, { failed.2 with finished := true })

def finish (cfg : KiroConfig) (p : KiroEventStreamParser) :
    List CanonicalStreamEvent × KiroEventStreamParser :=
  if p.finished then ([], p)
  else if p.failed then ([], { p with finished := true })
  else
    let drained := p.drainFrames cfg
    if drained.2.failed then (drained.1, { drained.2 with finished := true })
    else
      let rest := drained.2.finishDrained cfg
      (drained.1 ++ rest.1, rest.2)

def getDiagnostics (p : KiroEventStreamParser) : KiroEventStreamDiagnostics := p.state.diagnostics

/-- Push chunks one after another. -/
def pushAll (cfg : KiroConfig) (p : KiroEventStreamParser) :
    List Bytes → List CanonicalStreamEvent × KiroEventStreamParser
  | [] => ([], p)
  | chunk :: chunks =>
    let first := p.push cfg chunk
    let rest := first.2.pushAll cfg chunks
    (first.1 ++ rest.1, rest.2)

/-- A whole stream: every chunk is pushed, then the parser is finished. -/
def run (cfg : KiroConfig) (chunks : List Bytes) :
    List CanonicalStreamEvent × KiroEventStreamParser :=
  let pushed := KiroEventStreamParser.pushAll cfg {} chunks
  let finished := pushed.2.finish cfg
  (pushed.1 ++ finished.1, finished.2)

end KiroEventStreamParser

end StonePlus.Kiro
