import StonePlus.Js.TextDecoder
import StonePlus.Streaming.Handlers
import StonePlus.Streaming.JsonFramer
import StonePlus.Streaming.ResponsesHandler
import StonePlus.Streaming.Sse

/-!
# StonePlus.Streaming.Parser

`ProtocolParser`: decoding, framing, `push` and `finish`.

The message of the language's `SyntaxError` depends on the engine and is a
parameter of everything that may report one.
-/

namespace StonePlus.Streaming

open Lib.Effect

inductive FramingKind
  | sse | json
  deriving DecidableEq

structure ProtocolParser where
  decoder : TextDecoder := {}
  sse : SseFramer := {}
  json : JsonFramer := {}
  framing : Option FramingKind
  framingBuffer : JsString := []
  state : ParserState := {}

/-- `CanonicalProtocolState`. -/
structure CanonicalProtocolState where
  responsesEventCount : Nat
  responsesProgressEventCount : Nat
  responsesTerminalEvent : Option ResponsesTerminalEvent
  responsesLastEventType : Option JsString
  responsesLastSequenceNumber : Option Nat

/-- What a method emits, and the state it leaves. -/
def exec (m : Handler Unit) (s : ParserState) : List StreamEvent × ParserState :=
  ((m s).2.2, (m s).2.1)

/-- Methods called one after another. -/
def execAll : List (Handler Unit) → ParserState → List StreamEvent × ParserState
  | [], s => ([], s)
  | m :: ms, s =>
    let first := exec m s
    let rest := execAll ms first.2
    (first.1 ++ rest.1, rest.2)

section

variable (syntaxError : JsString → JsString) (protocol : Protocol) (options : ParserOptions)

/-! ## Payloads -/

def handlePayload (eventName : Option JsString) (value : Json) : Handler Unit :=
  match objectValue (some value) with
  | none => emitError (js "Stream payload must be a JSON object") (some (js "invalid_payload")) none
  | some payload => do
    whenever (recognizedProtocolPayload protocol eventName payload) (modify fun s =>
      { s with recognizedEventCount := s.recognizedEventCount + 1 })
    match protocol with
    | .openaiChat => handleOpenAiChat options eventName payload
    | .openaiResponses => handleOpenAiResponses eventName payload
    | .anthropicMessages => handleAnthropic options eventName payload
    | .gemini => handleGemini options payload

/-- The end marker `[DONE]`. -/
def handleDoneMarker : Handler Unit := do
  let s ← get
  if protocol = .openaiResponses then
    modify fun s => { s with responsesLastEventType := some (js "[DONE]") }
  else do
    whenever (decide (protocol = .openaiChat) && !s.stopped && !s.errored)
      (emitIncompleteStream (js "Stream ended before a semantic finish reason"))
    emitDone

def handleSse (eventName : Option JsString) (data : JsString) : Handler Unit := do
  let s ← get
  if protocol = .openaiResponses ∧ s.done then pure ()
  else if data.trim = js "[DONE]" then handleDoneMarker protocol
  else
    match Json.parse data with
    | some value => handlePayload protocol options eventName value
    | none =>
      if s.finishing then emitIncompleteStream (syntaxError data)
      else emitError (syntaxError data) none (some (js "invalid_json"))

/-- The callbacks of the SSE framer. -/
def onSseItem : SseItem → Handler Unit
  | .event eventName data => handleSse syntaxError protocol options eventName data
  | .error message => emitFramingError message

/-- The callbacks of the JSON framer. -/
def onJsonItem : JsonItem → Handler Unit
  | .value v => handlePayload protocol options none v
  | .error message => emitFramingError message

namespace ProtocolParser

/-- The constructor: Gemini streams are framed by what they start with. -/
def init : ProtocolParser where
  framing := if protocol = .gemini then none else some .sse

/-! ## Text -/

def pushFramed (p : ProtocolParser) (text : JsString) : List StreamEvent × ProtocolParser :=
  if p.framing = some .json then
    let framed := p.json.push syntaxError options.limit text
    let handled := execAll (framed.1.map (onJsonItem protocol options)) p.state
    (handled.1, { p with json := framed.2, state := handled.2 })
  else
    let framed := p.sse.push options.limit text
    let handled := execAll (framed.1.map (onSseItem syntaxError protocol options)) p.state
    (handled.1, { p with sse := framed.2, state := handled.2 })

def selectGeminiFraming (p : ProtocolParser) : List StreamEvent × ProtocolParser :=
  match trimStart p.framingBuffer with
  | [] => ([], p)
  | first :: _ =>
    let framing := if first = 0x7B ∨ first = 0x5B then FramingKind.json else .sse
    pushFramed syntaxError protocol options
      { p with framing := some framing, framingBuffer := [] } p.framingBuffer

def consumeText (p : ProtocolParser) (text : JsString) : List StreamEvent × ProtocolParser :=
  if text = [] then ([], p)
  else if p.framing = none then
    selectGeminiFraming syntaxError protocol options
      { p with framingBuffer := p.framingBuffer ++ text }
  else pushFramed syntaxError protocol options p text

def push (p : ProtocolParser) (chunk : Bytes) : List StreamEvent × ProtocolParser :=
  let decoded := p.decoder.decode chunk
  consumeText syntaxError protocol options { p with decoder := decoded.2 } decoded.1

/-! ## The end -/

/-- The framers' part of `finish`. -/
def finishFraming (p : ProtocolParser) : List StreamEvent × ProtocolParser :=
  match p.framing with
  | none => ([], p)
  | some .sse =>
    let framed := p.sse.finish options.limit
    let handled := execAll (framed.1.map (onSseItem syntaxError protocol options)) p.state
    (handled.1, { p with sse := framed.2, state := handled.2 })
  | some .json =>
    let framed := p.json.finish syntaxError options.limit
    let handled := execAll (framed.1.map (onJsonItem protocol options)) p.state
    (handled.1, { p with json := framed.2, state := handled.2 })

/-- The last part of `finish`: a stream that is not done ends here. -/
def closeStream : Handler Unit := do
  let s ← get
  if s.done then pure ()
  else do
    whenever (!s.stopped && !s.errored) do
      emitError (js "Stream ended before a stop or done event") none (some (js "incomplete_stream"))
      emitStop .error (some (js "incomplete_stream"))
    emitDone

def finish (p : ProtocolParser) : List StreamEvent × ProtocolParser :=
  let flushed := consumeText syntaxError protocol options { p with decoder := {} } p.decoder.flush
  let selected := if flushed.2.framing = none ∧ flushed.2.framingBuffer.trim ≠ [] then
    selectGeminiFraming syntaxError protocol options flushed.2 else ([], flushed.2)
  let finishing := { selected.2 with state := { selected.2.state with finishing := true } }
  let framed := finishFraming syntaxError protocol options finishing
  let closed := exec closeStream { framed.2.state with finishing := false }
  (flushed.1 ++ selected.1 ++ framed.1 ++ closed.1, { framed.2 with state := closed.2 })

def getProtocolState (p : ProtocolParser) : CanonicalProtocolState where
  responsesEventCount := p.state.responsesEventCount
  responsesProgressEventCount := p.state.responsesProgressEventCount
  responsesTerminalEvent := p.state.responsesTerminalEvent
  responsesLastEventType := p.state.responsesLastEventType
  responsesLastSequenceNumber := p.state.responsesLastSequenceNumber

def getRecognizedEventCount (p : ProtocolParser) : Nat := p.state.recognizedEventCount

/-- A stream: the chunks pushed into a new parser, and `finish`. -/
def run (chunks : List Bytes) : List StreamEvent × ProtocolParser :=
  let pushed := Lib.chunks (push syntaxError protocol options) (init protocol) chunks
  let finished := finish syntaxError protocol options pushed.2
  (pushed.1 ++ finished.1, finished.2)

end ProtocolParser

end

end StonePlus.Streaming
