import StonePlus.Lib.Run
import StonePlus.Streaming.Encoders
import StonePlus.Streaming.ResponsesEncoder

/-!
# StonePlus.Streaming.Encoder

`ProtocolEncoder`: `encode`, `finish` and `getFailure`.
-/

namespace StonePlus.Streaming

open Lib.Effect

variable (protocol : Protocol) (options : EncodingOptions)

/-- The encoder of the protocol. -/
def encodeEvent (event : StreamEvent) : Encoding Frame Unit :=
  match protocol with
  | .openaiChat => encodeOpenAiChat options event
  | .openaiResponses => mapOutput ResponsesEvent.frame (encodeOpenAiResponses options event)
  | .anthropicMessages => encodeAnthropic event
  | .gemini => encodeGemini event

/-- What a `start` event says of the response. -/
def noteStart (event : StreamEvent) (s : EncoderState) : EncoderState :=
  match event with
  | .start id model createdAt =>
    { s with
      id := (id.filter fun id => !id.isEmpty).getD s.id
      model := (model.filter fun model => !model.isEmpty).getD s.model
      createdAt := createdAt.getD s.createdAt }
  | _ => s

/-- `encode`. -/
def encode (s : EncoderState) (event : StreamEvent) : List Frame × EncoderState :=
  if s.done then ([], s)
  else
    let encoded := encodeEvent protocol options event (noteStart event s)
    (encoded.2.2, encoded.2.1)

/-- `encode` for events in turn. -/
def encodeAll (s : EncoderState) : List StreamEvent → List Frame × EncoderState
  | [] => ([], s)
  | event :: events =>
    let first := encode protocol options s event
    let rest := encodeAll first.2 events
    (first.1 ++ rest.1, rest.2)

/-- `finish`. -/
def finishEncoding (s : EncoderState) : List Frame × EncoderState :=
  if s.done then ([], s) else encode protocol options s .done

/-- A stream: a new encoder is fed events and finished. -/
def encodeStream (events : List StreamEvent) : List Frame :=
  let encoded := encodeAll protocol options (.init protocol options) events
  encoded.1 ++ (finishEncoding protocol options encoded.2).1

end StonePlus.Streaming
