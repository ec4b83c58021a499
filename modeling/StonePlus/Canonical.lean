import StonePlus.Js.Number

/-!
# StonePlus.Canonical

The protocol-neutral stream events of `gateway/streaming.ts`.

Every upstream parser produces them and every downstream encoder consumes
them.  Optional properties are `Option`s.
-/

namespace StonePlus

inductive CanonicalStopReason
  | stop | length | toolCalls | contentFilter | error | other
  deriving DecidableEq, Repr

inductive ContentType
  | text | refusal
  deriving DecidableEq, Repr

inductive ToolCallType
  | functionCall | customToolCall
  deriving DecidableEq, Repr

/-- The counters of a `usage` event. -/
structure CanonicalUsage where
  inputTokens : Option JsNumber := none
  outputTokens : Option JsNumber := none
  totalTokens : Option JsNumber := none
  cachedInputTokens : Option JsNumber := none
  cacheCreationInputTokens : Option JsNumber := none
  cacheCreation5mInputTokens : Option JsNumber := none
  cacheCreation1hInputTokens : Option JsNumber := none
  reasoningTokens : Option JsNumber := none
  deriving DecidableEq

/-- An event.  `ι` is what its producer numbers tool calls and messages with:
natural numbers where it counts them itself, numbers of the language where the
upstream gives them. -/
inductive CanonicalStreamEvent (ι : Type := Nat)
  | start (id model : Option JsString) (createdAt : Option JsNumber)
  | textDelta (text : JsString) (index : Option ι) (contentType : Option ContentType)
  | reasoningProgress
  | toolCallDelta (index : ι) (id name arguments : Option JsString)
      (toolType : Option ToolCallType) (outputIndex : Option ι)
  | toolCallComplete (index : ι)
  | messageComplete (index : ι)
  | usage (usage : CanonicalUsage)
  | stop (reason : CanonicalStopReason) (rawReason : Option JsString)
  | error (message : JsString) (code errorType : Option JsString)
  | done
  deriving DecidableEq

def isError {ι : Type} : CanonicalStreamEvent ι → Bool
  | .error .. => true
  | _ => false

def isDone {ι : Type} : CanonicalStreamEvent ι → Bool
  | .done => true
  | _ => false

end StonePlus
