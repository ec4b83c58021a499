import StonePlus.Lib.Effect
import StonePlus.Streaming.Values

/-!
# StonePlus.Streaming.ParserState

The protocol state of `ProtocolParser`: its mutable fields apart from the
framing, and the methods that emit events.

`this.events` is the output of a handler, in the order of the calls.
-/

namespace StonePlus.Streaming

open Lib.Effect

inductive ResponsesTerminalEvent
  | completed | incomplete | failed
  deriving DecidableEq

/-- The name of the event. -/
def ResponsesTerminalEvent.name : ResponsesTerminalEvent → JsString
  | .completed => js "response.completed"
  | .incomplete => js "response.incomplete"
  | .failed => js "response.failed"

/-- The status of the response in it. -/
def ResponsesTerminalEvent.status : ResponsesTerminalEvent → JsString
  | .completed => js "completed"
  | .incomplete => js "incomplete"
  | .failed => js "failed"

structure ParserState where
  started : Bool := false
  stopped : Bool := false
  done : Bool := false
  errored : Bool := false
  finishing : Bool := false
  sawToolCall : Bool := false
  sawRefusal : Bool := false
  nextToolIndex : Nat := 0
  anthropicToolIndices : JsMap JsNumber Nat := ∅
  responsesToolIndices : JsMap Int Nat := ∅
  responsesToolMetadataSeen : List Int := []
  responsesArguments : JsMap Int JsString := ∅
  responsesToolCompleted : List Int := []
  responsesToolIdentityIndices : JsMap JsString Int := ∅
  nextSyntheticResponsesOutputIndex : Int := -1
  geminiToolIndices : JsMap JsString Nat := ∅
  lastUsage : JsString := []
  usage : CanonicalUsage := {}
  responsesEventCount : Nat := 0
  responsesProgressEventCount : Nat := 0
  responsesTerminalEvent : Option ResponsesTerminalEvent := none
  responsesResponseId : Option JsString := none
  responsesLastEventType : Option JsString := none
  responsesLastSequenceNumber : Option Nat := none
  responsesTerminalResponse : Option JsonObject := none
  responsesTextDeltaKeys : List JsString := []
  responsesTextDoneKeys : List JsString := []
  recognizedEventCount : Nat := 0
  responsesLastProgressUsage : JsString := []

/-- `StreamParsingOptions`. -/
structure ParserOptions where
  maxBufferedCharacters : Option JsNumber := none
  suppressGeminiThoughtText : Bool := false
  emitReasoningProgress : Bool := false

/-- `normalizeBufferedCharacterLimit`. -/
def ParserOptions.limit (options : ParserOptions) : Nat :=
  let default := 16 * 1024 * 1024
  match options.maxBufferedCharacters with
  | none => default
  | some value =>
    match nonNegativeSafeInteger (some (.number value)) with
    | some (n + 1) => n + 1
    | _ => default

/-- An event of an upstream, which numbers calls with its own numbers. -/
abbrev StreamEvent := CanonicalStreamEvent JsNumber

/-- A method: it changes the protocol state and emits events. -/
abbrev Handler (α : Type) := Lib.Effect ParserState StreamEvent Empty α

/-- A tool index or an output index as a number of the language. -/
def indexNumber (index : Int) : JsNumber := .ofInt index

/-! ## Emitting -/

def emitStart (idValue modelValue createdValue : Option Json) : Handler Unit := do
  let s ← get
  let id := optionalString idValue
  let model := optionalString modelValue
  let created := numberValue createdValue
  if s.started || (id.isNone && model.isNone && created.isNone) then pure ()
  else do
    modify fun s => { s with started := true }
    emit (.start id model (created.map normalizeTimestamp))

def emitStop (reason : CanonicalStopReason) (rawReason : Option JsString) : Handler Unit := do
  if (← get).stopped then pure ()
  else do
    modify fun s => { s with stopped := true }
    emit (.stop reason rawReason)

def emitError (message : JsString) (code errorType : Option JsString) : Handler Unit := do
  modify fun s => { s with errored := true }
  emit (.error message code errorType)

def emitErrorObject (value : Option Json) : Handler Unit :=
  match objectValue value with
  | none =>
    match value with
    | some (.string message) => emitError message none none
    | _ => emitError (js "Unknown streaming error") none none
  | some error =>
    emitError (stringValue (error.prop "message") (js "Unknown streaming error"))
      (optionalString (error.prop "code"))
      ((optionalString (error.prop "type")).or (optionalString (error.prop "status")))

def emitIncompleteStream (message : JsString) : Handler Unit := do
  emitError message none (some (js "incomplete_stream"))
  emitStop .error (some (js "incomplete_stream"))

def emitDone : Handler Unit := do
  if (← get).done then pure ()
  else do
    modify fun s => { s with done := true }
    emit .done

def emitFramingError (message : JsString) : Handler Unit :=
  if startsWith message "Incomplete JSON value" then emitIncompleteStream message
  else if includes message "exceeded" && includes message "buffered characters" then do
    emitError message (some (js "frame_too_large")) (some (js "frame_too_large"))
    emitStop .error (some (js "frame_too_large"))
    emitDone
  else emitError message none (some (js "invalid_json"))

def emitResponsesProtocolError (message : JsString) (code : JsString) : Handler Unit := do
  emitError message (some code) (some (js "invalid_stream_event"))
  emitStop .error (some code)
  emitDone

/-! ## Usage -/

/-- A usage event carries every counter seen so far. -/
def mergeUsage (seen parsed : CanonicalUsage) : CanonicalUsage :=
  let inputTokens := parsed.inputTokens.or seen.inputTokens
  let outputTokens := parsed.outputTokens.or seen.outputTokens
  { inputTokens := inputTokens
    outputTokens := outputTokens
    totalTokens := parsed.totalTokens.or ((sumDefined inputTokens outputTokens).or seen.totalTokens)
    cachedInputTokens := parsed.cachedInputTokens.or seen.cachedInputTokens
    cacheCreationInputTokens := parsed.cacheCreationInputTokens.or seen.cacheCreationInputTokens
    cacheCreation5mInputTokens :=
      parsed.cacheCreation5mInputTokens.or seen.cacheCreation5mInputTokens
    cacheCreation1hInputTokens :=
      parsed.cacheCreation1hInputTokens.or seen.cacheCreation1hInputTokens
    reasoningTokens := parsed.reasoningTokens.or seen.reasoningTokens }

/-- The counters as the signature lists them. -/
def usageSignature (usage : CanonicalUsage) : JsString :=
  signature [usage.inputTokens, usage.outputTokens, usage.totalTokens, usage.cachedInputTokens,
    usage.cacheCreationInputTokens, usage.cacheCreation5mInputTokens,
    usage.cacheCreation1hInputTokens, usage.reasoningTokens]

/-- The end of `emitUsage`: merge the counters of a payload and report them if
they changed anything. -/
def emitParsedUsage (parsed : CanonicalUsage) : Handler Unit := do
  if parsed = {} then pure ()
  else do
    modify fun s => { s with usage := mergeUsage s.usage parsed }
    let s ← get
    if usageSignature s.usage = s.lastUsage then pure ()
    else do
      modify fun s => { s with lastUsage := usageSignature s.usage }
      emit (.usage s.usage)

/-- `emitUsage`. -/
def emitUsage (usage : Option JsonObject) (inputKey outputKey : String) (totalKey : Option String) :
    Handler Unit :=
  match usage with
  | none => pure ()
  | some usage =>
    let inputDetails := (objectValue (usage.prop "input_tokens_details")).or
      (objectValue (usage.prop "prompt_tokens_details"))
    let outputDetails := (objectValue (usage.prop "output_tokens_details")).or
      (objectValue (usage.prop "completion_tokens_details"))
    let cacheCreation := objectValue (usage.prop "cache_creation")
    emitParsedUsage
      { inputTokens := numberValue (usage.prop inputKey)
        outputTokens := numberValue (usage.prop outputKey)
        totalTokens := totalKey.bind fun key => numberValue (usage.prop key)
        cachedInputTokens := numberValue (inputDetails.bind (·.prop "cached_tokens"))
        cacheCreationInputTokens := numberValue (usage.prop "cache_creation_input_tokens")
        cacheCreation5mInputTokens :=
          numberValue (cacheCreation.bind (·.prop "ephemeral_5m_input_tokens"))
        cacheCreation1hInputTokens :=
          numberValue (cacheCreation.bind (·.prop "ephemeral_1h_input_tokens"))
        reasoningTokens := numberValue (outputDetails.bind (·.prop "reasoning_tokens")) }

/-- `emitAnthropicUsage`: the counters of the object it hands to `emitUsage`,
which reads them back with `numberValue`. -/
def emitAnthropicUsage (usage : Option JsonObject) : Handler Unit :=
  match usage with
  | none => pure ()
  | some usage =>
    let finite (n : Option JsNumber) : Option JsNumber := n.filter fun n => n.isFinite
    let uncached := numberValue (usage.prop "input_tokens")
    let cacheRead := numberValue (usage.prop "cache_read_input_tokens")
    let details := objectValue (usage.prop "cache_creation")
    let cacheCreation5m := numberValue (details.bind (·.prop "ephemeral_5m_input_tokens"))
    let cacheCreation1h := numberValue (details.bind (·.prop "ephemeral_1h_input_tokens"))
    let cacheCreation := (numberValue (usage.prop "cache_creation_input_tokens")).or
      (sumOptional cacheCreation5m cacheCreation1h)
    let inputParts := [uncached, cacheRead, cacheCreation].filterMap id
    let inputTokens :=
      if inputParts = [] then none else some (inputParts.foldl (· + ·) (.ofInt 0))
    let thinkingTokens := numberValue
      ((objectValue (usage.prop "output_tokens_details")).bind (·.prop "thinking_tokens"))
    emitParsedUsage
      { inputTokens := finite inputTokens
        outputTokens := numberValue (usage.prop "output_tokens")
        totalTokens := none
        cachedInputTokens := cacheRead
        cacheCreationInputTokens := finite cacheCreation
        cacheCreation5mInputTokens := cacheCreation5m
        cacheCreation1hInputTokens := cacheCreation1h
        reasoningTokens := thinkingTokens }

end StonePlus.Streaming
