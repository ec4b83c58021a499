import StonePlus.Kiro.State
import Mathlib.Data.List.Sort

/-!
# StonePlus.Kiro.Handlers

The methods of `KiroEventStreamParser` that handle one frame, and the ones
that complete, order and recover tool calls.

A `ToolState` that the source mutates in place is passed along and written
back to the map at each mutation (`saveTool`).
-/

namespace StonePlus.Kiro

open Lib.Effect

/-! ## Diagnostics -/

/-- The counters `recognize` can name. -/
inductive EventCounter
  | assistantResponse | reasoning | toolUse | usage

/-- `this.diagnostics[field] += 1`. -/
def KiroEventStreamDiagnostics.count (d : KiroEventStreamDiagnostics) :
    Option EventCounter → KiroEventStreamDiagnostics
  | none => d
  | some .assistantResponse =>
    { d with assistantResponseEventCount := d.assistantResponseEventCount + 1 }
  | some .reasoning => { d with reasoningEventCount := d.reasoningEventCount + 1 }
  | some .toolUse => { d with toolUseEventCount := d.toolUseEventCount + 1 }
  | some .usage => { d with usageEventCount := d.usageEventCount + 1 }

/-- Change the diagnostics. -/
def diagnose (f : KiroEventStreamDiagnostics → KiroEventStreamDiagnostics) : Handler Unit :=
  modify fun s => { s with diagnostics := f s.diagnostics }

def recognize (field : Option EventCounter) : Handler Unit :=
  diagnose fun d => { d with recognizedEventCount := d.recognizedEventCount + 1 }.count field

/-! ## Text -/

/-- Emit what the thinking filter let through. -/
def emitFiltered (filtered : Filtered) : Handler Unit := do
  whenever (filtered.reasoningAdvanced = true) (emit .reasoningProgress)
  whenever (filtered.text ≠ []) (emit (.textDelta filtered.text none none))

def handleAssistantResponse (cfg : KiroConfig) (payload : Json) : Handler Unit := do
  let content ← requiredStringAllowEmpty (payload.get? (js "content"))
    "assistantResponseEvent.content"
  let s ← get
  let delta ← cumulativeDelta content s.lastAssistantContent "assistant response"
  modify fun s => { s with lastAssistantContent := content }
  ensure (content.length ≤ cfg.maxCumulativeTextCharacters)
    (failure "kiro_cumulative_text_too_large"
      (js "Kiro cumulative assistant response exceeded " ++
        natToString cfg.maxCumulativeTextCharacters ++ js " characters"))
  whenever (delta ≠ []) do
    let s ← get
    let filtered := s.thinkingTagFilter.push delta
    modify fun s => { s with thinkingTagFilter := filtered.2 }
    emitFiltered filtered.1

def handleReasoning (cfg : KiroConfig) (payload : Json) : Handler Unit := do
  let text := (optionalString (payload.get? (js "text"))).getD []
  let redactedContent := (optionalString (payload.get? (js "redactedContent"))).getD []
  if text = [] then whenever (redactedContent ≠ []) (emit .reasoningProgress)
  else do
    let s ← get
    let delta ← cumulativeDelta text s.lastReasoningContent "reasoning response"
    modify fun s => { s with lastReasoningContent := text }
    ensure (text.length ≤ cfg.maxCumulativeTextCharacters)
      (failure "kiro_cumulative_reasoning_too_large"
        (js "Kiro cumulative reasoning response exceeded " ++
          natToString cfg.maxCumulativeTextCharacters ++ js " characters"))
    whenever (delta ≠ [] ∨ redactedContent ≠ []) (emit .reasoningProgress)

/-! ## Tool calls -/

/-- Write a tool's state back to the map. -/
def saveTool (state : ToolState) : Handler Unit :=
  modify fun s => { s with tools := s.tools.set state.id state }

/-- `appendToolInput`: the state with the fragment appended. -/
def appendToolInput (cfg : KiroConfig) (state : ToolState) (input : Json) : Handler ToolState := do
  let (part, mode) ← inputPart state input
  let state := { state with
    inputMode := some mode
    inputCharacters := state.inputCharacters + part.length }
  saveTool state
  modify fun s => { s with totalToolInputBytes := s.totalToolInputBytes + part.byteLength }
  let s ← get
  ensure (s.totalToolInputBytes ≤ cfg.maxTotalToolInputBytes)
    (failure "kiro_tool_input_total_too_large"
      (js "Kiro aggregate tool input exceeded " ++ natToString cfg.maxTotalToolInputBytes ++
        js " UTF-8 bytes"))
  ensure (state.inputCharacters ≤ cfg.maxFrameBytes)
    (failure "kiro_tool_input_too_large"
      (js "Kiro tool " ++ Json.quote state.id ++ js " input exceeded " ++
        natToString cfg.maxFrameBytes ++ js " characters"))
  let state := { state with inputParts := state.inputParts ++ [part] }
  saveTool state
  pure state
where
  /-- The text of an input, and the encoding it uses. -/
  inputPart (state : ToolState) (input : Json) : Except Thrown (JsString × InputMode) :=
    match input with
    | .string part =>
      if state.inputMode = some .object then
        .error (failure "kiro_tool_input_mixed_encoding" (js "Kiro tool " ++ Json.quote state.id ++
          js " mixed object and string input encodings"))
      else .ok (part, .fragments)
    | .object entries =>
      if state.inputMode = none then .ok (Json.stringify (.object entries), .object)
      else
        .error (failure "kiro_tool_input_repeated_object" (js "Kiro tool " ++
          Json.quote state.id ++ js " supplied more than one complete input object"))
    | _ =>
      .error (failure "kiro_tool_input_invalid" (js "Kiro tool " ++ Json.quote state.id ++
        js " input must be a JSON object or JSON string fragment"))

/-- `state.inputParts.join('').trim() || '{}'`. -/
def rawToolInput (state : ToolState) : JsString :=
  match JsString.trim state.inputParts.flatten with
  | [] => js "\x7b\x7d"
  | input => input

/-- The check of an input against the schema declared for its tool, if any. -/
def checkSchema (cfg : KiroConfig) (name : JsString) (input : List (JsString × Json)) :
    Except Thrown Unit :=
  match cfg.declaredToolSchemas.get? name with
  | none => .ok ()
  | some schema =>
    match validateSchemaValue cfg.regExps (maxSchemaValidationDepth + 1) (.object input) schema
        (js "$") with
    | none => .ok ()
    | some issue => .error (failure "kiro_tool_input_schema" (js "Kiro tool " ++ Json.quote name ++
        js " input failed schema validation at " ++ issue.path ++ js ": " ++ issue.reason))

def prepareCompletedTool (cfg : KiroConfig) (state : ToolState) (recovered : Bool) :
    Except Thrown CompletedToolState := do
  let name ← match state.name with
    | some (c :: name) => .ok (c :: name)
    | _ => .error (failure "kiro_tool_name_missing"
        (js "Kiro tool " ++ Json.quote state.id ++ js " completed without a name"))
  if name ∉ cfg.declaredToolNames then
    .error (failure "kiro_tool_undeclared" (js "Kiro tool " ++ Json.quote name ++
      js " was not declared by the downstream request"))
  else
    let parsedInput ← parseToolInput (rawToolInput state) state.id
    checkSchema cfg name parsedInput
    if recovered = true ∧ parsedInput ≠ [] then
      .error (failure "kiro_tool_stop_missing" (js "Kiro tool " ++ Json.quote state.id ++
        js " ended without a stop frame and has non-empty input"))
    else .ok ⟨state.index, state.id, name, Json.stringify (.object parsedInput)⟩

theorem size_delete_lt {κ ν : Type} [DecidableEq κ] {m : JsMap κ ν} {k : κ} {v : ν}
    (h : m.get? k = some v) : (m.delete k).size < m.size := by
  have hmem := JsMap.get?_eq_some_iff.mp h
  rw [JsMap.size, JsMap.entries_delete]
  exact List.length_filter_lt_length_iff_exists.mpr ⟨_, hmem, by simp⟩

/-- The loop of `emitReadyTools`: the events it pushes and the fields it leaves.
`completedTools` is keyed by the tools' indices. -/
def readyTools (s : KiroState) : List CanonicalStreamEvent × KiroState :=
  match _h : s.completedTools.get? s.nextToolIndexToEmit with
  | none => ([], s)
  | some tool =>
    let rest := readyTools { s with
      completedTools := s.completedTools.delete s.nextToolIndexToEmit
      nextToolIndexToEmit := s.nextToolIndexToEmit + 1 }
    (.toolCallDelta tool.index (some tool.id) (some tool.name) (some tool.arguments) none none ::
      .toolCallComplete tool.index :: rest.1, rest.2)
termination_by s.completedTools.size
decreasing_by exact size_delete_lt _h

def emitReadyTools : Handler Unit := fun s => (.ok (), (readyTools s).2, (readyTools s).1)

def commitCompletedTool (cfg : KiroConfig) (state : ToolState) (completed : CompletedToolState)
    (recovered : Bool) : Handler Unit := do
  let s ← get
  ensure (s.completedToolIds.length < cfg.maxCompletedToolCount)
    (failure "kiro_tool_completed_limit" (js "Kiro response exceeded " ++
      natToString cfg.maxCompletedToolCount ++ js " retained completed tool IDs"))
  ensure (state.index = s.nextToolIndexToEmit ∨ s.completedTools.size < cfg.maxPendingToolCount)
    (failure "kiro_tool_pending_limit" (js "Kiro response exceeded " ++
      natToString cfg.maxPendingToolCount ++
      js " completed tools waiting for ordered emission"))
  modify fun s => { s with
    tools := s.tools.delete state.id
    completedToolIds :=
      if state.id ∈ s.completedToolIds then s.completedToolIds
      else s.completedToolIds ++ [state.id]
    completedTools := s.completedTools.set state.index completed
    sawCompletedTool := true }
  diagnose fun d => { d with completedToolUseCount := d.completedToolUseCount + 1 }
  whenever (recovered = true)
    (diagnose fun d => { d with structuralRecoveryCount := d.structuralRecoveryCount + 1 })
  emitReadyTools

def completeTool (cfg : KiroConfig) (state : ToolState) (recovered : Bool) : Handler Unit := do
  let completed ← prepareCompletedTool cfg state recovered
  commitCompletedTool cfg state completed recovered

/-- The tool a `toolUseEvent` belongs to, which is started if it is new. -/
def openTool (cfg : KiroConfig) (id : JsString) : Handler ToolState := do
  let s ← get
  match s.tools.get? id with
  | some state => pure state
  | none => do
    ensure (s.nextToolIndex < cfg.maxToolCount)
      (failure "kiro_tool_count_limit" (js "Kiro response exceeded " ++
        natToString cfg.maxToolCount ++ js " distinct tool calls"))
    ensure (s.tools.size < cfg.maxActiveToolCount)
      (failure "kiro_tool_active_limit" (js "Kiro response exceeded " ++
        natToString cfg.maxActiveToolCount ++ js " simultaneously active tool calls"))
    let state : ToolState := { index := s.nextToolIndex, id := id }
    modify fun s => { s with nextToolIndex := s.nextToolIndex + 1 }
    saveTool state
    pure state

/-- The `name` field of a `toolUseEvent`. -/
def nameTool (state : ToolState) (field : Option Json) : Handler ToolState :=
  match field with
  | none => pure state
  | some value => do
    let name ← requiredString (some value) "toolUseEvent.name"
    ensure (state.name = none ∨ state.name = some name)
      (failure "kiro_tool_name_changed" (js "Kiro tool " ++ Json.quote state.id ++
        js " changed name from " ++ Json.quote (state.name.getD []) ++ js " to " ++
        Json.quote name))
    let state := { state with name := some name }
    saveTool state
    pure state

/-- The `stop` field of a `toolUseEvent`. -/
def stopField (field : Option Json) : Except Thrown Bool :=
  match field with
  | none => .ok false
  | some (.bool stop) => .ok stop
  | some _ => .error (failure "kiro_tool_stop_invalid" (js "toolUseEvent.stop must be a boolean"))

def handleToolUse (cfg : KiroConfig) (payload : Json) : Handler Unit := do
  let id ← requiredString (payload.get? (js "toolUseId")) "toolUseEvent.toolUseId"
  let s ← get
  ensure (id ∉ s.completedToolIds)
    (failure "kiro_tool_id_reused" (js "Kiro toolUseId " ++ Json.quote id ++
      js " was reused after completion"))
  let state ← openTool cfg id
  let state ← nameTool state (payload.get? (js "name"))
  let state ← match payload.get? (js "input") with
    | none => pure state
    | some input => appendToolInput cfg state input
  let stop ← stopField (payload.get? (js "stop"))
  whenever (stop = true) (completeTool cfg state false)

/-- Commit prepared tools one after another. -/
def commitAll (cfg : KiroConfig) : List (ToolState × CompletedToolState) → Handler Unit
  | [] => pure ()
  | (state, completed) :: rest => do
    commitCompletedTool cfg state completed true
    commitAll cfg rest

/-- Prepare unfinished tools one after another, before any is committed. -/
def prepareAll (cfg : KiroConfig) :
    List ToolState → Except Thrown (List (ToolState × CompletedToolState))
  | [] => .ok []
  | state :: rest => do
    let completed ← prepareCompletedTool cfg state true
    let prepared ← prepareAll cfg rest
    .ok ((state, completed) :: prepared)

def recoverOrRejectUnfinishedTools (cfg : KiroConfig) : Handler Unit := do
  let s ← get
  let pending := s.tools.values.mergeSort fun left right => left.index ≤ right.index
  let prepared ← prepareAll cfg pending
  commitAll cfg prepared

/-! ## Other events -/

/-- `handleUsage`; the flag says which of the two usage events it is. -/
def handleUsage (metadata : Bool) (payload : Json) : Handler Unit := do
  let event ← if metadata then metadataUsage else meteringUsage
  whenever (event ≠ {}) (emit (.usage event))
where
  metadataUsage : Except Thrown CanonicalUsage := do
    let tokenUsage ← requiredObject (payload.get? (js "tokenUsage")) "metadataEvent.tokenUsage"
    let count (name : String) := optionalTokenCount (tokenUsage.get? (js name)) name
    let uncached ← count "uncachedInputTokens"
    let cacheRead ← count "cacheReadInputTokens"
    let cacheWrite ← count "cacheWriteInputTokens"
    let output ← count "outputTokens"
    let input := sumDefined [uncached, cacheRead, cacheWrite]
    let total ← count "totalTokens"
    let reasoning ← count "reasoningTokens"
    .ok {
      inputTokens := input
      outputTokens := output
      totalTokens := total <|> sumDefined [input, output]
      cachedInputTokens := cacheRead
      cacheCreationInputTokens := cacheWrite
      reasoningTokens := reasoning }
  meteringUsage : Except Thrown CanonicalUsage := do
    let input ← optionalTokenCount (payload.get? (js "inputTokens")) "inputTokens"
    let output ← optionalTokenCount (payload.get? (js "outputTokens")) "outputTokens"
    .ok {
      inputTokens := input
      outputTokens := output
      totalTokens := sumDefined [input, output] }

def handleInvalidState (payload : Json) : Handler Unit := do
  let reason := (optionalString (payload.get? (js "reason"))).getD (js "invalid_state")
  let message := (optionalString (payload.get? (js "message"))).getD
    (js "Kiro invalid state: " ++ reason)
  diagnose fun d => { d with invalidStateReason := some reason }
  throw (.failure ⟨reason, message, js "kiro_invalid_state"⟩)

def handleMessageMetadata (payload : Json) : Handler Unit :=
  diagnose fun d => { d with
    conversationId := optionalString (payload.get? (js "conversationId")) <|> d.conversationId
    utteranceId := optionalString (payload.get? (js "utteranceId")) <|> d.utteranceId }

/-! ## Frames -/

/-- The event types with a JSON payload the parser reads. -/
inductive KiroEventType
  | assistantResponse | reasoningContent | toolUse | metadata | metering | invalidState
  | messageMetadata

/-- `KIRO_JSON_EVENT_TYPES`. -/
def kiroJsonEventTypes : List (String × KiroEventType) :=
  [("assistantResponseEvent", .assistantResponse), ("reasoningContentEvent", .reasoningContent),
    ("toolUseEvent", .toolUse), ("metadataEvent", .metadata), ("meteringEvent", .metering),
    ("invalidStateEvent", .invalidState), ("messageMetadataEvent", .messageMetadata)]

/-- `KIRO_IGNORED_EVENT_TYPES`. -/
def kiroIgnoredEventTypes : List String :=
  ["contextUsageEvent", "followupPromptEvent", "citationEvent", "codeEvent", "codeReferenceEvent",
    "supplementaryWebLinksEvent", "intentsEvent", "interactionComponentsEvent",
    "dryRunSucceedEvent", "initial-response"]

/-- The known event type a header spells. -/
def kiroEventType? (eventType : JsString) : Option KiroEventType :=
  (kiroJsonEventTypes.find? fun entry => js entry.1 == eventType).map Prod.snd

def handleEvent (cfg : KiroConfig) (eventType : KiroEventType) (payload : Json) : Handler Unit :=
  match eventType with
  | .assistantResponse => do
    recognize (some .assistantResponse)
    handleAssistantResponse cfg payload
  | .reasoningContent => do
    recognize (some .reasoning)
    handleReasoning cfg payload
  | .toolUse => do
    recognize (some .toolUse)
    handleToolUse cfg payload
  | .metadata => do
    recognize (some .usage)
    handleUsage true payload
  | .metering => do
    recognize (some .usage)
    handleUsage false payload
  | .invalidState => do
    recognize none
    handleInvalidState payload
  | .messageMetadata => do
    recognize none
    handleMessageMetadata payload

/-- What an `exception` frame throws. -/
def exceptionFailure (frame : ParsedFrame) : Except Thrown KiroStreamFailure := do
  let exceptionType ← requiredStringHeader frame.headers ":exception-type"
  let payload ← parseJsonObject frame.payload exceptionType
  let message := (optionalString (payload.get? (js "message"))).getD
    (js "Kiro upstream exception: " ++ exceptionType)
  .ok ⟨exceptionType, message, js "kiro_exception"⟩

/-- The checks every frame goes through: its message type. -/
def messageType (frame : ParsedFrame) : Except Thrown JsString := do
  let messageType ← requiredStringHeader frame.headers ":message-type"
  let contentType ← requiredStringHeader frame.headers ":content-type"
  if isJsonContentType contentType then .ok messageType
  else
    .error (failure "kiro_event_stream_content_type"
      (js "Kiro Event Stream frame has unsupported content type " ++ Json.quote contentType))

def handleFrame (cfg : KiroConfig) (frame : ParsedFrame) : Handler Unit := do
  let messageType ← messageType frame
  if messageType = js "exception" then do
    let failure ← exceptionFailure frame
    throw (.failure failure)
  else if messageType ≠ js "event" then
    throw (failure "kiro_event_stream_message_type"
      (js "Unsupported Kiro Event Stream message type " ++ Json.quote messageType))
  else do
    let eventType ← requiredStringHeader frame.headers ":event-type"
    if eventType ∈ kiroIgnoredEventTypes.map js then recognize none
    else
      match kiroEventType? eventType with
      | none => pure ()
      | some known => do
        let payload ← parseJsonObject frame.payload eventType
        handleEvent cfg known payload

end StonePlus.Kiro
