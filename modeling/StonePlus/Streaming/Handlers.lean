import StonePlus.Streaming.ParserState

/-!
# StonePlus.Streaming.Handlers

`handleOpenAiChat`, `handleAnthropic` and `handleGemini` of `ProtocolParser`:
what one payload of these protocols does.
-/

namespace StonePlus.Streaming

open Lib.Effect

/-! ## OpenAI Chat -/

/-- A reasoning detail that says something. -/
def reasoningAdvances : Json → Bool
  | .string s => !s.trim.isEmpty
  | .object entries => !entries.isEmpty
  | _ => false

/-- The body of the loop over `delta.tool_calls`. -/
def handleChatToolCall (toolCall : JsonObject) : Handler Unit := do
  let definition := (objectValue (toolCall.prop "function")).getD []
  modify fun s => { s with sawToolCall := true }
  emit (.toolCallDelta ((numberValue (toolCall.prop "index")).getD (.ofInt 0))
    (optionalString (toolCall.prop "id")) (optionalString (definition.prop "name"))
    (optionalString (definition.prop "arguments")) none none)

/-- `delta.function_call`. -/
def handleLegacyCall (call : Option JsonObject) : Handler Unit :=
  match call with
  | none => pure ()
  | some call => do
    modify fun s => { s with sawToolCall := true }
    emit (.toolCallDelta (.ofInt 0) none (optionalString (call.prop "name"))
      (optionalString (call.prop "arguments")) none none)

/-- `if (text) events.push({ type: 'text-delta', text })`. -/
def emitText (text : JsString) : Handler Unit :=
  if text = [] then pure () else emit (.textDelta text none none)

/-- The body of the loop over the selected choices. -/
def handleChatChoice (options : ParserOptions) (choice : JsonObject) : Handler Unit := do
  let delta := (objectValue (choice.prop "delta")).getD []
  emitText (stringValue (delta.prop "content") [])
  let reasoning := stringValue (nullish (delta.prop "reasoning_content") (delta.prop "reasoning")) []
  let advances := !reasoning.isEmpty ||
    (arrayValue (delta.prop "reasoning_details")).any reasoningAdvances
  whenever (advances && options.emitReasoningProgress) (emit .reasoningProgress)
  (arrayOfObjects (delta.prop "tool_calls")).forM handleChatToolCall
  handleLegacyCall (objectValue (delta.prop "function_call"))
  match optionalString (choice.prop "finish_reason") with
  | none => pure ()
  | some reason => emitStop (chatStopReason reason) (some reason)

/-- The loop over the selected choices, which ends once the stream stopped. -/
def handleChatChoices (options : ParserOptions) : List JsonObject → Handler Unit
  | [] => pure ()
  | choice :: rest => do
    if (← get).stopped then pure ()
    else do
      handleChatChoice options choice
      handleChatChoices options rest

/-- `payload.error` of a Chat stream. -/
def handleChatError (payload : JsonObject) : Handler Unit :=
  match payload.prop "error" with
  | some (.string error) =>
    emitError (stringValue (payload.prop "message") error) (optionalString (payload.prop "code"))
      (optionalString (payload.prop "type"))
  | error => emitErrorObject error

def handleOpenAiChat (options : ParserOptions) (eventName : Option JsString) (payload : JsonObject) :
    Handler Unit :=
  if truthy (payload.prop "error") then handleChatError payload
  else if eventName = some (js "error") then emitErrorObject (some (.object payload))
  else do
    let choices := arrayOfObjects (payload.prop "choices")
    let selected := selectedChoices choices
    whenever (choices.isEmpty || !selected.isEmpty)
      (emitStart (payload.prop "id") (payload.prop "model") (payload.prop "created"))
    handleChatChoices options selected
    emitUsage (objectValue (payload.prop "usage")) "prompt_tokens" "completion_tokens"
      (some "total_tokens")

/-! ## Anthropic Messages -/

def anthropicToolIndex (blockIndex : JsNumber) : Handler Nat := do
  let s ← get
  match s.anthropicToolIndices.get? (mapKey blockIndex) with
  | some index => pure index
  | none => do
    modify fun s =>
      { s with
        nextToolIndex := s.nextToolIndex + 1
        anthropicToolIndices := s.anthropicToolIndices.set (mapKey blockIndex) s.nextToolIndex }
    pure s.nextToolIndex

/-- `content_block_start`. -/
def handleBlockStart (payload : JsonObject) : Handler Unit := do
  let block := (objectValue (payload.prop "content_block")).getD []
  let type := stringValue (block.prop "type") []
  whenever (type = js "text") (emitText (stringValue (block.prop "text") []))
  whenever (type = js "tool_use") do
    let index ← anthropicToolIndex ((numberValue (payload.prop "index")).getD (.ofInt 0))
    modify fun s => { s with sawToolCall := true }
    let arguments := match objectValue (block.prop "input") with
      | some (e :: es) => some (Json.stringify (.object (e :: es)))
      | _ => none
    emit (.toolCallDelta (indexNumber index) (optionalString (block.prop "id"))
      (optionalString (block.prop "name")) arguments none none)

/-- `content_block_delta`. -/
def handleBlockDelta (options : ParserOptions) (payload : JsonObject) : Handler Unit := do
  let delta := (objectValue (payload.prop "delta")).getD []
  let type := stringValue (delta.prop "type") []
  whenever (type = js "text_delta") (emitText (stringValue (delta.prop "text") []))
  whenever (decide (type = js "thinking_delta") && stringValue (delta.prop "thinking") [] != [] &&
    options.emitReasoningProgress) (emit .reasoningProgress)
  whenever (type = js "input_json_delta") do
    let index ← anthropicToolIndex ((numberValue (payload.prop "index")).getD (.ofInt 0))
    modify fun s => { s with sawToolCall := true }
    emit (.toolCallDelta (indexNumber index) none none (optionalString (delta.prop "partial_json"))
      none none)

/-- The `stop_reason` of a `message_delta`. -/
def handleStopReason (rawReason : Option JsString) : Handler Unit :=
  match rawReason with
  | none => pure ()
  | some reason =>
    if reason = js "pause_turn" then do
      emitError
        (js "Anthropic pause_turn requires native continuation and cannot be converted safely")
        (some (js "unsupported_pause_turn")) (some (js "invalid_stream_event"))
      emitStop .error (some (js "unsupported_pause_turn"))
    else emitStop (anthropicStopReason reason) (some reason)

/-- `message_stop`. -/
def handleMessageStop : Handler Unit := do
  let s ← get
  whenever (!s.stopped) do
    emitError (js "Anthropic message_stop arrived before a stop_reason")
      (some (js "incomplete_stream")) (some (js "incomplete_stream"))
    emitStop .error (some (js "incomplete_stream"))
  emitDone

def handleAnthropic (options : ParserOptions) (eventName : Option JsString) (payload : JsonObject) :
    Handler Unit :=
  let type := stringValue (payload.prop "type") (eventName.getD [])
  if type = js "error" then emitErrorObject (nullish (payload.prop "error") (some (.object payload)))
  else if type = js "message_start" then do
    let message := (objectValue (payload.prop "message")).getD []
    emitStart (message.prop "id") (message.prop "model") none
    emitAnthropicUsage (objectValue (message.prop "usage"))
  else if type = js "content_block_start" then handleBlockStart payload
  else if type = js "content_block_delta" then handleBlockDelta options payload
  else if type = js "message_delta" then do
    let delta := (objectValue (payload.prop "delta")).getD []
    emitAnthropicUsage (objectValue (payload.prop "usage"))
    handleStopReason (optionalString (delta.prop "stop_reason"))
  else if type = js "message_stop" then handleMessageStop
  else pure ()

/-! ## Gemini -/

/-- The tool index of a call, filed under its id or its position. -/
def geminiToolIndex (key : JsString) : Handler Nat := do
  let s ← get
  match s.geminiToolIndices.get? key with
  | some index => pure index
  | none => do
    modify fun s =>
      { s with
        nextToolIndex := s.nextToolIndex + 1
        geminiToolIndices := s.geminiToolIndices.set key s.nextToolIndex }
    pure s.nextToolIndex

/-- The body of the loop over the parts of a candidate. -/
def handleGeminiPart (options : ParserOptions) (candidateIndex : Nat) (part : JsonObject × Nat) :
    Handler Unit := do
  let text := stringValue (part.1.prop "text") []
  whenever (!text.isEmpty) (
    if options.suppressGeminiThoughtText && decide (part.1.prop "thought" = some (.bool true))
    then whenever options.emitReasoningProgress (emit .reasoningProgress)
    else emit (.textDelta text none none))
  match (objectValue (part.1.prop "functionCall")).or (objectValue (part.1.prop "function_call")) with
  | none => pure ()
  | some call => do
    let position := natToString candidateIndex ++ js ":" ++ natToString part.2
    let index ← geminiToolIndex ((optionalString (call.prop "id")).getD position)
    modify fun s => { s with sawToolCall := true }
    emit (.toolCallDelta (indexNumber index) (optionalString (call.prop "id"))
      (optionalString (call.prop "name")) ((call.prop "args").map Json.stringify) none none)

/-- The body of the loop over the candidates. -/
def handleGeminiCandidate (options : ParserOptions) (candidate : JsonObject × Nat) : Handler Unit :=
  let content := (objectValue (candidate.1.prop "content")).getD []
  (arrayOfObjects (content.prop "parts")).zipIdx.forM (handleGeminiPart options candidate.2)

/-- The last finish reason of the candidates. -/
def geminiFinishReason (candidates : List JsonObject) : Option JsString :=
  (candidates.filterMap fun candidate =>
    optionalString (nullish (candidate.prop "finishReason") (candidate.prop "finish_reason"))).getLast?

def handleGemini (options : ParserOptions) (payload : JsonObject) : Handler Unit :=
  if truthy (payload.prop "error") then emitErrorObject (payload.prop "error")
  else do
    emitStart (nullish (payload.prop "responseId") (payload.prop "response_id"))
      (nullish (payload.prop "modelVersion") (payload.prop "model_version")) none
    let candidates := arrayOfObjects (payload.prop "candidates")
    candidates.zipIdx.forM (handleGeminiCandidate options)
    emitUsage ((objectValue (payload.prop "usageMetadata")).or
        (objectValue (payload.prop "usage_metadata")))
      "promptTokenCount" "candidatesTokenCount" (some "totalTokenCount")
    match geminiFinishReason candidates with
    | none => pure ()
    | some reason => do
      let s ← get
      emitStop (if reason = js "STOP" ∧ s.sawToolCall then .toolCalls else geminiStopReason reason)
        (some reason)
      emitDone

end StonePlus.Streaming
