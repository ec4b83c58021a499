import StonePlus.Streaming.EncoderState
import Mathlib.Data.List.Sort

/-!
# StonePlus.Streaming.Encoders

`encodeOpenAiChat`, `encodeAnthropic` and `encodeGemini` of `ProtocolEncoder`.
-/

namespace StonePlus.Streaming

open Lib.Effect

/-! ## OpenAI Chat -/

def openAiChatEnvelope (s : EncoderState) : JsonObject :=
  omitUndefined [("id", some (.string s.id)), ("object", literal "chat.completion.chunk"),
    ("created", some (createdSeconds s)), ("model", some (.string s.model))]

/-- A chunk with one choice. -/
def chatChoice (delta : JsonObject) (finishReason : Json) : Encoding Frame Unit := do
  let s ← get
  emit (.data (openAiChatEnvelope s ++ [(js "choices", .array [.object (omitUndefined
    [("index", natural 0), ("delta", some (.object delta)), ("finish_reason", some finishReason)])])]))

def ensureOpenAiChatStart : Encoding Frame Unit := do
  if (← get).started then pure ()
  else do
    modify fun s => { s with started := true }
    chatChoice (omitUndefined [("role", literal "assistant"), ("content", literal "")]) .null

/-- The id of a call that the source gives none. -/
def syntheticCallId (s : EncoderState) (index : JsNumber) : JsString :=
  js "call_" ++ safeIdentifier s.id ++ js "_" ++ index.toJsString

def sumUsage (usage : CanonicalUsage) : Option JsNumber :=
  usage.totalTokens.or (sumDefined usage.inputTokens usage.outputTokens)

def openAiUsage (usage : CanonicalUsage) : JsonObject :=
  omitUndefined [("prompt_tokens", usage.inputTokens.map .number),
    ("completion_tokens", usage.outputTokens.map .number),
    ("total_tokens", (sumUsage usage).map .number),
    ("prompt_tokens_details", usage.cachedInputTokens.map fun n =>
      .object [(js "cached_tokens", .number n)]),
    ("completion_tokens_details", usage.reasoningTokens.map fun n =>
      .object [(js "reasoning_tokens", .number n)])]

/-- The body of the loop of `emitDeepSeekHarnessChatTools`. -/
def emitHarnessTool (tool : EncodedToolState) : Encoding Frame Unit := do
  if tool.emitted || !tool.completed then pure ()
  else do
    let s ← get
    let id := if tool.id = [] then syntheticCallId s tool.index else tool.id
    let arguments := if tool.arguments = [] then js "\x7b\x7d" else tool.arguments
    modify fun s => { s with chatToolIds := s.chatToolIds.set (mapKey tool.index) id }
    putTool { tool with emitted := true }
    chatChoice [(js "tool_calls", .array [.object (omitUndefined
      [("index", some (.number tool.index)), ("id", some (.string id)),
        ("type", literal "function"),
        ("function", some (.object (omitUndefined [("name", some (.string tool.name)),
          ("arguments", some (.string (sanitizeDeepSeekHarnessToolArguments arguments)))])))])])] .null

/-- `left.index - right.index`, as an order. -/
def toolBefore (left right : EncodedToolState) : Bool :=
  !(JsNumber.ofInt 0 < left.index - right.index : Bool)

def emitDeepSeekHarnessChatTools : Encoding Frame Unit := do
  ((← get).tools.values.mergeSort toolBefore).forM emitHarnessTool

/-- A tool-call delta of a Chat stream whose tools are not buffered. -/
def chatToolCallDelta (index : JsNumber) (id name arguments : Option JsString) : Encoding Frame Unit := do
  let s ← get
  let known := s.chatToolIds.get? (mapKey index)
  let callId := (known.or id).getD (syntheticCallId s index)
  whenever known.isNone
    (modify fun s => { s with chatToolIds := s.chatToolIds.set (mapKey index) callId })
  let definition := omitUndefined [("name", name.map .string), ("arguments", arguments.map .string)]
  chatChoice [(js "tool_calls", .array [.object (omitUndefined
    [("index", some (.number index)),
      ("id", if known.isNone then some (.string callId) else none),
      ("type", if known.isNone then literal "function" else none),
      ("function", if definition = [] then none else some (.object definition))])])] .null

/-- The stop of a Chat stream. -/
def chatStop (options : EncodingOptions) (reason : CanonicalStopReason) : Encoding Frame Unit := do
  let s ← get
  if s.failed || s.stopped then pure ()
  else do
    ensureOpenAiChatStart
    whenever options.sanitizeDeepSeekHarnessToolArguments do
      whenever (reason = .toolCalls)
        (s.tools.values.forM fun tool => completeEncodedTool tool.index)
      emitDeepSeekHarnessChatTools
    modify fun s => { s with stopped := true }
    chatChoice [] (.string (canonicalToChatStop reason))

/-- The end of a Chat stream. -/
def chatDone : Encoding Frame Unit := do
  let s ← get
  if s.failed then modify fun s => { s with done := true }
  else do
    whenever (!s.chatUsageEmitted && decide (s.usage ≠ {})) do
      ensureOpenAiChatStart
      modify fun s => { s with chatUsageEmitted := true }
      let s ← get
      emit (.data (openAiChatEnvelope s ++
        [(js "choices", .array []), (js "usage", .object (openAiUsage s.usage))]))
    modify fun s => { s with done := true }
    emit .doneMarker

def encodeOpenAiChat (options : EncodingOptions) : StreamEvent → Encoding Frame Unit
  | .start .. => ensureOpenAiChatStart
  | .textDelta text _ _ => do
    ensureOpenAiChatStart
    chatChoice [(js "content", .string text)] .null
  | .toolCallDelta index id name arguments toolType _ => do
    ensureOpenAiChatStart
    if options.sanitizeDeepSeekHarnessToolArguments then do
      let _ ← updateTool index id name arguments toolType
      pure ()
    else chatToolCallDelta index id name arguments
  | .toolCallComplete index => completeEncodedTool index
  | .usage usage => mergeEncodedUsage usage
  | .stop reason _ => chatStop options reason
  | .error message code errorType => do
    modify fun s => { s with failed := true }
    emit (.data [(js "error", .object (canonicalError message code errorType))])
  | .done => chatDone
  | .reasoningProgress | .messageComplete _ => pure ()

/-! ## Anthropic Messages -/

/-- `Math.max(0, n)`. -/
def atLeastZero (n : JsNumber) : JsNumber :=
  if n.isNaN then n else if n < .ofInt 0 then .ofInt 0 else n

def anthropicUsage (usage : CanonicalUsage) : JsonObject :=
  let cacheCreation := usage.cacheCreationInputTokens.or
    (sumOptional usage.cacheCreation5mInputTokens usage.cacheCreation1hInputTokens)
  let uncachedInput := usage.inputTokens.map fun inputTokens =>
    atLeastZero (inputTokens - usage.cachedInputTokens.getD (.ofInt 0) -
      cacheCreation.getD (.ofInt 0))
  omitUndefined [("input_tokens", uncachedInput.map .number),
    ("output_tokens", usage.outputTokens.map .number),
    ("cache_read_input_tokens", usage.cachedInputTokens.map .number),
    ("cache_creation_input_tokens", usage.cacheCreationInputTokens.map .number),
    ("cache_creation",
      if usage.cacheCreation5mInputTokens.isNone && usage.cacheCreation1hInputTokens.isNone then none
      else some (.object (omitUndefined
        [("ephemeral_5m_input_tokens", usage.cacheCreation5mInputTokens.map .number),
          ("ephemeral_1h_input_tokens", usage.cacheCreation1hInputTokens.map .number)])))]

def ensureAnthropicStart : Encoding Frame Unit := do
  if (← get).started then pure ()
  else do
    modify fun s => { s with started := true }
    let s ← get
    emit (anthropicSse "message_start" [(js "message", .object (omitUndefined
      [("id", some (.string s.id)), ("type", literal "message"), ("role", literal "assistant"),
        ("model", some (.string s.model)), ("content", some (.array [])),
        ("stop_reason", some .null), ("stop_sequence", some .null),
        ("usage", some (.object (omitUndefined
          [("input_tokens", some (.number (s.usage.inputTokens.getD (.ofInt 0)))),
            ("output_tokens", natural 0)])))]))])

def blockStart (index : Option Nat) (block : JsonObject) : Frame :=
  anthropicSse "content_block_start"
    (omitUndefined [("index", optionalIndex index), ("content_block", some (.object block))])

def blockDelta (index : Option Nat) (delta : JsonObject) : Frame :=
  anthropicSse "content_block_delta"
    (omitUndefined [("index", optionalIndex index), ("delta", some (.object delta))])

def blockStop (index : Option Nat) : Frame :=
  anthropicSse "content_block_stop" (omitUndefined [("index", optionalIndex index)])

def inputJsonDelta (index : Option Nat) (partialJson : JsString) : Frame :=
  blockDelta index [(js "type", .string (js "input_json_delta")),
    (js "partial_json", .string partialJson)]

/-- End the text block that is open. -/
def closeAnthropicText : Encoding Frame Unit := do
  let s ← get
  whenever (s.anthropicTextStarted && !s.anthropicTextClosed) do
    modify fun s => { s with anthropicTextClosed := true }
    emit (blockStop s.anthropicTextIndex)

/-- A new content block: its index. -/
def nextContentIndex : Encoding Frame Nat := do
  let index := (← get).anthropicNextContentIndex
  modify fun s => { s with anthropicNextContentIndex := index + 1 }
  pure index

def ensureAnthropicToolStarted (tool : EncodedToolState) (force : Bool) :
    Encoding Frame EncodedToolState := do
  if tool.started || (!force && (tool.id.isEmpty || tool.name.isEmpty)) then pure tool
  else do
    closeAnthropicText
    let contentIndex ← nextContentIndex
    let started := { tool with started := true, contentIndex := some contentIndex }
    putTool started
    let s ← get
    let id := if tool.id = [] then s.id ++ js "_tool_" ++ tool.index.toJsString else tool.id
    emit (blockStart started.contentIndex [(js "type", .string (js "tool_use")),
      (js "id", .string id), (js "name", .string tool.name), (js "input", .object [])])
    pure started

def anthropicTextDelta (text : JsString) : Encoding Frame Unit := do
  ensureAnthropicStart
  let s ← get
  whenever (!s.anthropicTextStarted || s.anthropicTextClosed) do
    let index ← nextContentIndex
    modify fun s =>
      { s with
        anthropicTextStarted := true
        anthropicTextClosed := false
        anthropicTextIndex := some index }
    emit (blockStart (some index) [(js "type", .string (js "text")), (js "text", .string [])])
  emit (blockDelta (← get).anthropicTextIndex
    [(js "type", .string (js "text_delta")), (js "text", .string text)])

def anthropicToolCallDelta (index : JsNumber) (id name arguments : Option JsString)
    (toolType : Option ToolCallType) : Encoding Frame Unit := do
  ensureAnthropicStart
  let tool ← updateTool index id name arguments toolType
  let started ← ensureAnthropicToolStarted tool false
  match arguments with
  | none => pure ()
  | some arguments =>
    let delta := if tool.started then arguments else tool.arguments.drop tool.emittedArguments
    whenever (started.started && !delta.isEmpty) do
      emit (inputJsonDelta started.contentIndex delta)
      putTool { started with emittedArguments := started.arguments.length }

/-- The body of the loop of `closeAnthropicBlocks`. -/
def closeAnthropicTool (tool : EncodedToolState) : Encoding Frame Unit := do
  let tool ← ensureAnthropicToolStarted tool true
  whenever (tool.emittedArguments < tool.arguments.length) do
    emit (inputJsonDelta tool.contentIndex (tool.arguments.drop tool.emittedArguments))
    putTool { tool with emittedArguments := tool.arguments.length }
  emit (blockStop tool.contentIndex)

def closeAnthropicBlocks : Encoding Frame Unit := do
  closeAnthropicText
  (← get).tools.values.forM closeAnthropicTool

def finalizeAnthropic (reason : CanonicalStopReason) : Encoding Frame Unit := do
  ensureAnthropicStart
  closeAnthropicBlocks
  modify fun s => { s with stopped := true }
  emit (anthropicSse "message_delta" [(js "delta", .object
    [(js "stop_reason", .string (canonicalToAnthropicStop reason)), (js "stop_sequence", .null)]),
    (js "usage", .object (anthropicUsage (← get).usage))])

/-- The end of an Anthropic stream. -/
def anthropicDone : Encoding Frame Unit := do
  let s ← get
  if s.failed then modify fun s => { s with done := true }
  else do
    whenever (!s.stopped) (finalizeAnthropic (s.pendingStop.getD .stop))
    modify fun s => { s with done := true }
    emit (anthropicSse "message_stop" [])

def encodeAnthropic : StreamEvent → Encoding Frame Unit
  | .textDelta text _ _ => anthropicTextDelta text
  | .toolCallDelta index id name arguments toolType _ =>
    anthropicToolCallDelta index id name arguments toolType
  | .usage usage => do
    mergeEncodedUsage usage
    let s ← get
    whenever s.stopped (emit (anthropicSse "message_delta"
      [(js "delta", .object []), (js "usage", .object (anthropicUsage s.usage))]))
  | .stop reason _ => notePendingStop reason
  | .error message code errorType => do
    modify fun s => { s with failed := true }
    emit (anthropicSse "error" [(js "error", .object (canonicalError message code errorType))])
  | .done => anthropicDone
  | .start .. | .reasoningProgress | .toolCallComplete _ | .messageComplete _ => pure ()

/-! ## Gemini -/

def geminiUsage (usage : CanonicalUsage) : JsonObject :=
  omitUndefined [("promptTokenCount", usage.inputTokens.map .number),
    ("candidatesTokenCount", usage.outputTokens.map .number),
    ("totalTokenCount", (sumUsage usage).map .number)]

/-- `this.model || undefined`. -/
def modelVersion (s : EncoderState) : Option Json :=
  if s.model = [] then none else some (.string s.model)

/-- The content of a candidate. -/
def modelContent (parts : List Json) : Option Json :=
  some (.object [(js "role", .string (js "model")), (js "parts", .array parts)])

/-- A chunk with one candidate. -/
def geminiChunk (s : EncoderState) (candidate : JsonObject) : JsonObject :=
  omitUndefined [("candidates", some (.array [.object candidate])), ("modelVersion", modelVersion s)]

/-- What names a tool in an error: its name, its id or its index. -/
def toolLabel (tool : EncodedToolState) : JsString :=
  if tool.name ≠ [] then tool.name else if tool.id ≠ [] then tool.id else tool.index.toJsString

/-- `emitGeminiTool`; the result says whether to go on. -/
def emitGeminiTool (tool : EncodedToolState) : Encoding Frame Bool := do
  if tool.emitted then pure true
  else
    match parseJsonObject tool.arguments with
    | none => do
      let message := js "Tool call " ++ toolLabel tool ++ js " arguments are not a valid JSON object"
      let invalid := js "invalid_tool_arguments"
      modify fun s =>
        { s with
          failed := true
          encodingFailure := s.encodingFailure.or (some (.error message (some invalid) (some invalid))) }
      emit (.data [(js "error", .object (canonicalError message (some invalid) (some invalid)))])
      pure false
    | some args => do
      putTool { tool with emitted := true }
      let s ← get
      let call := omitUndefined [("id", if tool.id = [] then none else some (.string tool.id)),
        ("name", some (.string tool.name)), ("args", some (.object args))]
      emit (.data (geminiChunk s (omitUndefined
        [("content", modelContent [.object [(js "functionCall", .object call)]])])))
      pure true

/-- The loop of `finalizeGemini`; the result says whether to go on. -/
def emitGeminiTools : List EncodedToolState → Encoding Frame Bool
  | [] => pure true
  | tool :: tools => do
    if ← emitGeminiTool tool then emitGeminiTools tools else pure false

def finalizeGemini (reason : CanonicalStopReason) : Encoding Frame Unit := do
  if ← emitGeminiTools (← get).tools.values then do
    modify fun s => { s with stopped := true }
    let s ← get
    emit (.data (geminiChunk s (omitUndefined [("content", modelContent []),
      ("finishReason", some (.string (canonicalToGeminiStop reason)))]) ++
      [(js "usageMetadata", .object (geminiUsage s.usage))]))
  else pure ()

/-- The end of a Gemini stream. -/
def geminiDone : Encoding Frame Unit := do
  let s ← get
  if s.failed then modify fun s => { s with done := true }
  else do
    whenever (!s.stopped) (finalizeGemini (s.pendingStop.getD .stop))
    modify fun s => { s with done := true }

def encodeGemini : StreamEvent → Encoding Frame Unit
  | .start .. => modify fun s => { s with started := true }
  | .textDelta text _ _ => do
    let s ← get
    emit (.data (geminiChunk s (omitUndefined
      [("content", modelContent [.object [(js "text", .string text)]])])))
  | .toolCallDelta index id name arguments toolType _ => do
    let _ ← updateTool index id name arguments toolType
    pure ()
  | .toolCallComplete index => do
    match ← getTool index with
    | none => pure ()
    | some tool => do
      let _ ← emitGeminiTool tool
      pure ()
  | .usage usage => do
    mergeEncodedUsage usage
    let s ← get
    whenever s.stopped (emit (.data [(js "usageMetadata", .object (geminiUsage s.usage))]))
  | .stop reason _ => notePendingStop reason
  | .error message code errorType => do
    modify fun s => { s with failed := true }
    emit (.data [(js "error", .object (canonicalError message code errorType))])
  | .done => geminiDone
  | .reasoningProgress | .messageComplete _ => pure ()

end StonePlus.Streaming
