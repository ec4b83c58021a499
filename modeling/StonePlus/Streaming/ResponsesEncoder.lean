import StonePlus.Streaming.EncoderState

/-!
# StonePlus.Streaming.ResponsesEncoder

What `encodeOpenAiResponses` writes: the output items of a response, its
events, and their frames.
-/

namespace StonePlus.Streaming

/-! ## Items -/

/-- What makes an output item, with the text, arguments or input in it. -/
inductive ItemContent
  | message (text : Option JsString)
  | functionCall (callId name : JsString) (callNamespace : Option JsString) (arguments : JsString)
  | customToolCall (callId name input : JsString)
  | toolSearchCall (callId : JsString) (arguments : Option JsonObject)
  deriving DecidableEq

/-- An output item. -/
structure OutputItem where
  id : Option JsString
  status : JsString
  content : ItemContent
  deriving DecidableEq

/-- A part with text. -/
def outputText (text : JsString) : Json :=
  .object (omitUndefined [("type", literal "output_text"), ("text", some (.string text)),
    ("annotations", some (.array []))])

def OutputItem.json (item : OutputItem) : Json :=
  let id := item.id.map Json.string
  let status := some (Json.string item.status)
  .object (omitUndefined (match item.content with
    | .message text => [("id", id), ("type", literal "message"), ("status", status),
        ("role", literal "assistant"), ("content", some (.array (text.map outputText).toList))]
    | .functionCall callId name callNamespace arguments => [("id", id),
        ("type", literal "function_call"), ("status", status), ("call_id", some (.string callId)),
        ("name", some (.string name)), ("namespace", callNamespace.map .string),
        ("arguments", some (.string arguments))]
    | .customToolCall callId name input => [("id", id), ("type", literal "custom_tool_call"),
        ("status", status), ("call_id", some (.string callId)), ("name", some (.string name)),
        ("input", some (.string input))]
    | .toolSearchCall callId arguments => [("id", id), ("type", literal "tool_search_call"),
        ("status", status), ("execution", literal "client"), ("call_id", some (.string callId)),
        ("arguments", arguments.map .object)]))

/-! ## Responses -/

/-- `responsesEnvelope`; an output index without an item is a hole. -/
structure ResponsesEnvelope where
  id : JsString
  createdAt : Json
  status : JsString
  model : JsString
  output : List (Option OutputItem)
  usage : CanonicalUsage

def responsesUsage (usage : CanonicalUsage) : JsonObject :=
  omitUndefined [("input_tokens", usage.inputTokens.map .number),
    ("output_tokens", usage.outputTokens.map .number),
    ("total_tokens",
      (usage.totalTokens.or (sumDefined usage.inputTokens usage.outputTokens)).map .number),
    ("input_tokens_details", usage.cachedInputTokens.map fun n =>
      .object [(js "cached_tokens", .number n)]),
    ("output_tokens_details", usage.reasoningTokens.map fun n =>
      .object [(js "reasoning_tokens", .number n)])]

/-- The holes of an array are written as `null`. -/
def ResponsesEnvelope.json (r : ResponsesEnvelope) : JsonObject :=
  omitUndefined [("id", some (.string r.id)), ("object", literal "response"),
    ("created_at", some r.createdAt), ("status", some (.string r.status)),
    ("model", some (.string r.model)),
    ("output", some (.array (r.output.map fun item => (item.map OutputItem.json).getD .null))),
    ("usage", some (.object (responsesUsage r.usage)))]

/-! ## Events -/

/-- An event of a Responses stream. -/
inductive ResponsesEvent
  | created (response : ResponsesEnvelope)
  | itemAdded (responseId : JsString) (outputIndex : Option Nat) (item : OutputItem)
  | contentPartAdded (responseId itemId : JsString) (outputIndex : Option Nat)
  | textDelta (responseId itemId : JsString) (outputIndex : Option Nat) (delta : JsString)
  | textDone (responseId itemId : JsString) (outputIndex : Option Nat) (text : JsString)
  | toolDelta (custom : Bool) (responseId : JsString) (itemId : Option JsString)
      (outputIndex : Option Nat) (delta : JsString)
  | toolDone (custom : Bool) (responseId : JsString) (itemId : Option JsString)
      (outputIndex : Option Nat) (value : JsString)
  | itemDone (responseId : JsString) (outputIndex : Option Nat) (item : OutputItem)
  | error (message : JsString) (code errorType : Option JsString)
  | bridgeError (message code errorType : JsString)
  | failed (response : ResponsesEnvelope) (error : JsonObject)
  | completed (response : ResponsesEnvelope)
  | incomplete (response : ResponsesEnvelope) (reason : JsString)

/-- `responsesSse`: the type is the last property of the payload. -/
def responsesSse (type : String) (entries : List (String × Option Json)) : Frame :=
  .event (js type) (omitUndefined entries ++ [(js "type", .string (js type))])

/-- The frame of an event. -/
def ResponsesEvent.frame : ResponsesEvent → Frame
  | .created response => responsesSse "response.created" [("response", some (.object response.json))]
  | .itemAdded responseId outputIndex item => responsesSse "response.output_item.added"
      [("response_id", some (.string responseId)), ("output_index", optionalIndex outputIndex),
        ("item", some item.json)]
  | .contentPartAdded responseId itemId outputIndex => responsesSse "response.content_part.added"
      [("response_id", some (.string responseId)), ("item_id", some (.string itemId)),
        ("output_index", optionalIndex outputIndex), ("content_index", natural 0),
        ("part", some (outputText []))]
  | .textDelta responseId itemId outputIndex delta => responsesSse "response.output_text.delta"
      [("response_id", some (.string responseId)), ("item_id", some (.string itemId)),
        ("output_index", optionalIndex outputIndex), ("content_index", natural 0),
        ("delta", some (.string delta))]
  | .textDone responseId itemId outputIndex text => responsesSse "response.output_text.done"
      [("response_id", some (.string responseId)), ("item_id", some (.string itemId)),
        ("output_index", optionalIndex outputIndex), ("content_index", natural 0),
        ("text", some (.string text))]
  | .toolDelta custom responseId itemId outputIndex delta =>
      responsesSse (if custom then "response.custom_tool_call_input.delta"
          else "response.function_call_arguments.delta")
        [("response_id", some (.string responseId)), ("item_id", itemId.map .string),
          ("output_index", optionalIndex outputIndex), ("delta", some (.string delta))]
  | .toolDone custom responseId itemId outputIndex value =>
      responsesSse (if custom then "response.custom_tool_call_input.done"
          else "response.function_call_arguments.done")
        [("response_id", some (.string responseId)), ("item_id", itemId.map .string),
          ("output_index", optionalIndex outputIndex),
          (if custom then "input" else "arguments", some (.string value))]
  | .itemDone responseId outputIndex item => responsesSse "response.output_item.done"
      [("response_id", some (.string responseId)), ("output_index", optionalIndex outputIndex),
        ("item", some item.json)]
  | .error message code errorType => responsesSse "error"
      [("message", some (.string message)), ("code", code.map .string),
        ("error_type", errorType.map .string)]
  | .bridgeError message code errorType => responsesSse "error"
      [("message", some (.string message)), ("error_type", some (.string errorType)),
        ("code", some (.string code))]
  | .failed response detail => responsesSse "response.failed"
      [("response", some (.object (response.json ++ [(js "error", .object detail)])))]
  | .completed response => responsesSse "response.completed"
      [("response", some (.object response.json))]
  | .incomplete response reason => responsesSse "response.incomplete"
      [("response", some (.object (response.json ++
        [(js "incomplete_details", .object [(js "reason", .string reason)])])))]

end StonePlus.Streaming

/-!
## The encoder

`encodeOpenAiResponses` of `ProtocolEncoder`.

Text and tool calls share one space of output indices.  A tool gets its index
with its first delta; it is announced once its name is known, or when the
response is closed.
-/

namespace StonePlus.Streaming

open Lib.Effect

def responsesEnvelope (s : EncoderState) (status : String) (output : List (Option OutputItem)) :
    ResponsesEnvelope where
  id := s.id
  createdAt := createdSeconds s
  status := js status
  model := s.model
  output := output
  usage := s.usage

def ensureResponsesStart : Encoding ResponsesEvent Unit := do
  if (← get).started then pure ()
  else do
    modify fun s => { s with started := true }
    emit (.created (responsesEnvelope (← get) "in_progress" []))

/-! ## Items -/

/-- The id of the item of the text. -/
def messageId (s : EncoderState) : JsString := s.id ++ js "_message"

/-- The item of the text. -/
def messageItem (s : EncoderState) (status : JsString) (text : Option JsString) : OutputItem :=
  ⟨some (messageId s), status, .message text⟩

def isToolSearch (tool : EncodedToolState) : Bool :=
  tool.bridgeBinding.any fun binding => binding.sourceType == .toolSearch

def isCustom (tool : EncodedToolState) : Bool :=
  (tool.bridgeBinding.any fun binding => binding.sourceType == .custom) ||
    tool.toolType == some .customToolCall

/-- `tool.id || tool.itemId`. -/
def toolCallId (tool : EncodedToolState) : JsString :=
  if tool.id = [] then tool.itemId.getD [] else tool.id

/-- `tool.bridgeBinding?.sourceName ?? tool.name`. -/
def sourceName (tool : EncodedToolState) : JsString :=
  (tool.bridgeBinding.map Dsml.ToolBridgeBinding.sourceName).getD tool.name

/-- `tool.bridgeBinding?.sourceNamespace`, if it is not empty. -/
def sourceNamespace (tool : EncodedToolState) : Option JsString :=
  (tool.bridgeBinding.bind Dsml.ToolBridgeBinding.sourceNamespace).filter fun name => !name.isEmpty

/-- What the item of a tool call holds, with these arguments or this input. -/
def toolContent (tool : EncodedToolState) (value : JsString) : ItemContent :=
  if isToolSearch tool then .toolSearchCall (toolCallId tool) tool.toolSearchArguments
  else if isCustom tool then .customToolCall (toolCallId tool) (sourceName tool) value
  else .functionCall (toolCallId tool) (sourceName tool) (sourceNamespace tool) value

/-- The item of a tool call. -/
def toolItem (tool : EncodedToolState) (status value : JsString) : OutputItem :=
  ⟨tool.itemId, status, toolContent tool value⟩

/-! ## Starting items -/

/-- A new output index. -/
def nextOutputIndex : Encoding ResponsesEvent Nat := do
  let index := (← get).responsesNextOutputIndex
  modify fun s => { s with responsesNextOutputIndex := index + 1 }
  pure index

def ensureResponsesTextStarted : Encoding ResponsesEvent Unit := do
  if (← get).responsesTextStarted then pure ()
  else do
    let index ← nextOutputIndex
    modify fun s => { s with responsesTextStarted := true, responsesTextOutputIndex := some index }
    let s ← get
    emit (.itemAdded s.id (some index) (messageItem s (js "in_progress") none))
    emit (.contentPartAdded s.id (messageId s) (some index))

def reserveResponsesToolOutputIndex (tool : EncodedToolState) :
    Encoding ResponsesEvent EncodedToolState := do
  if tool.outputIndex.isSome then pure tool
  else do
    let index ← nextOutputIndex
    let reserved := { tool with outputIndex := some index }
    putTool reserved
    pure reserved

/-- The id of the item of a tool. -/
def toolItemId (s : EncoderState) (tool : EncodedToolState) : JsString :=
  s.id ++ js "_" ++ (if isToolSearch tool then js "tsc" else js "fc") ++ js "_" ++
    tool.index.toJsString

def ensureResponsesToolStarted (tool : EncodedToolState) (force : Bool) :
    Encoding ResponsesEvent EncodedToolState := do
  if tool.started || (!force && tool.name.isEmpty) then pure tool
  else do
    let reserved ← reserveResponsesToolOutputIndex tool
    let s ← get
    let started := { reserved with started := true, itemId := some (toolItemId s reserved) }
    putTool started
    emit (.itemAdded s.id started.outputIndex (toolItem started (js "in_progress") []))
    pure started

/-! ## Closing -/

/-- `output[index] = item`. -/
def assignIndex (output : List (Option OutputItem)) (index : Nat) (item : OutputItem) :
    List (Option OutputItem) :=
  if index < output.length then output.set index (some item)
  else output ++ List.replicate (index - output.length) none ++ [some item]

/-- Why a response is incomplete. -/
def incompleteReason : CanonicalStopReason → Option JsString
  | .length => some (js "max_output_tokens")
  | .contentFilter => some (js "content_filter")
  | _ => none

/-- The status of an item that is not known to be complete. -/
def itemStatus (reason : CanonicalStopReason) : JsString :=
  if (incompleteReason reason).isSome then js "incomplete" else js "completed"

/-- The status of the text. -/
def messageStatus (s : EncoderState) (reason : CanonicalStopReason) : JsString :=
  if !s.responsesTextSourceIndices.isEmpty && s.responsesTextSourceIndices.all fun index =>
    s.responsesCompletedMessageIndices.contains index then js "completed" else itemStatus reason

/-- Close the text: the output with its item. -/
def closeText (reason : CanonicalStopReason) (output : List (Option OutputItem)) :
    Encoding ResponsesEvent (List (Option OutputItem)) := do
  let s ← get
  if s.responsesTextStarted then do
    let item := messageItem s (messageStatus s reason) (some s.responsesText)
    emit (.textDone s.id (messageId s) s.responsesTextOutputIndex s.responsesText)
    emit (.itemDone s.id s.responsesTextOutputIndex item)
    pure (assignIndex output (s.responsesTextOutputIndex.getD 0) item)
  else pure output

/-- What a tool streams: its arguments or its input. -/
def streamedValue (options : EncodingOptions) (tool : EncodedToolState) : JsString :=
  let raw := if isCustom tool then tool.customInput.getD tool.arguments else tool.arguments
  if options.sanitizeDeepSeekHarnessToolArguments then sanitizeDeepSeekHarnessToolArguments raw
  else raw

/-- The part of a value that has not been streamed yet. -/
def flushToolValue (tool : EncodedToolState) (value : JsString) :
    Encoding ResponsesEvent Unit := do
  let s ← get
  whenever (!isToolSearch tool && decide (tool.emittedArguments < value.length)) do
    emit (.toolDelta (isCustom tool) s.id tool.itemId tool.outputIndex
      (value.drop tool.emittedArguments))
    putTool { tool with emittedArguments := value.length }

/-- The body of the loop of `closeResponsesOutput` over the tools. -/
def closeTool (options : EncodingOptions) (reason : CanonicalStopReason)
    (output : List (Option OutputItem)) (tool : EncodedToolState) :
    Encoding ResponsesEvent (List (Option OutputItem)) := do
  let tool ← ensureResponsesToolStarted tool true
  let value := streamedValue options tool
  flushToolValue tool value
  let s ← get
  let item := toolItem tool (if tool.completed then js "completed" else itemStatus reason) value
  whenever (!isToolSearch tool)
    (emit (.toolDone (isCustom tool) s.id tool.itemId tool.outputIndex value))
  emit (.itemDone s.id tool.outputIndex item)
  pure (assignIndex output (tool.outputIndex.getD output.length) item)

def closeTools (options : EncodingOptions) (reason : CanonicalStopReason)
    (output : List (Option OutputItem)) :
    List EncodedToolState → Encoding ResponsesEvent (List (Option OutputItem))
  | [] => pure output
  | tool :: tools => do
    let output ← closeTool options reason output tool
    closeTools options reason output tools

/-- The terminal event of a closed response. -/
def closingEvent (s : EncoderState) (reason : CanonicalStopReason)
    (output : List (Option OutputItem)) : ResponsesEvent :=
  match incompleteReason reason with
  | none => .completed (responsesEnvelope s "completed" output)
  | some detail => .incomplete (responsesEnvelope s "incomplete" output) detail

def closeResponsesOutput (options : EncodingOptions) (reason : CanonicalStopReason) :
    Encoding ResponsesEvent Unit := do
  let output ← closeText reason []
  let output ← closeTools options reason output (← get).tools.values
  emit (closingEvent (← get) reason output)

/-! ## Failing -/

/-- `failResponsesToolBridge`. -/
def failResponsesToolBridge (failure : BridgeFailure) : Encoding ResponsesEvent Unit := do
  let errorType := js "invalid_tool_bridge"
  modify fun s =>
    { s with
      failed := true
      encodingFailure := s.encodingFailure.or
        (some (.error failure.message (some failure.code) (some errorType))) }
  emit (.bridgeError failure.message failure.code errorType)

/-- `prepareResponsesToolBridge`; the result says whether the tools are
authorized. -/
def prepareResponsesToolBridge (options : EncodingOptions) : Encoding ResponsesEvent Bool := do
  match prepareTools options.toolBridgePlan (← get).tools.values with
  | .error failure => do
    failResponsesToolBridge failure
    pure false
  | .ok tools => do
    tools.forM putTool
    pure true

/-- An error: visible, and a failed response the first time. -/
def encodeResponsesError (message : JsString) (code errorType : Option JsString) :
    Encoding ResponsesEvent Unit := do
  modify fun s => { s with failed := true }
  let emitFailure := !(← get).responsesFailureEmitted
  whenever emitFailure ensureResponsesStart
  emit (.error message code errorType)
  whenever emitFailure do
    emit (.failed (responsesEnvelope (← get) "failed" []) (canonicalError message code errorType))
    modify fun s => { s with responsesFailureEmitted := true }

/-! ## Events -/

def responsesTextDelta (text : JsString) (index : Option JsNumber) :
    Encoding ResponsesEvent Unit := do
  ensureResponsesStart
  ensureResponsesTextStarted
  modify fun s =>
    { s with
      responsesText := s.responsesText ++ text
      responsesTextSourceIndices := match index with
        | none => s.responsesTextSourceIndices
        | some index => setAdd (mapKey index) s.responsesTextSourceIndices }
  let s ← get
  emit (.textDelta s.id (messageId s) s.responsesTextOutputIndex text)

/-- A provider bridge or the sanitizer withholds the tools until the end. -/
def withholdsTools (options : EncodingOptions) : Bool :=
  options.toolBridgePlan.isSome || options.sanitizeDeepSeekHarnessToolArguments

/-- Stream the arguments of a delta: `wasStarted` says whether the tool was
announced before. -/
def streamArguments (tool : EncodedToolState) (wasStarted : Bool) (arguments : Option JsString) :
    Encoding ResponsesEvent Unit := do
  match arguments with
  | none => pure ()
  | some arguments =>
    let delta := if wasStarted then arguments else tool.arguments.drop tool.emittedArguments
    whenever (tool.started && !delta.isEmpty) do
      emit (.toolDelta (isCustom tool) (← get).id tool.itemId tool.outputIndex delta)
      putTool { tool with emittedArguments := tool.arguments.length }

def responsesToolCallDelta (options : EncodingOptions) (index : JsNumber)
    (id name arguments : Option JsString) (toolType : Option ToolCallType) :
    Encoding ResponsesEvent Unit := do
  ensureResponsesStart
  let tool ← updateTool index id name arguments toolType
  let tool ← reserveResponsesToolOutputIndex tool
  if withholdsTools options then pure ()
  else do
    let started ← ensureResponsesToolStarted tool false
    streamArguments started tool.started arguments

/-- The end of a Responses stream. -/
def responsesDone (options : EncodingOptions) : Encoding ResponsesEvent Unit := do
  let s ← get
  if s.failed then modify fun s => { s with done := true }
  else if s.stopped then modify fun s => { s with done := true }
  else do
    ensureResponsesStart
    if ← prepareResponsesToolBridge options then do
      closeResponsesOutput options (s.pendingStop.getD .stop)
      modify fun s => { s with stopped := true, done := true }
    else modify fun s => { s with done := true }

def encodeOpenAiResponses (options : EncodingOptions) : StreamEvent → Encoding ResponsesEvent Unit
  | .start .. => ensureResponsesStart
  | .textDelta text index _ => responsesTextDelta text index
  | .toolCallDelta index id name arguments toolType _ =>
    responsesToolCallDelta options index id name arguments toolType
  | .toolCallComplete index => completeEncodedTool index
  | .messageComplete index => modify fun s =>
    { s with
      responsesCompletedMessageIndices := setAdd (mapKey index) s.responsesCompletedMessageIndices }
  | .usage usage => mergeEncodedUsage usage
  | .stop reason _ => notePendingStop reason
  | .error message code errorType => encodeResponsesError message code errorType
  | .done => responsesDone options
  | .reasoningProgress => pure ()

end StonePlus.Streaming
