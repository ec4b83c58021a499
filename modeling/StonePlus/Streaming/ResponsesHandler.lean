import StonePlus.Streaming.ParserState

/-!
# StonePlus.Streaming.ResponsesHandler

`handleOpenAiResponses` of `ProtocolParser`.

A payload is numbered, checked if it is a terminal event, and then handled by
its type.  A tool call is filed under its output index; a call that comes
without one gets a negative index until an identity of it comes with one.
-/

namespace StonePlus.Streaming

open Lib.Effect

/-! ## Identities of tool calls -/

/-- `responseToolIndex`. -/
def responseToolIndex (outputIndex : Int) : Handler Nat := do
  let s ← get
  match s.responsesToolIndices.get? outputIndex with
  | some index => pure index
  | none => do
    modify fun s =>
      { s with
        nextToolIndex := s.nextToolIndex + 1
        responsesToolIndices := s.responsesToolIndices.set outputIndex s.nextToolIndex }
    pure s.nextToolIndex

/-- The longer of two accounts of the same arguments. -/
def mergeArguments (synthetic explicit : Option JsString) : Option JsString :=
  match synthetic, explicit with
  | none, explicit => explicit
  | some synthetic, none => some synthetic
  | some synthetic, some explicit =>
    if explicit.length ≤ synthetic.length then some synthetic else some explicit

/-- Neither account of the arguments begins the other. -/
def argumentsConflict (synthetic explicit : Option JsString) : Bool :=
  match synthetic, explicit with
  | some synthetic, some explicit =>
    !explicit.isPrefixOf synthetic && !synthetic.isPrefixOf explicit
  | _, _ => false

/-- File under `explicit` what was filed under `synthetic`. -/
def rebind (synthetic explicit : Int) (s : ParserState) : ParserState :=
  let merged := mergeArguments (s.responsesArguments.get? synthetic)
    (s.responsesArguments.get? explicit)
  let arguments := match merged with
    | some merged => s.responsesArguments.set explicit merged
    | none => s.responsesArguments
  { s with
    responsesArguments := arguments.delete synthetic
    responsesToolMetadataSeen := if synthetic ∈ s.responsesToolMetadataSeen
      then (setAdd explicit s.responsesToolMetadataSeen).erase synthetic
      else s.responsesToolMetadataSeen
    responsesToolCompleted := if synthetic ∈ s.responsesToolCompleted
      then (setAdd explicit s.responsesToolCompleted).erase synthetic
      else s.responsesToolCompleted
    responsesToolIdentityIndices := s.responsesToolIdentityIndices.entries.foldl
      (fun indices e => if e.2 = synthetic then indices.set e.1 explicit else indices)
      s.responsesToolIdentityIndices }

/-- `rebindResponsesToolOutputIndex`. -/
def rebindResponsesToolOutputIndex (synthetic explicit : Int) : Handler Unit := do
  let s ← get
  let syntheticToolIndex := s.responsesToolIndices.get? synthetic
  let explicitToolIndex := s.responsesToolIndices.get? explicit
  if syntheticToolIndex.isSome && explicitToolIndex.isSome &&
      syntheticToolIndex != explicitToolIndex then
    emitResponsesProtocolError (js "Responses output_index " ++ (indexNumber explicit).toJsString ++
      js " is already bound to a different tool call") (js "conflicting_tool_identity")
  else do
    match syntheticToolIndex with
    | some index =>
      modify fun s =>
        { s with
          responsesToolIndices := (s.responsesToolIndices.set explicit index).delete synthetic }
    | none => pure ()
    if argumentsConflict (s.responsesArguments.get? synthetic) (s.responsesArguments.get? explicit)
    then
      emitResponsesProtocolError
        (js "Responses tool arguments conflict while assigning a late output_index")
        (js "inconsistent_tool_arguments")
    else modify (rebind synthetic explicit)

/-- File identities under an output index. -/
def fileIdentities (identities : List JsString) (outputIndex : Int) : Handler Unit :=
  modify fun s =>
    { s with
      responsesToolIdentityIndices := identities.foldl
        (fun indices identity => indices.set identity outputIndex) s.responsesToolIdentityIndices }

/-- File the identities that are not filed yet. -/
def fileNewIdentities (identities : List JsString) (outputIndex : Int) : Handler Unit :=
  modify fun s =>
    { s with
      responsesToolIdentityIndices := identities.foldl
        (fun indices identity =>
          if indices.has identity then indices else indices.set identity outputIndex)
        s.responsesToolIdentityIndices }

/-- The output index of a call that comes with one. -/
def explicitOutputIndex (identities : List JsString) (explicit : Int) : Handler Int := do
  let s ← get
  let priorIndices := identities.filterMap s.responsesToolIdentityIndices.get?
  match priorIndices with
  | [] => do
    fileIdentities identities explicit
    pure explicit
  | prior :: others =>
    if others.any (· != prior) then do
      emitResponsesProtocolError
        (js "Responses tool identities resolve to conflicting output indices")
        (js "conflicting_tool_identity")
      pure explicit
    else if prior = explicit then do
      fileIdentities identities explicit
      pure explicit
    else if 0 ≤ prior then do
      fileNewIdentities identities explicit
      pure explicit
    else do
      rebindResponsesToolOutputIndex prior explicit
      if (← get).done then pure explicit
      else do
        fileIdentities identities explicit
        pure explicit

/-- The output index of a call that comes without one. -/
def syntheticOutputIndex (identities : List JsString) : Handler Int := do
  let s ← get
  match identities.findSome? s.responsesToolIdentityIndices.get? with
  | some existing => pure existing
  | none => do
    let outputIndex := s.nextSyntheticResponsesOutputIndex
    modify fun s => { s with nextSyntheticResponsesOutputIndex := outputIndex - 1 }
    fileIdentities identities outputIndex
    pure outputIndex

/-- `responsesToolOutputIndex`. -/
def responsesToolOutputIndex (payload : JsonObject) (item : Option JsonObject) : Handler Int :=
  let identities := [optionalString (payload.prop "item_id"), optionalString (payload.prop "call_id"),
    optionalString (item.bind (·.prop "id")),
    optionalString (item.bind (·.prop "call_id"))].filterMap id
  match nonNegativeSafeInteger (payload.prop "output_index") with
  | some explicit => explicitOutputIndex identities explicit
  | none => syntheticOutputIndex identities

/-! ## Arguments -/

/-- `appendResponsesToolArguments`. -/
def appendResponsesToolArguments (outputIndex : Int) (delta : Option JsString) :
    Handler (Option JsString) :=
  match delta with
  | none => pure none
  | some delta => do
    modify fun s =>
      { s with
        responsesArguments := s.responsesArguments.set outputIndex
          (s.responsesArguments.getD outputIndex [] ++ delta) }
    pure (some delta)

/-- `reconcileResponsesToolArguments`: what a snapshot adds to the deltas. -/
def reconcileResponsesToolArguments (outputIndex : Int) (snapshot : Option JsString) :
    Handler (Option JsString) := do
  match snapshot with
  | none => pure none
  | some snapshot => do
    let current := (← get).responsesArguments.getD outputIndex []
    if snapshot = current then pure none
    else if current.isPrefixOf snapshot then do
      modify fun s => { s with responsesArguments := s.responsesArguments.set outputIndex snapshot }
      pure (some (snapshot.drop current.length))
    else do
      emitResponsesProtocolError
        (js "Responses tool argument snapshots do not match streamed deltas")
        (js "inconsistent_tool_arguments")
      pure none

/-- The `outputIndex` of a tool event: given when it is not the tool's index. -/
def reportedOutputIndex (outputIndex : Int) (index : Nat) : Option JsNumber :=
  if 0 ≤ outputIndex ∧ outputIndex ≠ index then some (indexNumber outputIndex) else none

/-- A tool event for a call whose arguments stream. -/
def emitArguments (outputIndex : Int) (index : Nat) (arguments : Option JsString)
    (toolType : Option ToolCallType) : Handler Unit :=
  emit (.toolCallDelta (indexNumber index) none none arguments toolType
    (reportedOutputIndex outputIndex index))

/-- Report once that a tool call is complete. -/
def completeTool (outputIndex : Int) (index : Nat) : Handler Unit := do
  if outputIndex ∈ (← get).responsesToolCompleted then pure ()
  else do
    modify fun s =>
      { s with responsesToolCompleted := setAdd outputIndex s.responsesToolCompleted }
    emit (.toolCallComplete (indexNumber index))

/-! ## Text -/

/-- `responsesOutputIndex`. -/
def responsesOutputIndex (payload : JsonObject) : Nat :=
  (nonNegativeSafeInteger (payload.prop "output_index")).getD 0

def contentTypeName : ContentType → JsString
  | .text => js "text"
  | .refusal => js "refusal"

/-- The key of a content part. -/
def textKey (contentType : ContentType) (outputIndex contentIndex : Nat) : JsString :=
  contentTypeName contentType ++ js ":" ++ natToString outputIndex ++ js ":" ++
    natToString contentIndex

/-- `responsesTextKey`. -/
def responsesTextKey (payload : JsonObject) (contentType : ContentType) : JsString :=
  textKey contentType (responsesOutputIndex payload)
    ((nonNegativeSafeInteger (payload.prop "content_index")).getD 0)

/-- `if (contentType === 'refusal') this.sawRefusal = true`. -/
def noteRefusal (contentType : ContentType) : Handler Unit :=
  match contentType with
  | .text => pure ()
  | .refusal => modify fun s => { s with sawRefusal := true }

/-- `response.output_text.delta` and `response.refusal.delta`. -/
def handleTextDelta (contentType : ContentType) (payload : JsonObject) : Handler Unit := do
  let text := stringValue (payload.prop "delta") []
  let key := responsesTextKey payload contentType
  let s ← get
  if text = [] ∨ key ∈ s.responsesTextDoneKeys then pure ()
  else do
    noteRefusal contentType
    modify fun s => { s with responsesTextDeltaKeys := setAdd key s.responsesTextDeltaKeys }
    emit (.textDelta text (some (indexNumber (responsesOutputIndex payload))) (some contentType))

/-- `response.output_text.done` and `response.refusal.done`, whose text is in
the property `field`. -/
def handleTextDone (contentType : ContentType) (field : String) (payload : JsonObject) :
    Handler Unit := do
  let text := optionalString (payload.prop field)
  let key := responsesTextKey payload contentType
  let s ← get
  match text with
  | none => pure ()
  | some text => do
    whenever (key ∉ s.responsesTextDoneKeys ∧ key ∉ s.responsesTextDeltaKeys)
      (emit (.textDelta text (some (indexNumber (responsesOutputIndex payload)))
        (some contentType)))
    noteRefusal contentType
  modify fun s => { s with responsesTextDoneKeys := setAdd key s.responsesTextDoneKeys }

/-! ## Tool calls -/

/-- The type of a tool item. -/
def toolItemType (item : JsonObject) : Option ToolCallType :=
  let type := stringValue (item.prop "type") []
  if type = js "function_call" then some .functionCall
  else if type = js "custom_tool_call" then some .customToolCall
  else none

/-- The arguments in a tool item. -/
def toolItemArguments (type : ToolCallType) (item : JsonObject) : Option JsString :=
  match type with
  | .functionCall => optionalString (item.prop "arguments")
  | .customToolCall => optionalString (item.prop "input")

/-- The `toolType` of a tool event: given for custom tools only. -/
def reportedToolType : ToolCallType → Option ToolCallType
  | .functionCall => none
  | .customToolCall => some .customToolCall

/-- The event for a tool item: its metadata the first time, and what its
arguments add to those seen. -/
def emitToolItem (outputIndex : Int) (index : Nat) (type : ToolCallType) (item : JsonObject)
    (includeMetadata : Bool) (argumentSuffix : Option JsString) : Handler Unit :=
  let callId := (optionalString (item.prop "call_id")).or (optionalString (item.prop "id"))
  emit (.toolCallDelta (indexNumber index) (if includeMetadata then callId else none)
    (if includeMetadata then optionalString (item.prop "name") else none) argumentSuffix
    (reportedToolType type) (reportedOutputIndex outputIndex index))

/-- `response.output_item.added`. -/
def handleItemAdded (payload : JsonObject) : Handler Unit := do
  let item := (objectValue (payload.prop "item")).getD []
  match toolItemType item with
  | none => pure ()
  | some type => do
    let outputIndex ← responsesToolOutputIndex payload (some item)
    let index ← responseToolIndex outputIndex
    let includeMetadata := decide (outputIndex ∉ (← get).responsesToolMetadataSeen)
    let argumentSuffix ← reconcileResponsesToolArguments outputIndex (toolItemArguments type item)
    if (← get).done then pure ()
    else do
      modify fun s =>
        { s with
          responsesToolMetadataSeen := setAdd outputIndex s.responsesToolMetadataSeen
          sawToolCall := true }
      whenever (includeMetadata || argumentSuffix.isSome)
        (emitToolItem outputIndex index type item includeMetadata argumentSuffix)

/-- `response.function_call_arguments.delta` and
`response.custom_tool_call_input.delta`. -/
def handleArgumentsDelta (type : ToolCallType) (payload : JsonObject) : Handler Unit := do
  let outputIndex ← responsesToolOutputIndex payload none
  let index ← responseToolIndex outputIndex
  modify fun s => { s with sawToolCall := true }
  let arguments ← appendResponsesToolArguments outputIndex (optionalString (payload.prop "delta"))
  emitArguments outputIndex index arguments (reportedToolType type)

/-- `response.function_call_arguments.done` and
`response.custom_tool_call_input.done`. -/
def handleArgumentsDone (type : ToolCallType) (payload : JsonObject) : Handler Unit := do
  let outputIndex ← responsesToolOutputIndex payload none
  let index ← responseToolIndex outputIndex
  let arguments ← reconcileResponsesToolArguments outputIndex (toolItemArguments type payload)
  if (← get).done then pure ()
  else do
    whenever arguments.isSome
      (emitArguments outputIndex index arguments (reportedToolType type))
    completeTool outputIndex index

/-- An item without a status is complete. -/
def isCompleteItem (item : JsonObject) : Bool :=
  match optionalString (item.prop "status") with
  | none => true
  | some status => decide (status = js "completed")

/-- A tool item that ends a call: in `response.output_item.done` and in the
output of a terminal response.  The result says whether to go on. -/
def finishToolItem (type : ToolCallType) (item : JsonObject) (outputIndex : Int) : Handler Bool := do
  let index ← responseToolIndex outputIndex
  let includeMetadata := decide (outputIndex ∉ (← get).responsesToolMetadataSeen)
  let argumentSuffix ← reconcileResponsesToolArguments outputIndex (toolItemArguments type item)
  if (← get).done then pure false
  else do
    whenever (includeMetadata || argumentSuffix.isSome) do
      modify fun s => { s with sawToolCall := true }
      emitToolItem outputIndex index type item includeMetadata argumentSuffix
    modify fun s =>
      { s with responsesToolMetadataSeen := setAdd outputIndex s.responsesToolMetadataSeen }
    whenever (isCompleteItem item) (completeTool outputIndex index)
    pure true

/-- `response.output_item.done`. -/
def handleItemDone (payload : JsonObject) : Handler Unit := do
  let item := (objectValue (payload.prop "item")).getD []
  if stringValue (item.prop "type") [] = js "message" then
    whenever (isCompleteItem item) (emit (.messageComplete
      ((numberValue (payload.prop "output_index")).getD (.ofInt 0))))
  else do
    let outputIndex ← responsesToolOutputIndex payload (some item)
    match toolItemType item with
    | none => pure ()
    | some type => do
      let _ ← finishToolItem type item outputIndex
      pure ()

/-! ## The terminal response -/

/-- The body of the loop over the content of a message. -/
def handleTerminalPart (outputIndex : Nat) (part : JsonObject × Nat) : Handler Unit :=
  let contentType : ContentType :=
    if stringValue (part.1.prop "type") [] = js "refusal" then .refusal else .text
  let value := match contentType with
    | .refusal => optionalString (part.1.prop "refusal")
    | .text => optionalString (part.1.prop "text")
  match value with
  | none => pure ()
  | some value => do
    let key := textKey contentType outputIndex part.2
    let s ← get
    whenever (key ∉ s.responsesTextDeltaKeys ∧ key ∉ s.responsesTextDoneKeys)
      (emit (.textDelta value (some (indexNumber outputIndex)) (some contentType)))
    noteRefusal contentType
    modify fun s => { s with responsesTextDoneKeys := setAdd key s.responsesTextDoneKeys }

/-- The body of the loop over the output items; the result says whether to go on. -/
def handleTerminalItem (item : JsonObject) (outputIndex : Nat) : Handler Bool := do
  if stringValue (item.prop "type") [] = js "message" then do
    (arrayOfObjects (item.prop "content")).zipIdx.forM (handleTerminalPart outputIndex)
    whenever (isCompleteItem item) (emit (.messageComplete (indexNumber outputIndex)))
    pure true
  else
    match toolItemType item with
    | none => pure true
    | some type => do
      let resolved ← responsesToolOutputIndex
        [(js "output_index", .number (indexNumber outputIndex))] (some item)
      finishToolItem type item resolved

/-- The loop over the output items. -/
def handleTerminalItems : List (JsonObject × Nat) → Handler Bool
  | [] => pure true
  | (item, outputIndex) :: rest => do
    if ← handleTerminalItem item outputIndex then handleTerminalItems rest else pure false

/-- The stop reason of a terminal response. -/
def terminalStopReason (incomplete : Bool) (rawReason : JsString) (sawRefusal sawToolCall : Bool) :
    CanonicalStopReason :=
  let normalizedReason := toLowerCase rawReason.trim
  if incomplete then
    if includes normalizedReason "content_filter" then .contentFilter
    else if includes normalizedReason "max" then .length
    else .other
  else if sawRefusal then .contentFilter
  else if sawToolCall then .toolCalls
  else .stop

/-- `response.completed` and `response.incomplete`. -/
def handleTerminal (incomplete : Bool) (response : Option JsonObject) : Handler Unit := do
  let items := (arrayOfObjects (response.bind (·.prop "output"))).zipIdx
  if ← handleTerminalItems items then do
    emitUsage (objectProp response "usage") "input_tokens" "output_tokens" (some "total_tokens")
    let details := objectProp response "incomplete_details"
    let rawReason := stringValue (details.bind (·.prop "reason")) []
    let s ← get
    emitStop (terminalStopReason incomplete rawReason s.sawRefusal s.sawToolCall)
      (if rawReason ≠ [] then some rawReason
        else if s.sawRefusal then some (js "refusal") else none)
    emitDone
  else pure ()

/-! ## Dispatch -/

/-- `responsesPayloadAdvancesProgress`. -/
def responsesPayloadAdvancesProgress (type : JsString) (payload : JsonObject) : Handler Bool := do
  if !responsesEventAdvancesProgress type then pure false
  else if startsWith type "response.usage" then do
    let s ← get
    match responsesUsageProgressSignature payload with
    | none => pure false
    | some signature =>
      if signature = [] ∨ signature = s.responsesLastProgressUsage then pure false
      else do
        modify fun s => { s with responsesLastProgressUsage := signature }
        pure true
  else pure true

/-- Count a payload and check its sequence number; the result says whether to
go on. -/
def sequenceEvent (type : JsString) (payload : JsonObject) : Handler Bool := do
  let recognized := recognizedResponsesPayload type payload
  if type = [] then pure true
  else do
    modify fun s =>
      { s with
        responsesEventCount := s.responsesEventCount + 1
        responsesLastEventType := some type }
    let inSequence ← (
      if recognized && payload.hasOwn "sequence_number" then do
        let s ← get
        match nonNegativeSafeInteger (payload.prop "sequence_number") with
        | none => do
          emitResponsesProtocolError
            (js "Responses sequence_number must be a non-negative safe integer when present")
            (js "invalid_sequence_number")
          pure false
        | some sequenceNumber =>
          if s.responsesLastSequenceNumber.any (sequenceNumber ≤ ·) then pure false
          else do
            modify fun s => { s with responsesLastSequenceNumber := some sequenceNumber }
            pure true
      else pure true)
    if inSequence then do
      whenever recognized do
        let advances ← responsesPayloadAdvancesProgress type payload
        whenever advances (modify fun s =>
          { s with responsesProgressEventCount := s.responsesProgressEventCount + 1 })
      pure true
    else pure false

def terminalEvent? (type : JsString) : Option ResponsesTerminalEvent :=
  if type = js "response.completed" then some .completed
  else if type = js "response.incomplete" then some .incomplete
  else if type = js "response.failed" then some .failed
  else none

/-- `stringValue(terminalResponse.status).trim().toLowerCase()`. -/
def responseStatus (response : JsonObject) : JsString :=
  toLowerCase (stringValue (response.prop "status") []).trim

/-- Check a terminal event; the result says whether to go on. -/
def checkTerminal (type : JsString) (payload : JsonObject) : Handler Bool := do
  match terminalEvent? type with
  | none => pure true
  | some terminal =>
    match objectValue (payload.prop "response") with
    | none => do
      emitResponsesProtocolError (js "Responses terminal event " ++ type ++
        js " is missing its required response payload") (js "invalid_terminal_event")
      pure false
    | some response =>
      let actualStatus := responseStatus response
      if actualStatus ≠ terminal.status then do
        emitResponsesProtocolError (js "Responses terminal event " ++ type ++
          js " requires response.status=" ++ terminal.status ++ js "; received " ++
          (if actualStatus = [] then js "<missing>" else actualStatus))
          (js "invalid_terminal_status")
        pure false
      else do
        if (← get).errored then do
          emitStop .error (some (js "prior_stream_error"))
          emitDone
          pure false
        else do
          modify fun s =>
            { s with
              responsesTerminalEvent := some terminal
              responsesTerminalResponse := some response }
          pure true

/-- The handlers that are chosen by the type. -/
def dispatchResponses (type : JsString) (payload : JsonObject) (response : Option JsonObject) :
    Handler Unit :=
  if type = js "error" ∨ type = js "response.error" then do
    emitErrorObject (nullish (payload.prop "error") (some (.object payload)))
    emitStop .error (some type)
    emitDone
  else if type = js "response.created" ∨ type = js "response.in_progress" then
    emitStart (response.bind (·.prop "id")) (response.bind (·.prop "model"))
      (response.bind (·.prop "created_at"))
  else do
    emitStart (payload.prop "response_id") (response.bind (·.prop "model"))
      (response.bind (·.prop "created_at"))
    if type = js "response.output_text.delta" then handleTextDelta .text payload
    else if type = js "response.output_text.done" then handleTextDone .text "text" payload
    else if type = js "response.refusal.delta" then handleTextDelta .refusal payload
    else if type = js "response.refusal.done" then handleTextDone .refusal "refusal" payload
    else if type = js "response.output_item.added" then handleItemAdded payload
    else if type = js "response.function_call_arguments.delta" then
      handleArgumentsDelta .functionCall payload
    else if type = js "response.custom_tool_call_input.delta" then
      handleArgumentsDelta .customToolCall payload
    else if type = js "response.function_call_arguments.done" then
      handleArgumentsDone .functionCall payload
    else if type = js "response.custom_tool_call_input.done" then
      handleArgumentsDone .customToolCall payload
    else if type = js "response.output_item.done" then handleItemDone payload
    else if type = js "response.completed" then handleTerminal false response
    else if type = js "response.incomplete" then handleTerminal true response
    else if startsWith type "response.usage" then
      emitUsage ((objectValue (payload.prop "usage")).or (objectProp response "usage"))
        "input_tokens" "output_tokens" (some "total_tokens")
    else if type = js "response.failed" then do
      emitErrorObject (nullish (response.bind (·.prop "error"))
        (nullish (payload.prop "error") (some (.object payload))))
      emitStop .error (some (js "failed"))
      emitDone
    else pure ()

def handleOpenAiResponses (eventName : Option JsString) (payload : JsonObject) : Handler Unit :=
  let payloadType := optionalString (payload.prop "type")
  let type := payloadType.getD (eventName.getD [])
  let response := objectValue (payload.prop "response")
  match eventName.bind terminalEvent?, payloadType with
  | some terminal, some other =>
    if other ≠ terminal.name then
      emitResponsesProtocolError (js "Responses SSE event " ++ terminal.name ++
        js " disagrees with payload type " ++ other) (js "mismatched_event_type")
    else handleTyped type payload response
  | _, _ => handleTyped type payload response
where
  /-- The payload, once the names agree. -/
  handleTyped (type : JsString) (payload : JsonObject) (response : Option JsonObject) :
      Handler Unit := do
    match (optionalString (response.bind (·.prop "id"))).or
        (optionalString (payload.prop "response_id")) with
    | none => pure ()
    | some id => modify fun s => { s with responsesResponseId := some id }
    if ← sequenceEvent type payload then
      if ← checkTerminal type payload then dispatchResponses type payload response
      else pure ()
    else pure ()

end StonePlus.Streaming
