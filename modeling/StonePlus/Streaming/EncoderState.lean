import StonePlus.Dsml.Block
import StonePlus.Lib.Effect
import StonePlus.Streaming.ParserState
import StonePlus.Streaming.Values

/-!
# StonePlus.Streaming.EncoderState

The tool calls an encoder has collected, and the request-scoped plan that
authorizes and restores them: `prepareResponsesToolBridge` of
`ProtocolEncoder`, with `parseToolSearchArguments` and
`sanitizeDeepSeekHarnessToolArguments`.
-/

namespace StonePlus.Streaming

open Dsml

/-- What the encoder reads of a `ToolBridgePlan`: of `calls` the call ids. -/
structure EncoderBridgePlan extends ToolBridgePlan where
  calls : List JsString := []
  parallelToolCalls : Option Bool := none

structure EncodedToolState where
  index : JsNumber
  id : JsString := []
  name : JsString := []
  arguments : JsString := []
  started : Bool := false
  outputIndex : Option Nat := none
  itemId : Option JsString := none
  contentIndex : Option Nat := none
  emittedArguments : Nat := 0
  emitted : Bool := false
  completed : Bool := false
  toolType : Option ToolCallType := none
  bridgeBinding : Option ToolBridgeBinding := none
  customInput : Option JsString := none
  toolSearchArguments : Option JsonObject := none

/-- What `failResponsesToolBridge` is called with. -/
structure BridgeFailure where
  message : JsString
  code : JsString

def bridgeFailure (message : JsString) (code : String) : BridgeFailure := ⟨message, js code⟩

/-! ## Arguments -/

def parseJsonObject (value : JsString) : Option JsonObject :=
  if value = [] then none else objectValue (Json.parse value)

def parseToolSearchArguments (value : JsString) : Except DeepSeekDsmlError JsonObject :=
  let invalid (message : String) : Except DeepSeekDsmlError JsonObject :=
    .error (dsmlError "invalid_tool_search_arguments" (js message))
  match Json.parse value with
  | none => invalid "DeepSeek tool search arguments must be valid JSON."
  | some (.object args) =>
    match JsonObject.prop args "query" with
    | some (.string query) =>
      if query.trim = [] then invalid "DeepSeek tool search requires a non-empty query."
      else
        let limit := JsonObject.prop args "limit"
        let validLimit := match limit with
          | none => true
          | some (.number n) => n.isFinite && !(n ≤ .ofInt 0 : Bool)
          | some _ => false
        if !validLimit then invalid "DeepSeek tool search limit must be a positive number."
        else if args.any fun e => e.1 ≠ js "query" ∧ e.1 ≠ js "limit" then
          invalid "DeepSeek tool search accepts only query and limit."
        else .ok ((js "query", .string query.trim) :: match limit with
          | some (.number n) => [(js "limit", .number n)]
          | _ => [])
    | _ => invalid "DeepSeek tool search requires a non-empty query."
  | some _ => invalid "DeepSeek tool search arguments must be an object."

def sanitizeDeepSeekHarnessToolArguments (value : JsString) : JsString :=
  match objectValue (Json.parse value) with
  | none => value
  | some object =>
    let isRetryOnly (key : JsString) : Bool :=
      key == js "sandbox_permissions" || key == js "justification"
    if object.any fun e => isRetryOnly e.1 then
      Json.stringify (.object (object.filter fun e => !isRetryOnly e.1))
    else value

/-! ## Authorization -/

/-- The declared aliases; a wire name may be declared once. -/
def declaredAliases (plan : EncoderBridgePlan) : Except BridgeFailure (List ToolBridgeBinding) :=
  let declared := plan.tools.filter fun binding => binding.declared != some false
  if (declared.map ToolBridgeBinding.wireName).Nodup then .ok declared
  else .error (bridgeFailure (js "The current request contains an ambiguous tool alias")
    "duplicate_tool_alias")

/-- The binding of a wire name. -/
def resolveBinding (plan : EncoderBridgePlan) (aliases : List ToolBridgeBinding) (name : JsString) :
    Except BridgeFailure ToolBridgeBinding :=
  let undeclared : Except BridgeFailure ToolBridgeBinding := .error
    (bridgeFailure (js "Upstream returned a tool that was not declared by the current request")
      "unknown_tool_alias")
  match aliases.find? fun binding => binding.wireName == name with
  | some binding => .ok binding
  | none =>
    if plan.dialect = .deepseekDsml ∨ plan.dialect = .deepseekChat then
      match resolveDeepSeekToolBinding plan.toToolBridgePlan name with
      | .error error => .error (bridgeFailure error.message "invalid_deferred_tool")
      | .ok none => undeclared
      | .ok (some binding) => .ok binding
    else undeclared

/-- The input of a custom tool. -/
def customToolInput (tool : EncodedToolState) (binding : ToolBridgeBinding) :
    Except BridgeFailure JsString :=
  match binding.deferredToolName with
  | some (c :: deferredToolName) =>
    let parsed := (parseJsonObject tool.arguments).or
      (if tool.toolType = some .customToolCall then some [(js "input", .string tool.arguments)]
        else none)
    match parsed with
    | none => .error (bridgeFailure (js "Deferred Codex tool arguments must be a JSON object")
        "invalid_deferred_tool_arguments")
    | some parsed =>
      match deepSeekDeferredToolExecInput (c :: deferredToolName) { own := parsed } with
      | .error error => .error (bridgeFailure error.message "invalid_deferred_tool")
      | .ok input => .ok input
  | _ =>
    if tool.toolType = some .customToolCall then .ok tool.arguments
    else
      let invalid : Except BridgeFailure JsString := .error
        (bridgeFailure (js "Upstream custom tool arguments must be exactly \x7b input: string \x7d")
          "invalid_custom_tool_arguments")
      match parseJsonObject tool.arguments with
      | none => invalid
      | some parsed =>
        match parsed.prop "input" with
        | some (.string input) =>
          if parsed.any fun e => e.1 ≠ js "input" then invalid else .ok input
        | _ => invalid

/-- The body of the loop over the tools: bind one tool. -/
def authorizeTool (tool : EncodedToolState) (binding : ToolBridgeBinding) :
    Except BridgeFailure EncodedToolState :=
  let bound := { tool with bridgeBinding := some binding }
  match binding.sourceType with
  | .toolSearch =>
    match parseToolSearchArguments tool.arguments with
    | .error error => .error (bridgeFailure error.message "invalid_tool_search_arguments")
    | .ok args => .ok { bound with toolSearchArguments := some args }
  | .custom =>
    match customToolInput tool binding with
    | .error failure => .error failure
    | .ok input => .ok { bound with customInput := some input }
  | .function => .ok bound

/-- The loop over the tools, with the call ids in use. -/
def authorizeTools (plan : EncoderBridgePlan) (aliases : List ToolBridgeBinding)
    (usedCallIds : List JsString) : List EncodedToolState →
    Except BridgeFailure (List EncodedToolState)
  | [] => .ok []
  | tool :: tools =>
    match resolveBinding plan aliases tool.name with
    | .error failure => .error failure
    | .ok binding =>
      if tool.id = [] then
        .error (bridgeFailure (js "Upstream returned a tool call without an id")
          "missing_tool_call_id")
      else if tool.id ∈ usedCallIds then
        .error (bridgeFailure (js "Upstream returned a duplicate tool call id")
          "duplicate_tool_call_id")
      else
        match authorizeTool tool binding with
        | .error failure => .error failure
        | .ok tool' =>
          match authorizeTools plan aliases (tool.id :: usedCallIds) tools with
          | .error failure => .error failure
          | .ok tools' => .ok (tool' :: tools')

/-- `prepareResponsesToolBridge` on the tools of an encoder: the tools with
their bindings, or the failure it reports. -/
def prepareTools (plan : Option EncoderBridgePlan) (tools : List EncodedToolState) :
    Except BridgeFailure (List EncodedToolState) :=
  match plan with
  | none => .ok tools
  | some plan =>
    if plan.dialect ≠ .deepseekDsml ∧ plan.parallelToolCalls = some false ∧ 1 < tools.length then
      .error (bridgeFailure
        (js "Upstream returned parallel tool calls when parallel tool calls were disabled")
        "invalid_tool_bridge")
    else
      match declaredAliases plan with
      | .error failure => .error failure
      | .ok aliases => authorizeTools plan aliases plan.calls tools

end StonePlus.Streaming

/-!
## The state

The frames and the state of `ProtocolEncoder`, and the methods its four
encoders share.

`this.frames` is the output of a method, in the order of the calls.
-/

namespace StonePlus.Streaming

open Lib.Effect

/-! ## Frames -/

/-- A frame: what `sseFrame`, `responsesSse` and `anthropicSse` write. -/
inductive Frame
  | data (payload : JsonObject)
  | doneMarker
  | event (name : JsString) (payload : JsonObject)
  deriving DecidableEq

/-- The text of a frame. -/
def Frame.text : Frame → JsString
  | .data payload => js "data: " ++ Json.stringify (.object payload) ++ js "\n\n"
  | .doneMarker => js "data: [DONE]\n\n"
  | .event name payload => js "event: " ++ name ++ js "\ndata: " ++
      Json.stringify (.object payload) ++ js "\n\n"

/-- `omitUndefined`: the properties that are there. -/
def omitUndefined (entries : List (String × Option Json)) : JsonObject :=
  entries.filterMap fun e => e.2.map fun value => (js e.1, value)

theorem prop_omitUndefined_nil (key : String) : (omitUndefined []).prop key = none := rfl

theorem prop_omitUndefined_cons (name key : String) (value : Option Json)
    (entries : List (String × Option Json)) :
    (omitUndefined ((name, value) :: entries)).prop key =
      if js name = js key then value.or ((omitUndefined entries).prop key)
      else (omitUndefined entries).prop key := by
  cases value with
  | none => simp [omitUndefined]
  | some value =>
      by_cases h : js name = js key <;>
        simp [omitUndefined, JsonObject.prop, Json.property?, h]

/-- `anthropicSse`, whose payloads repeat the name of the event. -/
def anthropicSse (event : String) (payload : JsonObject) : Frame :=
  .event (js event) ((js "type", .string (js event)) :: payload)

/-- A literal string as a property value. -/
def literal (s : String) : Option Json := some (.string (js s))

/-- A natural number as a property value. -/
def natural (n : Nat) : Option Json := some (.number (.ofNat n))

/-- An index that may be undefined as a property value. -/
def optionalIndex (n : Option Nat) : Option Json := n.map fun n => .number (.ofNat n)

/-! ## State -/

/-- `StreamEncodingOptions`; `now` is what the clock says when the encoder is
made, the one time it is read. -/
structure EncodingOptions where
  id : Option JsString := none
  model : Option JsString := none
  now : JsNumber
  responsesAlreadyStarted : Bool := false
  toolBridgePlan : Option EncoderBridgePlan := none
  sanitizeDeepSeekHarnessToolArguments : Bool := false

structure EncoderState where
  id : JsString
  model : JsString
  createdAt : JsNumber
  started : Bool := false
  stopped : Bool := false
  done : Bool := false
  failed : Bool := false
  encodingFailure : Option StreamEvent := none
  pendingStop : Option CanonicalStopReason := none
  usage : CanonicalUsage := {}
  tools : JsMap JsNumber EncodedToolState := ∅
  anthropicNextContentIndex : Nat := 0
  anthropicTextIndex : Option Nat := none
  anthropicTextStarted : Bool := false
  anthropicTextClosed : Bool := false
  responsesNextOutputIndex : Nat := 0
  responsesTextOutputIndex : Option Nat := none
  responsesText : JsString := []
  responsesTextStarted : Bool := false
  responsesTextSourceIndices : List JsNumber := []
  responsesCompletedMessageIndices : List JsNumber := []
  responsesFailureEmitted : Bool := false
  chatUsageEmitted : Bool := false
  chatToolIds : JsMap JsNumber JsString := ∅

/-- The constructor. -/
def EncoderState.init (protocol : Protocol) (options : EncodingOptions) : EncoderState where
  id := options.id.getD (js "stream_" ++ options.now.toJsString)
  model := options.model.getD []
  createdAt := options.now
  started := decide (protocol = .openaiResponses) && options.responsesAlreadyStarted

/-- A method: it changes the state of the encoder and pushes frames, or events
that are written as frames. -/
abbrev Encoding (ω α : Type) := Lib.Effect EncoderState ω Empty α

/-! ## Shared methods -/

variable {ω : Type}

/-- Two accounts of an id or a name: snapshots or fragments. -/
def mergeStreamedIdentity (current incoming : JsString) : JsString :=
  if incoming = [] ∨ incoming = current ∨ incoming.isPrefixOf current then current
  else if current = [] ∨ current.isPrefixOf incoming then incoming
  else current ++ incoming

def safeIdentifier (value : JsString) : JsString :=
  let isSafe (c : UInt16) : Bool :=
    (0x61 ≤ c && c ≤ 0x7A) || (0x41 ≤ c && c ≤ 0x5A) || (0x30 ≤ c && c ≤ 0x39) || c == 0x5F ||
      c == 0x2D
  if value = [] then js "stream" else value.map fun c => if isSafe c then c else 0x5F

/-- `Math.floor(this.createdAt / 1000)`. -/
def createdSeconds (s : EncoderState) : Json := .number (s.createdAt / .ofInt 1000).floor

def canonicalError (message : JsString) (code errorType : Option JsString) : JsonObject :=
  omitUndefined [("message", some (.string message)), ("type", errorType.map .string),
    ("code", code.map .string)]

def getTool (index : JsNumber) : Encoding ω (Option EncodedToolState) := do
  pure ((← get).tools.get? (mapKey index))

/-- Write a changed tool back. -/
def putTool (tool : EncodedToolState) : Encoding ω Unit :=
  modify fun s => { s with tools := s.tools.set (mapKey tool.index) tool }

/-- The fields of a tool-call delta merged into a tool. -/
def mergeToolDelta (tool : EncodedToolState) (id name arguments : Option JsString)
    (toolType : Option ToolCallType) : EncodedToolState :=
  { tool with
    id := (id.map (mergeStreamedIdentity tool.id)).getD tool.id
    name := (name.map (mergeStreamedIdentity tool.name)).getD tool.name
    arguments := tool.arguments ++ arguments.getD []
    toolType := toolType.or tool.toolType }

/-- `updateTool`. -/
def updateTool (index : JsNumber) (id name arguments : Option JsString)
    (toolType : Option ToolCallType) : Encoding ω EncodedToolState := do
  let tool := mergeToolDelta ((← getTool index).getD { index }) id name arguments toolType
  putTool tool
  pure tool

/-- `tool.completed = true` for the tool of a call, if there is one. -/
def completeEncodedTool (index : JsNumber) : Encoding ω Unit := do
  match ← getTool index with
  | none => pure ()
  | some tool => putTool { tool with completed := true }

/-- `this.mergeUsage`. -/
def mergeEncodedUsage (usage : CanonicalUsage) : Encoding ω Unit :=
  modify fun s => { s with usage := mergeUsage s.usage usage }

/-- `this.pendingStop ??= event`. -/
def notePendingStop (reason : CanonicalStopReason) : Encoding ω Unit :=
  modify fun s => { s with pendingStop := s.pendingStop.or (some reason) }

end StonePlus.Streaming
