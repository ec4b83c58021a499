import StonePlus.Grok.Source

/-!
# StonePlus.Grok.Request

`normalizeXaiResponsesRequest` of `gateway/protocol.ts`: the request that is sent
to Grok.
-/

namespace StonePlus.Grok

open Dsml Streaming Json

/-- `XAI_NATIVE_RESPONSES_TOOL_TYPES`. -/
def nativeToolTypes : List JsString :=
  [js "function", js "web_search", js "x_search", js "image_generation", js "collections_search",
    js "file_search", js "code_execution", js "code_interpreter", js "mcp", js "shell"]

/-- The fields of a conversation's state that Grok does not know. -/
def stateFields : List String :=
  ["previous_response_id", "include", "prompt_cache_key", "prompt_cache_retention",
    "safety_identifier", "truncation", "text", "service_tier", "stream_options"]

/-- The sampling fields that grok-4.5 does not know. -/
def samplingFields : List String :=
  ["presence_penalty", "presencePenalty", "frequency_penalty", "frequencyPenalty", "stop"]

/-- `toLowerCase`, as far as comparison with a lower-case ASCII word can tell: of
the other units only the Kelvin sign has an ASCII lower case. -/
def lowerCase (s : JsString) : JsString :=
  (toLowerCase s).map fun c => if c = 0x212A then 0x6B else c

/-- `split('/').at(-1)`. -/
def afterLastSlash (s : JsString) : JsString := (s.reverse.takeWhile (· != 0x2F)).reverse

def xaiModelSuffix (model : JsString) : JsString := lowerCase (afterLastSlash model.trim).trim

/-- `withModel` for the Responses protocol. -/
def withModel (body : JsonObject) (model : JsString) : JsonObject :=
  if body.prop "model" = some (.string model) then body else assign body "model" (.string model)

/-! ## Nested fields -/

mutual

def containsXaiField (field : JsString) : Json → Bool
  | .array items => containsInItems field items
  | .object entries => entries.any (·.1 == field) || containsInEntries field entries
  | _ => false

def containsInItems (field : JsString) : List Json → Bool
  | [] => false
  | value :: values => containsXaiField field value || containsInItems field values

def containsInEntries (field : JsString) : JsonObject → Bool
  | [] => false
  | (_, value) :: entries => containsXaiField field value || containsInEntries field entries

end

mutual

def removeXaiFieldRecursive (field : JsString) : Json → Json
  | .array items => .array (removeFromItems field items)
  | .object entries => .object (removeFromEntries field entries)
  | .null => .null
  | .bool value => .bool value
  | .number value => .number value
  | .string value => .string value

def removeFromItems (field : JsString) : List Json → List Json
  | [] => []
  | value :: values => removeXaiFieldRecursive field value :: removeFromItems field values

def removeFromEntries (field : JsString) : JsonObject → JsonObject
  | [] => []
  | (key, value) :: entries =>
    if key = field then removeFromEntries field entries
    else (key, removeXaiFieldRecursive field value) :: removeFromEntries field entries

end

/-! ## Input, tools and choice -/

def isSupportedXaiResponsesInputItem (item : JsonObject) : Bool :=
  let type := typeOf item
  [js "message", js "function_call", js "function_call_output", js "custom_tool_call",
    js "custom_tool_call_output"].contains type ||
    (type.isEmpty && isStringValue (item.prop "role"))

/-- One item of the input; an item of another kind is dropped. -/
def normalizeXaiNativeItem (plan : XaiToolBridgePlan) (index : Nat) (item : JsonObject) :
    Except InvalidToolBridgeError (List JsonObject) :=
  let type := typeOf item
  let unknown (kind : String) : Except InvalidToolBridgeError (List JsonObject) :=
    .error ⟨indexed "input" index ".name",
      js "unknown " ++ js kind ++ js " " ++
        (if nameOf item = [] then js "<empty>" else nameOf item)⟩
  if type = js "message" ∨ (type = [] ∧ isStringValue (item.prop "role") = true) then .ok [item]
  else if type = js "function_call" then
    match findXaiToolInPlan plan.tools .function (nameOf item) with
    | none => unknown "function"
    | some binding => .ok [remove (assign item "name" (.string binding.wireName)) "namespace"]
  else if type = js "custom_tool_call" then
    match findXaiToolInPlan plan.tools .custom (nameOf item) with
    | none => unknown "custom tool"
    | some binding =>
      let arguments := stringify (.object ((item.prop "input").toList.map fun v => (js "input", v)))
      .ok [remove (assign (assign (assign item "type" (.string (js "function_call"))) "name"
        (.string binding.wireName)) "arguments" (.string arguments)) "input"]
  else if type = js "function_call_output" then .ok [item]
  else if type = js "custom_tool_call_output" then
    .ok [assign item "type" (.string (js "function_call_output"))]
  else .ok []

/-- `normalizeXaiNativeInput`. -/
def normalizeXaiNativeInput (plan : XaiToolBridgePlan) (index : Nat) :
    List JsonObject → Except InvalidToolBridgeError (List JsonObject)
  | [] => .ok []
  | item :: items => do
    let normalized ← normalizeXaiNativeItem plan index item
    let rest ← normalizeXaiNativeInput plan (index + 1) items
    pure (normalized ++ rest)

/-- What is said of the argument of every custom tool. -/
def customArgumentNote : JsString :=
  js "The argument must be a JSON object with one string property named input."

/-- The function that stands for a custom tool. -/
def customFunction (wireName : JsString) (description : Option JsString) : JsonObject :=
  [(js "type", .string (js "function")), (js "name", .string wireName),
    (js "description", .string (join (js " ") (description.toList ++ [customArgumentNote]))),
    (js "parameters", .object [(js "type", .string (js "object")),
      (js "properties", .object [(js "input", .object [(js "type", .string (js "string"))])]),
      (js "required", .array [.string (js "input")]),
      (js "additionalProperties", .bool false)])]

/-- One tool. -/
def normalizeXaiNativeTool (plan : XaiToolBridgePlan) (tool : JsonObject) : List JsonObject :=
  let type := typeOf tool
  if type = js "function" then
    match findXaiToolInPlan plan.tools .function (nameOf tool) with
    | some binding => [assign tool "name" (.string binding.wireName)]
    | none => []
  else if type = js "custom" then
    match findXaiToolInPlan plan.tools .custom (nameOf tool) with
    | some binding => [customFunction binding.wireName (optionalString (tool.prop "description"))]
    | none => []
  else if type ∈ nativeToolTypes then [tool] else []

/-- `normalizeXaiNativeTools`. -/
def normalizeXaiNativeTools (plan : XaiToolBridgePlan) (value : Option Json) : List JsonObject :=
  (arrayOfObjects value).flatMap (normalizeXaiNativeTool plan)

/-- `normalizeXaiNativeToolChoice`. -/
def normalizeXaiNativeToolChoice (plan : XaiToolBridgePlan) (tools : List JsonObject)
    (value : Option Json) : Option Json :=
  match value with
  | some (.string choice) =>
    if choice ∈ [js "auto", js "none", js "required"] then some (.string choice) else none
  | _ =>
    let choice := (objectValue value).getD []
    let type := typeOf choice
    let choiceName := (optionalString (choice.prop "name")).or
      (optionalString ((objectValue (choice.prop "function")).bind (·.prop "name")))
    if type = js "function" ∨ type = js "custom" then
      match choiceName with
      | none => none
      | some name =>
        match findXaiToolInPlan plan.tools
          (if type = js "function" then .function else .custom) name with
        | none => none
        | some binding =>
          if binding.declared = some false ∨ !(tools.any fun tool =>
              typeOf tool == js "function" && nameOf tool == binding.wireName) then none
          else some (.object [(js "type", .string (js "function")),
            (js "name", .string binding.wireName)])
    else if type ∈ nativeToolTypes ∧ tools.any fun tool => typeOf tool == type then
      (objectValue value).map .object
    else none

/-! ## The request -/

/-- An item of the input that stands for state that cannot be read. -/
def isOpaque (item : JsonObject) : Bool :=
  let type := typeOf item
  type == js "compaction_trigger" ||
    ((type == js "compaction" || type == js "compaction_summary") &&
      match item.prop "encrypted_content" with
      | some (.string content) => !content.trim.isEmpty
      | _ => false)

def removeAll (object : JsonObject) (fields : List String) : JsonObject := fields.foldl remove object

def isGrok45 (targetModel : JsString) : Bool := xaiModelSuffix targetModel == js "grok-4.5"

/-- Whether the request must be rewritten at all. -/
def needsRewrite (plan : XaiToolBridgePlan) (body : JsonObject) (targetModel : JsString) : Bool :=
  plan.requiresResponseBridge ||
    (arrayOfObjects (body.prop "input")).any (fun item => !isSupportedXaiResponsesInputItem item) ||
    (arrayOfObjects (body.prop "tools")).any (fun tool =>
      typeOf tool != js "custom" && !nativeToolTypes.contains (typeOf tool)) ||
    stateFields.any (fun field => body.hasOwn field) ||
    containsXaiField (js "external_web_access") (.object body) ||
    (isGrok45 targetModel && samplingFields.any fun field => body.hasOwn field)

/-- `applyXaiReasoning`. -/
def applyXaiReasoning (body output : JsonObject) : JsonObject :=
  let effort := toLowerCase
    (stringValue (objectProp (some body) "reasoning" |>.bind (·.prop "effort")) []).trim
  if effort = js "minimal" ∨ effort = js "low" then
    assign output "reasoning_effort" (.string (js "low"))
  else if effort = js "medium" then assign output "reasoning_effort" (.string (js "medium"))
  else if effort = js "high" ∨ effort = js "xhigh" ∨ effort = js "max" then
    assign output "reasoning_effort" (.string (js "high"))
  else output

/-- The tools of the rewritten request, with its tool choice. -/
def rewriteTools (plan : XaiToolBridgePlan) (body : JsonObject) : JsonObject :=
  let tools := normalizeXaiNativeTools plan (body.prop "tools")
  if tools = [] then removeAll body ["tools", "tool_choice", "parallel_tool_calls"]
  else
    let body := assign body "tools" (.array (tools.map .object))
    match normalizeXaiNativeToolChoice plan tools (body.prop "tool_choice") with
    | none => remove body "tool_choice"
    | some choice => assign body "tool_choice" choice

/-- `normalizeXaiResponsesRequest` with the plan of the prepared source. -/
def normalizeXaiResponsesRequest (body : JsonObject) (targetModel : JsString)
    (plan : XaiToolBridgePlan) : Except InvalidToolBridgeError JsonObject :=
  match (arrayOfObjects (body.prop "input")).findIdx? isOpaque with
  | some index => .error ⟨indexed "input" index "",
      js "Responses compaction state cannot be discarded or expanded safely"⟩
  | none =>
    if nullish (body.prop "previous_response_id") none ≠ none then
      .error ⟨js "previous_response_id",
        js "Responses conversation chaining cannot be discarded or expanded safely"⟩
    else if !needsRewrite plan body targetModel then .ok (withModel body targetModel)
    else do
      let safeBody := removeFromEntries (js "external_web_access") (removeAll body stateFields)
      let safeBody := if isGrok45 targetModel then removeAll safeBody samplingFields else safeBody
      let input ← normalizeXaiNativeInput plan 0 (arrayOfObjects (safeBody.prop "input"))
      let safeBody := match safeBody.prop "input" with
        | some (.array _) => assign safeBody "input" (.array (input.map .object))
        | _ => safeBody
      let safeBody := remove (rewriteTools plan safeBody) "reasoning"
      pure (withModel (applyXaiReasoning body safeBody) targetModel)

end StonePlus.Grok
