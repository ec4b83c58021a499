import StonePlus.Canonical
import StonePlus.Js.Json
import StonePlus.Js.Map

/-!
# StonePlus.Streaming.Values

The functions at the end of `gateway/streaming.ts` that read untyped JSON
values, and its tables of stop reasons.

An absent property is `none`; `null` is a value that `??` skips.
-/

namespace StonePlus.Streaming

/-- The protocols `assertCanonicalStreamingProtocol` admits. -/
inductive Protocol
  | openaiChat | openaiResponses | anthropicMessages | gemini
  deriving DecidableEq

/-- The properties of an object. -/
abbrev JsonObject := List (JsString × Json)

/-- `object.key`. -/
def JsonObject.prop (o : JsonObject) (key : String) : Option Json := Json.property? o (js key)

/-- `Object.hasOwn`. -/
def JsonObject.hasOwn (o : JsonObject) (key : String) : Bool := (o.prop key).isSome

/-- `value ?? fallback`. -/
def nullish (value fallback : Option Json) : Option Json :=
  match value with
  | none | some .null => fallback
  | v => v

/-- `Boolean(value)`. -/
def truthy : Option Json → Bool
  | none | some .null => false
  | some (.bool b) => b
  | some (.number n) => !(n == .ofInt 0 || n.isNaN)
  | some (.string s) => !s.isEmpty
  | some (.array _) | some (.object _) => true

def objectValue : Option Json → Option JsonObject
  | some (.object entries) => some entries
  | _ => none

def arrayValue : Option Json → List Json
  | some (.array items) => items
  | _ => []

def arrayOfObjects (value : Option Json) : List JsonObject :=
  (arrayValue value).filterMap fun item => objectValue (some item)

def stringValue (value : Option Json) (fallback : JsString) : JsString :=
  match value with
  | some (.string s) => s
  | _ => fallback

def optionalString : Option Json → Option JsString
  | some (.string (c :: s)) => some (c :: s)
  | _ => none

def numberValue : Option Json → Option JsNumber
  | some (.number n) => if n.isFinite then some n else none
  | _ => none

def nonNegativeSafeInteger : Option Json → Option Nat
  | some (.number n) => if n.isSafeInteger then n.toNat? else none
  | _ => none

def nonNegativeFiniteNumber : Option Json → Option JsNumber
  | some (.number n) => if n.isFinite && !(n < .ofInt 0 : Bool) then some n else none
  | _ => none

/-- `objectValue(object?.key)`. -/
def objectProp (o : Option JsonObject) (key : String) : Option JsonObject :=
  objectValue (o.bind (·.prop key))

/-- The number a `Map` or `Set` files a key under: the zeros are one key. -/
def mapKey (n : JsNumber) : JsNumber := if n == .ofInt 0 then .ofInt 0 else n

/-- `Set.prototype.add`. -/
def setAdd {α : Type} [DecidableEq α] (x : α) (set : List α) : List α :=
  if x ∈ set then set else set ++ [x]

/-- `String.prototype.startsWith`. -/
def startsWith (s : JsString) (start : String) : Bool := (js start).isPrefixOf s

/-- `String.prototype.endsWith`. -/
def endsWith (s : JsString) (finish : String) : Bool := (js finish).isSuffixOf s

/-- `String.prototype.includes`. -/
def includes (s : JsString) (part : String) : Bool := s.tails.any fun t => (js part).isPrefixOf t

/-- Parts of a string that may be absent, as `${part ?? ''}` writes them. -/
def signature (parts : List (Option JsNumber)) : JsString :=
  Json.join (js ":") (parts.map fun part => (part.map JsNumber.toJsString).getD [])

def sumDefined (first second : Option JsNumber) : Option JsNumber :=
  match first, second with
  | some a, some b => some (a + b)
  | _, _ => none

def sumOptional (first second : Option JsNumber) : Option JsNumber :=
  match first, second with
  | none, none => none
  | _, _ => some (first.getD (.ofInt 0) + second.getD (.ofInt 0))

def normalizeTimestamp (value : JsNumber) : JsNumber :=
  if value < .ofInt 10000000000 then value * .ofInt 1000 else value

/-! ## Stop reasons -/

def chatStopReason (reason : JsString) : CanonicalStopReason :=
  if reason = js "length" then .length
  else if reason = js "tool_calls" ∨ reason = js "function_call" then .toolCalls
  else if reason = js "content_filter" then .contentFilter
  else if reason = js "stop" then .stop
  else .other

def anthropicStopReason (reason : JsString) : CanonicalStopReason :=
  if reason = js "max_tokens" then .length
  else if reason = js "tool_use" then .toolCalls
  else if reason = js "end_turn" ∨ reason = js "stop_sequence" then .stop
  else if reason = js "refusal" then .contentFilter
  else .other

def geminiStopReason (reason : JsString) : CanonicalStopReason :=
  if reason = js "MAX_TOKENS" then .length
  else if reason = js "SAFETY" ∨ reason = js "RECITATION" ∨ reason = js "BLOCKLIST" ∨
    reason = js "PROHIBITED_CONTENT" then .contentFilter
  else if reason = js "STOP" then .stop
  else .other

def canonicalToChatStop : CanonicalStopReason → JsString
  | .length => js "length"
  | .toolCalls => js "tool_calls"
  | .contentFilter => js "content_filter"
  | _ => js "stop"

def canonicalToAnthropicStop : CanonicalStopReason → JsString
  | .length => js "max_tokens"
  | .toolCalls => js "tool_use"
  | .contentFilter => js "refusal"
  | _ => js "end_turn"

def canonicalToGeminiStop : CanonicalStopReason → JsString
  | .length => js "MAX_TOKENS"
  | .contentFilter => js "SAFETY"
  | _ => js "STOP"

/-! ## Recognized payloads -/

def responsesEventAdvancesProgress (type : JsString) : Bool :=
  [js "response.completed", js "response.incomplete", js "response.failed", js "response.error",
      js "error"].contains type ||
    ["response.output_", "response.content_part.", "response.reasoning", "response.refusal",
      "response.audio", "response.usage", "response.function_call", "response.custom_tool_call",
      "response.file_search_call", "response.web_search_call", "response.code_interpreter_call",
      "response.image_generation_call", "response.mcp_", "response.tool_"].any (startsWith type)

def responsesUsageProgressSignature (payload : JsonObject) : Option JsString := do
  let usage ← match objectValue (payload.prop "usage") with
    | some usage => some usage
    | none => objectProp (objectValue (payload.prop "response")) "usage"
  let inputDetails := objectValue (usage.prop "input_tokens_details")
  let outputDetails := objectValue (usage.prop "output_tokens_details")
  let values := [nonNegativeFiniteNumber (usage.prop "input_tokens"),
    nonNegativeFiniteNumber (usage.prop "output_tokens"),
    nonNegativeFiniteNumber (usage.prop "total_tokens"),
    nonNegativeFiniteNumber (inputDetails.bind (·.prop "cached_tokens")),
    nonNegativeFiniteNumber (outputDetails.bind (·.prop "reasoning_tokens"))]
  if values.all Option.isNone then none else some (signature values)

def recognizedResponsesPayload (type : JsString) (payload : JsonObject) : Bool :=
  let response := objectValue (payload.prop "response")
  if type = js "response.queued" then true
  else if type = js "response.created" ∨ type = js "response.in_progress" then response.isSome
  else if type = js "response.completed" ∨ type = js "response.incomplete" then
    response.any fun r => (r.prop "status").isNone || stringValue (r.prop "status") [] != []
  else if type = js "response.failed" then
    response.any fun r => (objectValue (r.prop "error")).isSome ||
      decide (r.prop "status" = some (.string (js "failed")))
  else if type = js "response.error" ∨ type = js "error" then
    (objectValue (payload.prop "error")).isSome || (optionalString (payload.prop "message")).isSome
  else if !responsesEventAdvancesProgress type then false
  else if startsWith type "response.usage" then (responsesUsageProgressSignature payload).isSome
  else if endsWith type ".delta" then (optionalString (payload.prop "delta")).isSome
  else if type = js "response.output_text.done" then (optionalString (payload.prop "text")).isSome
  else if type = js "response.refusal.done" then (optionalString (payload.prop "refusal")).isSome
  else if startsWith type "response.output_item." then (objectValue (payload.prop "item")).isSome
  else if startsWith type "response.content_part." then (objectValue (payload.prop "part")).isSome
  else if type = js "response.function_call_arguments.done" then
    (payload.prop "arguments").any fun v => match v with | .string _ => true | _ => false
  else if type = js "response.custom_tool_call_input.done" then
    (payload.prop "input").any fun v => match v with | .string _ => true | _ => false
  else
    (nonNegativeSafeInteger (payload.prop "output_index")).isSome ||
      (optionalString (payload.prop "item_id")).isSome ||
      (optionalString (payload.prop "call_id")).isSome ||
      (objectValue (payload.prop "item")).isSome || (objectValue (payload.prop "part")).isSome

/-- `ANTHROPIC_RECOGNIZED_EVENTS`. -/
def anthropicRecognizedEvents : List JsString :=
  [js "error", js "message_start", js "content_block_start", js "content_block_delta",
    js "content_block_stop", js "message_delta", js "message_stop"]

/-- The choices of index 0, which alone are read. -/
def selectedChoices (choices : List JsonObject) : List JsonObject :=
  choices.filter fun choice => (numberValue (choice.prop "index")).getD (.ofInt 0) == .ofInt 0

def recognizedProtocolPayload (protocol : Protocol) (eventName : Option JsString)
    (payload : JsonObject) : Bool :=
  match protocol with
  | .openaiResponses =>
    recognizedResponsesPayload (stringValue (payload.prop "type") (eventName.getD [])) payload
  | .openaiChat =>
    decide (eventName = some (js "error")) || truthy (payload.prop "error") ||
      !(selectedChoices (arrayOfObjects (payload.prop "choices"))).isEmpty ||
      (objectValue (payload.prop "usage")).isSome
  | .anthropicMessages =>
    anthropicRecognizedEvents.contains (stringValue (payload.prop "type") (eventName.getD []))
  | .gemini =>
    truthy (payload.prop "error") ||
      (payload.prop "candidates").any (fun v => match v with | .array _ => true | _ => false) ||
      (objectValue (nullish (payload.prop "usageMetadata") (payload.prop "usage_metadata"))).isSome ||
      (objectValue (nullish (payload.prop "promptFeedback") (payload.prop "prompt_feedback"))).isSome

end StonePlus.Streaming
