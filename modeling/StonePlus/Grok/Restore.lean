import StonePlus.Grok.Request

/-!
# StonePlus.Grok.Restore

`restoreXaiResponsesToolCalls` of `gateway/protocol.ts`: the calls of an answer
under the names of the client.
-/

namespace StonePlus.Grok

open Dsml Streaming Json

/-- `stringValue(call.call_id, stringValue(call.id))`. -/
def callIdOf (call : JsonObject) : JsString :=
  stringValue (call.prop "call_id") (stringValue (call.prop "id") [])

/-- The loop of `validateXaiResponseCallIds`. -/
def checkCallIds (path : String) (used : List JsString) (index : Nat) :
    List JsonObject → Except InvalidToolBridgeError Unit
  | [] => .ok ()
  | call :: calls =>
    let callId := callIdOf call
    if callId = [] then .error ⟨indexed path index ".call_id", js "tool call id is required"⟩
    else if callId ∈ used then
      .error ⟨indexed path index ".call_id", js "duplicate tool call id " ++ callId⟩
    else checkCallIds path (callId :: used) (index + 1) calls

/-- `validateXaiResponseCallIds`. -/
def validateXaiResponseCallIds (calls : List JsonObject) (plan : XaiToolBridgePlan) (path : String) :
    Except InvalidToolBridgeError Unit :=
  if plan.parallelToolCalls = some false ∧ 1 < calls.length then
    .error ⟨js path, js "upstream returned parallel tool calls when disabled"⟩
  else checkCallIds path (plan.calls.map ToolCallBridgeBinding.callId) 0 calls

/-- The input of a parsed wrapper. -/
def wrappedInput (path : JsString) (parsed : Option Json) : Except InvalidToolBridgeError JsString :=
  let invalid : Except InvalidToolBridgeError JsString :=
    .error ⟨path, js "custom arguments must be exactly \x7b input: string \x7d"⟩
  match objectValue parsed with
  | none => invalid
  | some fields =>
    match fields.prop "input" with
    | some (.string input) => if fields.any (·.1 != js "input") then invalid else .ok input
    | _ => invalid

def parseXaiCustomWrapper (value : Option Json) (path : JsString) :
    Except InvalidToolBridgeError JsString :=
  match value with
  | some (.string text) =>
    match parse text with
    | none => .error ⟨path, js "custom arguments are not valid JSON"⟩
    | some parsed => wrappedInput path (some parsed)
  | value => wrappedInput path value

/-- A restored function call. -/
def restoredFunctionCall (item : JsonObject) (binding : ToolBridgeBinding) (callId : JsString) :
    JsonObject :=
  let restored := assign (assign (remove item "namespace") "call_id" (.string callId)) "name"
    (.string binding.sourceName)
  match given binding.sourceNamespace with
  | some nameSpace => assign restored "namespace" (.string nameSpace)
  | none => restored

/-- A restored custom tool call. -/
def restoredCustomCall (item : JsonObject) (binding : ToolBridgeBinding) (callId input : JsString) :
    JsonObject :=
  let rest := remove (remove item "arguments") "namespace"
  assign (assign (assign (assign rest "type" (.string (js "custom_tool_call"))) "call_id"
    (.string callId)) "name" (.string binding.sourceName)) "input" (.string input)

/-- What the plan remembers of a restored call. -/
def restoredBinding (binding : ToolBridgeBinding) (callId : JsString) : ToolCallBridgeBinding where
  callId := callId
  sourceType := binding.sourceType
  sourceName := some binding.sourceName
  sourceNamespace := binding.sourceNamespace
  wireName := some binding.wireName

/-- One item of the output, with the calls of the plan. -/
def restoreItem (plan : XaiToolBridgePlan) (calls : List ToolCallBridgeBinding) (index : Nat)
    (item : JsonObject) :
    Except InvalidToolBridgeError (JsonObject × List ToolCallBridgeBinding) :=
  if typeOf item ≠ js "function_call" then .ok (item, calls)
  else
    match findXaiToolByWire plan.tools (nameOf item) with
    | none => .error ⟨indexed "output" index ".name", js "unknown tool alias " ++
        (if nameOf item = [] then js "<empty>" else nameOf item)⟩
    | some binding =>
      let callId := callIdOf item
      if callId = [] then
        .error ⟨indexed "output" index ".call_id", js "tool call id is required"⟩
      else do
        let calls ← rememberXaiCallBinding calls (restoredBinding binding callId)
        if binding.sourceType = .custom then do
          let input ← parseXaiCustomWrapper (item.prop "arguments")
            (indexed "output" index ".arguments")
          pure (restoredCustomCall item binding callId input, calls)
        else pure (restoredFunctionCall item binding callId, calls)

/-- The loop over the output. -/
def restoreItems (plan : XaiToolBridgePlan) (calls : List ToolCallBridgeBinding) (index : Nat) :
    List JsonObject → Except InvalidToolBridgeError (List JsonObject × List ToolCallBridgeBinding)
  | [] => .ok ([], calls)
  | item :: items => do
    let (restored, calls) ← restoreItem plan calls index item
    let (rest, calls) ← restoreItems plan calls (index + 1) items
    pure (restored :: rest, calls)

def isFunctionCall (item : JsonObject) : Bool := typeOf item == js "function_call"

/-- `restoreXaiResponsesToolCalls`: the answer, and the plan with its calls. -/
def restoreXaiResponsesToolCalls (body : JsonObject) (plan : XaiToolBridgePlan) :
    Except InvalidToolBridgeError (JsonObject × XaiToolBridgePlan) :=
  match body.prop "output" with
  | some (.array items) =>
    let sourceOutput := arrayOfObjects (some (.array items))
    match sourceOutput.findIdx? fun item => typeOf item == js "custom_tool_call" with
    | some index => .error ⟨indexed "output" index ".type",
        js "upstream returned an unbridged custom tool call"⟩
    | none => do
      validateXaiResponseCallIds (sourceOutput.filter isFunctionCall) plan "output"
      let (output, calls) ← restoreItems plan plan.calls 0 sourceOutput
      pure (assign body "output" (.array (output.map .object)), { plan with calls })
  | _ => .ok (body, plan)

end StonePlus.Grok
