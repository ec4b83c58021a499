import StonePlus.Grok.Plan

/-!
# StonePlus.Grok.Source

`prepareXaiResponsesSource` of `gateway/protocol.ts`: the additional tools of
the input become tools, namespaces are flattened into functions, and the plan is
built.
-/

namespace StonePlus.Grok

open Dsml Streaming Json

/-! ## Additional tools -/

def xaiToolDedupKey (tool : JsonObject) : JsString :=
  let type := typeOf tool
  match given (some type), optionalString (tool.prop "name") with
  | some type, some name => type ++ [0] ++ name
  | _, _ =>
    if type = js "mcp" then
      match optionalString (tool.prop "server_label") with
      | some label => js "mcp" ++ [0] ++ label
      | none => stringify (.object tool)
    else stringify (.object tool)

/-- The loop over the tools of an item: the tools that are new, and the keys
seen. -/
def promoteTools (seen : List JsString) : List JsonObject → List JsonObject × List JsString
  | [] => ([], seen)
  | tool :: tools =>
    let key := xaiToolDedupKey tool
    if key ∈ seen then promoteTools seen tools
    else
      let rest := promoteTools (key :: seen) tools
      (tool :: rest.1, rest.2)

def isAdditionalTools (item : JsonObject) : Bool := typeOf item == js "additional_tools"

/-- `promoteXaiAdditionalTools`. -/
def promoteXaiAdditionalTools (body : JsonObject) : JsonObject :=
  match body.prop "input" with
  | some (.array items) =>
    let input := arrayOfObjects (some (.array items))
    if input.any isAdditionalTools then
      let tools := arrayOfObjects (body.prop "tools")
      let additional := (input.filter isAdditionalTools).flatMap fun item =>
        arrayOfObjects (item.prop "tools")
      let promoted := tools ++ (promoteTools (tools.map xaiToolDedupKey) additional).1
      let filteredInput := input.filter fun item => !isAdditionalTools item
      let body := assign body "input" (.array (filteredInput.map .object))
      if promoted = [] then body else assign body "tools" (.array (promoted.map .object))
    else body
  | _ => body

/-! ## Calls under namespaces -/

/-- `rewriteXaiNamespaceCall`. -/
def rewriteXaiNamespaceCall (namespaces : JsMap JsString XaiNamespaceBinding) (item : JsonObject) :
    JsonObject :=
  match optionalString (item.prop "namespace"), optionalString (item.prop "name") with
  | some nameSpace, some name =>
    match namespaces.values.find? fun b => b.nameSpace == nameSpace && b.name == name with
    | some found => remove (assign item "name" (.string found.wireName)) "namespace"
    | none => item
  | _, _ => item

mutual

/-- `rewriteXaiNamespaceCalls`.  A call is rewritten after the values in it: it
only changes strings, which hold no calls. -/
def rewriteXaiNamespaceCalls (namespaces : JsMap JsString XaiNamespaceBinding) : Json → Json
  | .array items => .array (rewriteItems namespaces items)
  | .object entries =>
    let rewritten := rewriteEntries namespaces entries
    .object (if typeOf entries = js "function_call" then rewriteXaiNamespaceCall namespaces rewritten
      else rewritten)
  | .null => .null
  | .bool value => .bool value
  | .number value => .number value
  | .string value => .string value

def rewriteItems (namespaces : JsMap JsString XaiNamespaceBinding) : List Json → List Json
  | [] => []
  | value :: values => rewriteXaiNamespaceCalls namespaces value :: rewriteItems namespaces values

def rewriteEntries (namespaces : JsMap JsString XaiNamespaceBinding) : JsonObject → JsonObject
  | [] => []
  | (key, value) :: entries =>
    (key, rewriteXaiNamespaceCalls namespaces value) :: rewriteEntries namespaces entries

end

/-! ## Namespaces -/

def isNamespace (tool : JsonObject) : Bool := typeOf tool == js "namespace"

/-- A tool that is bridged: a function or a custom tool. -/
def isBridged (tool : JsonObject) : Bool :=
  typeOf tool == js "function" || typeOf tool == js "custom"

/-- The names of the bridged tools. -/
def occupiedNames (tools : List JsonObject) : List JsString :=
  (tools.filter isBridged).filterMap fun tool => optionalString (tool.prop "name")

section

variable (sha256 : JsString → Digest)

/-- The loop over the children of a namespace: the functions it declares under
their wire names, and the namespaces. -/
def flattenChildren (occupied : List JsString) (toolIndex : Nat) (nameSpace : JsString)
    (namespaces : JsMap JsString XaiNamespaceBinding) (childIndex : Nat) :
    List JsonObject →
    Except InvalidToolBridgeError (List JsonObject × JsMap JsString XaiNamespaceBinding)
  | [] => .ok ([], namespaces)
  | child :: children =>
    if typeOf child ≠ js "function" then
      flattenChildren occupied toolIndex nameSpace namespaces (childIndex + 1) children
    else
      match optionalString (child.prop "name") with
      | none => flattenChildren occupied toolIndex nameSpace namespaces (childIndex + 1) children
      | some name =>
        let wireName := xaiNamespaceWireName sha256 nameSpace name
        let existing := namespaces.get? wireName
        if wireName ∈ occupied ∨ existing.any fun b => b.nameSpace ≠ nameSpace ∨ b.name ≠ name then
          .error ⟨indexed "tools" toolIndex "" ++ indexed ".tools" childIndex ".name",
            js "namespace tool " ++ nameSpace ++ js "/" ++ name ++ js " collides with " ++ wireName⟩
        else if existing.isSome then
          flattenChildren occupied toolIndex nameSpace namespaces (childIndex + 1) children
        else do
          let (flattened, namespaces) ← flattenChildren occupied toolIndex nameSpace
            (namespaces.set wireName ⟨nameSpace, name, wireName⟩) (childIndex + 1) children
          let tool := assign (assign child "type" (.string (js "function"))) "name"
            (.string wireName)
          pure (tool :: flattened, namespaces)

/-- `tool.tools ?? tool.children`. -/
def childrenOf (tool : JsonObject) : List JsonObject :=
  arrayOfObjects (nullish (tool.prop "tools") (tool.prop "children"))

/-- The loop over the tools. -/
def flattenTools (occupied : List JsString) (namespaces : JsMap JsString XaiNamespaceBinding)
    (toolIndex : Nat) : List JsonObject →
    Except InvalidToolBridgeError (List JsonObject × JsMap JsString XaiNamespaceBinding)
  | [] => .ok ([], namespaces)
  | tool :: tools =>
    if isNamespace tool then
      match optionalString (tool.prop "name") with
      | none => flattenTools occupied namespaces (toolIndex + 1) tools
      | some nameSpace => do
        let (children, namespaces) ←
          flattenChildren sha256 occupied toolIndex nameSpace namespaces 0 (childrenOf tool)
        let (rest, namespaces) ← flattenTools occupied namespaces (toolIndex + 1) tools
        pure (children ++ rest, namespaces)
    else do
      let (rest, namespaces) ← flattenTools occupied namespaces (toolIndex + 1) tools
      pure (tool :: rest, namespaces)

/-- The tool choice of a body with namespaces. -/
def rewriteToolChoice (namespaces : JsMap JsString XaiNamespaceBinding) (body : JsonObject) :
    JsonObject :=
  match objectValue (body.prop "tool_choice") with
  | none => body
  | some choice =>
    if typeOf choice = js "namespace" then assign body "tool_choice" (.string (js "auto"))
    else assign body "tool_choice" (.object (rewriteXaiNamespaceCall namespaces choice))

/-- `flattenXaiNamespaceTools`: the body and its namespaces. -/
def flattenXaiNamespaceTools (body : JsonObject) :
    Except InvalidToolBridgeError (JsonObject × JsMap JsString XaiNamespaceBinding) :=
  let sourceTools := arrayOfObjects (body.prop "tools")
  if sourceTools.any isNamespace then do
    let (flattened, namespaces) ← flattenTools sha256 (occupiedNames sourceTools) ∅ 0 sourceTools
    let body := assign body "tools" (.array (flattened.map .object))
    let body := match body.prop "input" with
      | none => body
      | some input => assign body "input" (rewriteXaiNamespaceCalls namespaces input)
    pure (rewriteToolChoice namespaces body, namespaces)
  else .ok (body, ∅)

/-- `prepareXaiResponsesSource`: the body and the plan of its context. -/
def prepareXaiResponsesSource (body : JsonObject) :
    Except InvalidToolBridgeError (JsonObject × XaiToolBridgePlan) := do
  let (prepared, namespaces) ← flattenXaiNamespaceTools sha256 (promoteXaiAdditionalTools body)
  let (plan, prepared) ← buildXaiToolBridgePlan sha256 namespaces prepared
  pure (prepared, plan)

end

end StonePlus.Grok
