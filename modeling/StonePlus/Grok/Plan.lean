import StonePlus.Dsml.Block
import StonePlus.Js.Json
import StonePlus.Js.Object
import StonePlus.Streaming.Values

/-!
# StonePlus.Grok.Plan

The names under which tools are sent to Grok: `safeXaiWireName`,
`xaiNamespaceWireName` and `makeXaiAlias` of `gateway/protocol.ts`.

SHA-256 is any function to 32 octets; nothing is assumed of it.
-/

namespace StonePlus.Grok

/-- `InvalidToolBridgeError`. -/
structure InvalidToolBridgeError where
  path : JsString
  reason : JsString
  deriving DecidableEq

/-- What a hash of 256 bits gives. -/
abbrev Digest := { octets : Bytes // octets.length = 32 }

/-- `digest('hex')`. -/
def Digest.hex (digest : Digest) : JsString :=
  digest.1.flatMap fun octet =>
    [Json.hexDigit (octet.toNat / 16), Json.hexDigit (octet.toNat % 16)]

/-- `[A-Za-z0-9_-]`. -/
def isWireUnit (c : UInt16) : Bool :=
  (0x41 ≤ c && c ≤ 0x5A) || (0x61 ≤ c && c ≤ 0x7A) || (0x30 ≤ c && c ≤ 0x39) || c == 0x5F ||
    c == 0x2D

def safeXaiWireName (name : JsString) : Bool :=
  decide (1 ≤ name.length) && decide (name.length ≤ 64) && name.all isWireUnit

/-! ## Slugs -/

/-- `replace(/[^A-Za-z0-9_-]+/g, '_')`; the flag says that the run before has
been replaced already. -/
def replaceUnsafeRuns (replaced : Bool) : JsString → JsString
  | [] => []
  | c :: cs =>
    if isWireUnit c then c :: replaceUnsafeRuns false cs
    else if replaced then replaceUnsafeRuns true cs
    else 0x5F :: replaceUnsafeRuns true cs

/-- `replace(/^_+|_+$/g, '')`. -/
def trimUnderscores (s : JsString) : JsString :=
  ((s.dropWhile (· == 0x5F)).reverse.dropWhile (· == 0x5F)).reverse

/-- The readable part of an alias. -/
def slug (name : JsString) : JsString :=
  let slug := (trimUnderscores (replaceUnsafeRuns false name)).take 30
  if slug = [] then js "tool" else slug

/-! ## Wire names -/

variable (sha256 : JsString → Digest)

def xaiNamespaceWireName (nameSpace name : JsString) : JsString :=
  let joined := nameSpace ++ js "__" ++ name
  if safeXaiWireName joined then joined
  else
    let digest := (sha256 (js "namespace:" ++ nameSpace ++ [0] ++ name)).hex.take 16
    (js "sp_ns_" ++ slug joined ++ js "_" ++ digest).take 64

/-- The alias with so much of the digest. -/
def aliasOf (kind : String) (sourceName : JsString) (length : Nat) : JsString :=
  (js "sp_" ++ js kind ++ js "_" ++ slug sourceName ++ js "_" ++
    (sha256 (js kind ++ js ":" ++ sourceName)).hex.take length).take 64

/-- `makeXaiAlias`: lengths from 12 to 64 in steps of 4. -/
def makeXaiAlias (kind : String) (sourceName : JsString) (used : List JsString) :
    Except InvalidToolBridgeError JsString :=
  let aliases := (List.range 14).map fun i => aliasOf sha256 kind sourceName (12 + 4 * i)
  match aliases.find? fun candidate => !used.contains candidate with
  | some candidate => .ok candidate
  | none => .error ⟨js "tools[].name",
      js "could not create a collision-free alias for " ++ sourceName⟩

/-! ## Their form -/

theorem safeXaiWireName_iff : safeXaiWireName name = true ↔
      1 ≤ name.length ∧ name.length ≤ 64 ∧ ∀ c ∈ name, isWireUnit c = true := by
  simp [safeXaiWireName, and_assoc]

theorem all_replaceUnsafeRuns (replaced : Bool) (s : JsString) :
    ∀ c ∈ replaceUnsafeRuns replaced s, isWireUnit c = true := by
  induction s generalizing replaced with
  | nil => simp [replaceUnsafeRuns]
  | cons c s ih =>
      unfold replaceUnsafeRuns
      split
      · next hc =>
        intro d hd
        rcases List.mem_cons.mp hd with rfl | hd
        · exact hc
        · exact ih false d hd
      · split
        · exact ih true
        · intro d hd
          rcases List.mem_cons.mp hd with rfl | hd
          · decide
          · exact ih true d hd

theorem all_slug (name : JsString) : ∀ c ∈ slug name, isWireUnit c = true := by
  unfold slug
  dsimp only
  split
  · exact List.all_eq_true.mp (by decide)
  · intro c hc
    have htrim := List.mem_of_mem_take hc
    rw [trimUnderscores, List.mem_reverse] at htrim
    have hdrop := (List.dropWhile_sublist _).mem htrim
    exact all_replaceUnsafeRuns false name c
      ((List.dropWhile_sublist _).mem (List.mem_reverse.mp hdrop))

theorem isWireUnit_hexDigit (h : n < 16) : isWireUnit (Json.hexDigit n) = true := by
  have hall : ∀ n < 16, isWireUnit (Json.hexDigit n) = true := by decide
  exact hall n h

theorem all_hex (digest : Digest) : ∀ c ∈ digest.hex, isWireUnit c = true := by
  intro c hc
  obtain ⟨octet, -, hc⟩ := List.mem_flatMap.mp hc
  have hlt := octet.toNat_lt
  rcases List.mem_cons.mp hc with rfl | hc
  · exact isWireUnit_hexDigit (by omega)
  · rw [List.mem_singleton.mp hc]
    exact isWireUnit_hexDigit (by omega)

/-- A name of at most 64 units, cut from safe parts. -/
theorem safe_take (hne : name ≠ []) (hall : ∀ c ∈ name, isWireUnit c = true) :
    safeXaiWireName (name.take 64) = true := by
  have hpos := List.length_pos_iff.mpr hne
  rw [safeXaiWireName_iff, List.length_take]
  exact ⟨by omega, by omega, fun c hc => hall c (List.mem_of_mem_take hc)⟩

theorem safe_xaiNamespaceWireName (nameSpace name : JsString) :
    safeXaiWireName (xaiNamespaceWireName sha256 nameSpace name) = true := by
  unfold xaiNamespaceWireName
  dsimp only
  split
  · next h => exact h
  · apply safe_take
    · simp [js]
    · intro c hc
      simp only [List.mem_append] at hc
      rcases hc with ((hc | hc) | hc) | hc
      · exact List.all_eq_true.mp (by decide) c hc
      · exact all_slug _ c hc
      · exact List.all_eq_true.mp (by decide) c hc
      · exact all_hex _ c (List.mem_of_mem_take hc)

theorem safe_aliasOf (hkind : ∀ c ∈ js kind, isWireUnit c = true) (sourceName : JsString)
    (length : Nat) : safeXaiWireName (aliasOf sha256 kind sourceName length) = true := by
  apply safe_take
  · simp [js]
  · intro c hc
    simp only [List.mem_append] at hc
    rcases hc with ((((hc | hc) | hc) | hc) | hc) | hc
    · exact List.all_eq_true.mp (by decide) c hc
    · exact hkind c hc
    · exact List.all_eq_true.mp (by decide) c hc
    · exact all_slug _ c hc
    · exact List.all_eq_true.mp (by decide) c hc
    · exact all_hex _ c (List.mem_of_mem_take hc)

/-- An alias is safe and new. -/
theorem makeXaiAlias_spec (hkind : ∀ c ∈ js kind, isWireUnit c = true)
    (h : makeXaiAlias sha256 kind sourceName used = .ok candidate) :
    safeXaiWireName candidate = true ∧ candidate ∉ used := by
  unfold makeXaiAlias at h
  dsimp only at h
  split at h
  · next found hfound =>
    cases h
    have hmem := List.mem_of_find?_eq_some hfound
    obtain ⟨i, -, rfl⟩ := List.mem_map.mp hmem
    exact ⟨safe_aliasOf sha256 hkind _ _, by simpa using List.find?_some hfound⟩
  · cases h

end StonePlus.Grok

/-!
## The plan

The request-scoped plan of the Grok tool bridge: `buildXaiToolBridgePlan` of
`gateway/protocol.ts` with the lookups in it.

A `Set` that is only asked for its members is the list of them.
-/

namespace StonePlus.Grok

open Dsml Streaming Json

/-- `ToolCallBridgeBinding`. -/
structure ToolCallBridgeBinding where
  callId : JsString
  sourceType : SourceType
  sourceName : Option JsString
  sourceNamespace : Option JsString
  wireName : Option JsString
  deriving DecidableEq

/-- What the bridge keeps in a `ToolBridgePlan`, whose dialect is `xai-grok`. -/
structure XaiToolBridgePlan where
  tools : List ToolBridgeBinding
  calls : List ToolCallBridgeBinding
  parallelToolCalls : Option Bool
  requiresResponseBridge : Bool
  deriving DecidableEq

structure XaiNamespaceBinding where
  nameSpace : JsString
  name : JsString
  wireName : JsString
  deriving DecidableEq

/-! ## Objects -/

/-- `object[key] = value`. -/
def assign (object : JsonObject) (key : String) (value : Json) : JsonObject :=
  setProperty (js key) value object

/-- `delete object[key]`. -/
def remove (object : JsonObject) (key : String) : JsonObject := deleteProperty (js key) object

/-- `stringValue(object.type)`. -/
def typeOf (object : JsonObject) : JsString := stringValue (object.prop "type") []

/-- `stringValue(object.name)`. -/
def nameOf (object : JsonObject) : JsString := stringValue (object.prop "name") []

/-- `typeof value === 'string'`. -/
def isStringValue : Option Json → Bool
  | some (.string _) => true
  | _ => false

/-- A path with an index, such as `tools[3].name`. -/
def indexed (before : String) (index : Nat) (after : String) : JsString :=
  js before ++ js "[" ++ natToString index ++ js "]" ++ js after

/-! ## Lookups -/

/-- `findXaiToolInPlan` finds this binding. -/
def answersTo (sourceType : SourceType) (sourceName : JsString) (binding : ToolBridgeBinding) : Bool :=
  binding.sourceType == sourceType &&
    (binding.sourceName == sourceName ||
      (binding.sourceNamespace.isSome && binding.wireName == sourceName))

def findXaiToolInPlan (tools : List ToolBridgeBinding) (sourceType : SourceType)
    (sourceName : JsString) : Option ToolBridgeBinding :=
  tools.find? (answersTo sourceType sourceName)

def findXaiToolByWire (tools : List ToolBridgeBinding) (wireName : JsString) :
    Option ToolBridgeBinding :=
  tools.find? fun binding => binding.wireName == wireName && binding.declared != some false

/-- A string that is there and not empty. -/
def given (value : Option JsString) : Option JsString := value.filter fun s => !s.isEmpty

/-- `rememberXaiCallBinding`. -/
def rememberXaiCallBinding (calls : List ToolCallBridgeBinding) (binding : ToolCallBridgeBinding) :
    Except InvalidToolBridgeError (List ToolCallBridgeBinding) :=
  match calls.find? fun call => call.callId == binding.callId with
  | none => .ok (calls ++ [binding])
  | some existing =>
    let differ (a b : Option JsString) : Bool := a.isSome && b.isSome && a != b
    if existing.sourceType ≠ binding.sourceType ∨
        differ (given existing.wireName) (given binding.wireName) = true ∨
        differ (given existing.sourceNamespace) (given binding.sourceNamespace) = true then
      .error ⟨js "input[].call_id",
        js "call id " ++ binding.callId ++ js " changes tool kind"⟩
    else
      let fill (a b : Option JsString) : Option JsString :=
        if (given a).isNone && (given b).isSome then b else a
      let filled : ToolCallBridgeBinding :=
        { existing with
          sourceName := fill existing.sourceName binding.sourceName
          sourceNamespace := fill existing.sourceNamespace binding.sourceNamespace
          wireName := fill existing.wireName binding.wireName }
      .ok (calls.map fun call => if call = existing then filled else call)

/-! ## Declarations -/

/-- The first loop: an empty declaration is rejected. -/
def checkDeclarations (index : Nat) : List JsonObject → Except InvalidToolBridgeError Unit
  | [] => .ok ()
  | tool :: tools =>
    if typeOf tool = [] ∧ tool = [] then
      .error ⟨indexed "tools" index "", js "empty tool declaration"⟩
    else checkDeclarations (index + 1) tools

/-- The loop that takes the names of the functions: the wire names in use. -/
def checkFunctionNames (functionNames used : List JsString) :
    List JsonObject → Except InvalidToolBridgeError (List JsString)
  | [] => .ok used
  | tool :: tools =>
    match optionalString (tool.prop "name") with
    | none => .error ⟨js "tools[].name", js "function name is required"⟩
    | some name =>
      if name ∈ functionNames then .error ⟨js "tools[].name", js "duplicate function " ++ name⟩
      else checkFunctionNames (name :: functionNames)
        (if safeXaiWireName name then name :: used else used) tools

section

variable (sha256 : JsString → Digest) (namespaces : JsMap JsString XaiNamespaceBinding)

/-- The wire name of a declared function. -/
def functionWireName (used : List JsString) (name : JsString) :
    Except InvalidToolBridgeError JsString :=
  match namespaces.get? name with
  | some found => .ok found.wireName
  | none => if safeXaiWireName name then .ok name else makeXaiAlias sha256 "fn" name used

/-- The binding of a declared function. -/
def functionBinding (name wireName : JsString) : ToolBridgeBinding where
  sourceType := .function
  sourceName := ((namespaces.get? name).map XaiNamespaceBinding.name).getD name
  sourceNamespace := (namespaces.get? name).map XaiNamespaceBinding.nameSpace
  wireName := wireName
  declared := some true

/-- The loop over the declared functions: their bindings, and the wire names in
use. -/
def bindFunctions (used : List JsString) :
    List JsonObject → Except InvalidToolBridgeError (List ToolBridgeBinding × List JsString)
  | [] => .ok ([], used)
  | tool :: tools => do
    let wireName ← functionWireName sha256 namespaces used (nameOf tool)
    let (bindings, used) ← bindFunctions (wireName :: used) tools
    pure (functionBinding namespaces (nameOf tool) wireName :: bindings, used)

/-- The binding of a declared custom tool. -/
def customBinding (name wireName : JsString) : ToolBridgeBinding where
  sourceType := .custom
  sourceName := name
  wireName := wireName
  declared := some true

/-- The loop over the declared custom tools. -/
def bindCustoms (customNames used : List JsString) :
    List JsonObject → Except InvalidToolBridgeError (List ToolBridgeBinding × List JsString)
  | [] => .ok ([], used)
  | tool :: tools =>
    match optionalString (tool.prop "name") with
    | none => .error ⟨js "tools[].name", js "custom tool name is required"⟩
    | some name =>
      if name ∈ customNames then .error ⟨js "tools[].name", js "duplicate custom tool " ++ name⟩
      else do
        let wireName ← makeXaiAlias sha256 "custom" name used
        let (bindings, used) ← bindCustoms (name :: customNames) (wireName :: used) tools
        pure (customBinding name wireName :: bindings, used)

/-! ## History -/

/-- What the loop over the input keeps. -/
structure History where
  tools : List ToolBridgeBinding
  calls : List ToolCallBridgeBinding
  used : List JsString
  seen : List JsString := []

/-- The wire name of a call that no declaration answers to. -/
def undeclaredWireName (used : List JsString) (index : Nat) (sourceType : SourceType)
    (sourceName : JsString) (sourceNamespace : Option JsString) :
    Except InvalidToolBridgeError JsString :=
  match sourceNamespace.map fun n => xaiNamespaceWireName sha256 n sourceName with
  | some wireName =>
    if wireName ∈ used then
      .error ⟨indexed "input" index ".name", js "namespace history collides with " ++ wireName⟩
    else .ok wireName
  | none =>
    if sourceType = .function ∧ safeXaiWireName sourceName = true ∧ sourceName ∉ used then
      .ok sourceName
    else makeXaiAlias sha256 (if sourceType = .custom then "custom" else "fn") sourceName used

/-- The binding of a call of the history: declared, or a new one. -/
def bindCall (history : History) (index : Nat) (sourceType : SourceType) (sourceName : JsString)
    (sourceNamespace : Option JsString) :
    Except InvalidToolBridgeError (ToolBridgeBinding × History) :=
  let found := match sourceNamespace with
    | some nameSpace => history.tools.find? fun candidate =>
      candidate.sourceType == sourceType && candidate.sourceName == sourceName &&
        candidate.sourceNamespace == some nameSpace
    | none => findXaiToolInPlan history.tools sourceType sourceName
  match found with
  | some binding => .ok (binding, history)
  | none => do
    let wireName ← undeclaredWireName sha256 history.used index sourceType sourceName sourceNamespace
    let binding : ToolBridgeBinding :=
      { sourceType, sourceName, sourceNamespace, wireName, declared := some false }
    pure (binding,
      { history with
        tools := history.tools ++ [binding]
        used := wireName :: history.used })

/-- A call of the history: its item under its wire name. -/
def recordCall (history : History) (index : Nat) (sourceType : SourceType) (callId : JsString)
    (item : JsonObject) : Except InvalidToolBridgeError (JsonObject × History) :=
  if callId ∈ history.seen then
    .error ⟨indexed "input" index ".call_id", js "duplicate tool call id " ++ callId⟩
  else
    match optionalString (item.prop "name") with
    | none => .error ⟨indexed "input" index ".name", js "tool name is required"⟩
    | some sourceName =>
      if sourceType = .custom ∧ isStringValue (item.prop "input") = false then
        .error ⟨indexed "input" index ".input", js "custom tool input must be a string"⟩
      else if sourceType = .function ∧ isStringValue (item.prop "arguments") = false then
        .error ⟨indexed "input" index ".arguments", js "function arguments must be a string"⟩
      else do
        let sourceNamespace :=
          if sourceType = .function then optionalString (item.prop "namespace") else none
        let (binding, history) ←
          bindCall sha256 { history with seen := callId :: history.seen } index sourceType sourceName
            sourceNamespace
        let calls ← rememberXaiCallBinding history.calls
          { callId, sourceType, sourceName := some binding.sourceName,
            sourceNamespace := binding.sourceNamespace, wireName := some binding.wireName }
        let item := if sourceNamespace.isSome then
            remove (assign item "name" (.string binding.wireName)) "namespace"
          else item
        pure (item, { history with calls })

/-- The kind of an item of the history. -/
def historyKind (type : JsString) : SourceType :=
  if startsWith type "custom_" then .custom else .function

/-- The body of the loop over the input. -/
def recordItem (history : History) (index : Nat) (item : JsonObject) :
    Except InvalidToolBridgeError (JsonObject × History) :=
  let type := typeOf item
  let isCall := type = js "function_call" ∨ type = js "custom_tool_call"
  let isOutput := type = js "custom_tool_call_output" ∨ type = js "function_call_output"
  if ¬(isCall ∨ isOutput) then .ok (item, history)
  else
    match (optionalString (item.prop "call_id")).or (optionalString (item.prop "id")) with
    | none => .error ⟨indexed "input" index ".call_id", js "tool call id is required"⟩
    | some callId =>
      if isCall then recordCall sha256 history index (historyKind type) callId item
      else
        match history.calls.find? fun call => call.callId == callId with
        | none => .error ⟨indexed "input" index ".call_id", js "orphan tool output " ++ callId⟩
        | some existing =>
          if existing.sourceType = historyKind type then .ok (item, history)
          else .error ⟨indexed "input" index ".type",
            js "tool output kind does not match call " ++ callId⟩

/-- The loop over the input, whose items are changed in place; the index counts
the objects. -/
def recordHistory (history : History) (index : Nat) :
    List Json → Except InvalidToolBridgeError (List Json × History)
  | [] => .ok ([], history)
  | .object item :: items => do
    let (item, history) ← recordItem sha256 history index item
    let (items, history) ← recordHistory history (index + 1) items
    pure (.object item :: items, history)
  | value :: items => do
    let (items, history) ← recordHistory history index items
    pure (value :: items, history)

/-! ## The plan -/

/-- The declarations of one type. -/
def declarations (type : String) (tools : List JsonObject) : List JsonObject :=
  tools.filter fun tool => typeOf tool == js type

/-- `buildXaiToolBridgePlan`: the plan, and the body with its history under wire
names. -/
def buildXaiToolBridgePlan (body : JsonObject) :
    Except InvalidToolBridgeError (XaiToolBridgePlan × JsonObject) := do
  let parallelToolCalls := match body.prop "parallel_tool_calls" with
    | some (.bool value) => some value
    | _ => none
  let tools := arrayOfObjects (body.prop "tools")
  checkDeclarations 0 tools
  let functions := declarations "function" tools
  let used ← checkFunctionNames [] [] functions
  let (functionBindings, used) ← bindFunctions sha256 namespaces used functions
  let (customBindings, used) ← bindCustoms sha256 [] used (declarations "custom" tools)
  let declared := functionBindings ++ customBindings
  let (input, history) ←
    recordHistory sha256 { tools := declared, calls := [], used } 0 (arrayValue (body.prop "input"))
  let body := match body.prop "input" with
    | some (.array _) => assign body "input" (.array input)
    | _ => body
  pure ({ tools := history.tools, calls := history.calls, parallelToolCalls,
          requiresResponseBridge := decide (0 < history.tools.length) }, body)

end

end StonePlus.Grok
