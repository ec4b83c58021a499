import StonePlus.Js.Json
import StonePlus.Lib.Search

/-!
# StonePlus.Dsml.Block

`gateway/deepseek-dsml.ts`: DeepSeek's DSML tool-call blocks and their
buffered parser `parseDeepSeekDsmlBlock`.

A cursor into a text is the text from it on.
-/

namespace StonePlus.Dsml

open Lib JsString

/-! ## Types -/

/-- The `sourceType` of a binding. -/
inductive SourceType
  | function | custom | toolSearch
  deriving DecidableEq

/-- `ToolBridgeBinding`. -/
structure ToolBridgeBinding where
  sourceType : SourceType
  sourceName : JsString
  sourceNamespace : Option JsString := none
  wireName : JsString
  deferredToolName : Option JsString := none
  declared : Option Bool := none
  deriving DecidableEq

/-- `ProtocolConversionDialect`. -/
inductive ProtocolConversionDialect
  | xaiGrok | deepseekChat | deepseekDsml
  deriving DecidableEq

/-- What the parsers read of a `ToolBridgePlan`. -/
structure ToolBridgePlan where
  dialect : ProtocolConversionDialect
  tools : List ToolBridgeBinding
  deferredExecSourceName : Option JsString := none

structure ParsedDeepSeekDsmlToolCall where
  binding : ToolBridgeBinding
  callId : JsString
  arguments : JsString
  deriving DecidableEq

/-- `ParsedDeepSeekDsmlBlock`, with its `prefix` as `before`. -/
structure ParsedDeepSeekDsmlBlock where
  before : JsString
  suffix : JsString
  calls : List ParsedDeepSeekDsmlToolCall
  deriving DecidableEq

structure DeepSeekDsmlError where
  code : JsString
  message : JsString
  deriving DecidableEq

/-- `new DeepSeekDsmlError(code, message)`. -/
def dsmlError (code : String) (message : JsString) : DeepSeekDsmlError := ⟨js code, message⟩

/-! ## Markers -/

/-- `DSML_TOKENS`. -/
def dsmlTokens : List JsString := [js "｜｜DSML｜｜", js "||DSML||", js "｜DSML｜", js "|DSML|"]

/-- `DEEPSEEK_DSML_START_MARKERS`. -/
def startMarkers : List JsString := dsmlTokens.map fun token => js "<" ++ token ++ js "tool_calls>"

/-- `DEEPSEEK_DSML_END_MARKERS`. -/
def endMarkers : List JsString := dsmlTokens.map fun token => js "</" ++ token ++ js "tool_calls>"

/-- `matchingEndMarker`. -/
def matchingEndMarker (startMarker : JsString) : JsString :=
  (endMarkers[startMarkers.idxOf startMarker]?).getD []

/-- `earliestMarker`. -/
def earliestMarker (text : JsString) (markers : List JsString) : Option (Nat × JsString) :=
  earliest markers text

/-- `containsDsmlStart`. -/
def containsDsmlStart (text : JsString) : Bool :=
  startMarkers.any fun marker => (indexOf? marker text).isSome

/-- The token in a start marker. -/
def markerToken (startMarker : JsString) : JsString :=
  (startMarker.take (startMarker.length - (js "tool_calls>").length)).drop 1

/-! ## Tool names -/

/-- `validateDeferredToolName`. -/
def validateDeferredToolName (name : JsString) : Except DeepSeekDsmlError Unit :=
  let containsControlCharacter := name.codePoints.any fun codePoint =>
    codePoint < 32 || codePoint == 127
  if name = [] ∨ 256 < name.length ∨ containsControlCharacter = true then
    .error (dsmlError "invalid_tool_name" (js "DeepSeek returned an invalid deferred tool name."))
  else .ok ()

def resolveDeepSeekToolBinding (plan : ToolBridgePlan) (name : JsString) :
    Except DeepSeekDsmlError (Option ToolBridgeBinding) :=
  match plan.tools.find? fun binding => binding.declared != some false && binding.wireName == name with
  | some declared => .ok (some declared)
  | none =>
    if plan.dialect ≠ .deepseekDsml ∧ plan.dialect ≠ .deepseekChat then .ok none
    else
      match plan.deferredExecSourceName with
      | none | some [] => .ok none
      | some sourceName => do
        validateDeferredToolName name
        .ok (some {
          sourceType := .custom
          sourceName := sourceName
          wireName := name
          deferredToolName := some name
          declared := some true })

/-! ## Arguments -/

/-- The prototype of an arguments object, which a parameter named `__proto__`
can change. -/
inductive Prototype
  | standard
  | null
  | value (v : Json)

/-- The arguments object being built. -/
structure Arguments where
  own : List (JsString × Json) := []
  prototype : Prototype := .standard

namespace Arguments

/-- Whether an assignment to `__proto__` reaches the accessor of
`Object.prototype`: it does not without that prototype, or when the prototype
in front of it has such a property. -/
def reachesAccessor : Prototype → Bool
  | .standard => true
  | .null => false
  | .value v => (v.get? (js "__proto__")).isNone

/-- The `__proto__` accessor: only objects and null become the prototype. -/
def setPrototype (args : Arguments) : Json → Arguments
  | .null => { args with prototype := .null }
  | .array items => { args with prototype := .value (.array items) }
  | .object entries => { args with prototype := .value (.object entries) }
  | _ => args

/-- `args[name] = value` for a name that is not an own property. -/
def assign (args : Arguments) (name : JsString) (value : Json) : Arguments :=
  if name = js "__proto__" ∧ reachesAccessor args.prototype = true then args.setPrototype value
  else { args with own := Json.setProperty name value args.own }

/-- `Object.hasOwn(args, name)`. -/
def hasOwn (args : Arguments) (name : JsString) : Bool := (Json.property? args.own name).isSome

/-- `args.input`, own or inherited. -/
def input (args : Arguments) : Option Json :=
  match Json.property? args.own (js "input"), args.prototype with
  | some value, _ => some value
  | none, .value v => v.get? (js "input")
  | none, _ => none

/-- `JSON.stringify(args)`. -/
def stringify (args : Arguments) : JsString := Json.stringify (.object args.own)

end Arguments

def deepSeekDeferredToolExecInput (name : JsString) (args : Arguments) :
    Except DeepSeekDsmlError JsString := do
  validateDeferredToolName name
  .ok (Json.join (js "\n") [
    js "const requestedName = " ++ Json.quote name ++ js ";",
    js "const normalizedName = requestedName.replaceAll('.', '__');",
    js "const availableTools = typeof ALL_TOOLS === 'undefined'",
    js "  ? Object.keys(tools).map((name) => (\x7b name \x7d))",
    js "  : ALL_TOOLS;",
    js "const exact = availableTools.find((entry) => entry.name === requestedName)",
    js "  ?? availableTools.find((entry) => entry.name === normalizedName);",
    js "const suffixMatches = exact ? [] : availableTools.filter((entry) => entry.name.endsWith('__' + requestedName));",
    js "if (!exact && suffixMatches.length !== 1) throw new Error('Deferred tool is unavailable or ambiguous: ' + requestedName);",
    js "const resolvedName = exact?.name ?? suffixMatches[0].name;",
    js "const deferredTool = tools[resolvedName];",
    js "if (typeof deferredTool !== 'function') throw new Error('Deferred tool is unavailable: ' + resolvedName);",
    js "const result = await deferredTool(" ++ args.stringify ++ js ");",
    js "text(typeof result === 'string' ? result : JSON.stringify(result));"])

/-- `normalizeCustomArguments`, as JSON text. -/
def normalizeCustomArguments (args : Arguments) (name : JsString) (binding : ToolBridgeBinding) :
    Except DeepSeekDsmlError JsString :=
  match binding.deferredToolName with
  | some (c :: deferredToolName) => do
    let input ← deepSeekDeferredToolExecInput (c :: deferredToolName) args
    .ok (Json.stringify (.object [(js "input", .string input)]))
  | _ =>
    match args.input with
    | some (.string _) =>
      if args.own.any fun entry => entry.1 ≠ js "input" then invalid else .ok args.stringify
    | _ => invalid
where
  invalid : Except DeepSeekDsmlError JsString :=
    .error (dsmlError "invalid_custom_tool_arguments" (js "DeepSeek custom tool " ++ name ++
      js " must provide exactly one string input parameter."))

/-- `parseJsonParameter`. -/
def parseJsonParameter (raw tool parameter : JsString) : Except DeepSeekDsmlError Json :=
  match Json.parse raw with
  | some value => .ok value
  | none => .error (dsmlError "invalid_parameter_json"
      (js "DeepSeek returned invalid JSON for " ++ tool ++ js "." ++ parameter ++ js "."))

/-! ## Tags -/

/-- `skipWhitespace`. -/
def skipWhitespace (text : JsString) : JsString := text.dropWhile isWhitespace

/-- The regular expression `\s+name="([^"]+)"` at the front of a text: the
value and the text behind it. -/
def attribute? (name : String) (text : JsString) : Option (JsString × JsString) :=
  let opening := js name ++ js "=\""
  let unindented := skipWhitespace text
  if unindented.length = text.length then none
  else if opening.isPrefixOf unindented then
    let quoted := unindented.drop opening.length
    match indexOf? (js "\"") quoted with
    | none | some 0 => none
    | some closing => some (quoted.take closing, quoted.drop (closing + 1))
  else none

/-- The name in the attributes of an invocation. -/
def invocationName? (attributes : JsString) : Option JsString := do
  let (name, rest) ← attribute? "name" attributes
  guard (rest.all isWhitespace)
  some name

/-- The name in the attributes of a parameter, and whether it is a string. -/
def parameterHeader? (attributes : JsString) : Option (JsString × Bool) := do
  let (name, rest) ← attribute? "name" attributes
  let (string, rest) ← attribute? "string" rest
  guard (rest.all isWhitespace ∧ (string = js "true" ∨ string = js "false"))
  some (name, string = js "true")

def invokeOpen (token : JsString) : JsString := js "<" ++ token ++ js "invoke"

def invokeClose (token : JsString) : JsString := js "</" ++ token ++ js "invoke>"

def parameterOpen (token : JsString) : JsString := js "<" ++ token ++ js "parameter"

def parameterClose (token : JsString) : JsString := js "</" ++ token ++ js "parameter>"

/-! ## Parameters -/

/-- The value of a parameter: its text, or the JSON value it is written as. -/
def parameterValue (raw tool name : JsString) (isString : Bool) : Except DeepSeekDsmlError Json :=
  if isString then .ok (.string raw) else parseJsonParameter raw tool name

/-- One parameter of a tool: the arguments with it, and the text behind it. -/
def parseParameter (token tool rest : JsString) (args : Arguments) :
    Except DeepSeekDsmlError (Arguments × JsString) :=
  if (parameterOpen token).isPrefixOf rest then
    let header := rest.drop (parameterOpen token).length
    match indexOf? (js ">") header with
    | none => truncated
    | some headerEnd =>
      match parameterHeader? (header.take headerEnd) with
      | none => .error (dsmlError "invalid_parameter"
          (js "DeepSeek returned an invalid parameter header for tool " ++ tool ++ js "."))
      | some (name, isString) =>
        if args.hasOwn name then
          .error (dsmlError "duplicate_parameter" (js "DeepSeek repeated parameter " ++ name ++
            js " for tool " ++ tool ++ js "."))
        else
          let content := header.drop (headerEnd + 1)
          match indexOf? (parameterClose token) content with
          | none => truncated
          | some closeIndex =>
            match parameterValue (content.take closeIndex) tool name isString with
            | .error e => .error e
            | .ok value => .ok (args.assign name value,
                content.drop (closeIndex + (parameterClose token).length))
  else
    .error (dsmlError "invalid_parameter"
      (js "DeepSeek returned malformed parameters for tool " ++ tool ++ js "."))
where
  truncated : Except DeepSeekDsmlError (Arguments × JsString) :=
    .error (dsmlError "truncated_dsml"
      (js "DeepSeek returned a truncated parameter for tool " ++ tool ++ js "."))

theorem length_skipWhitespace_le (text : JsString) :
    (skipWhitespace text).length ≤ text.length := List.length_dropWhile_le _ _

/-- A tag that a text begins with is not nothing. -/
theorem length_drop_lt {tag : JsString} (htag : 0 < tag.length) (h : tag.isPrefixOf rest = true)
    (n : Nat) : ((rest.drop tag.length).drop n).length < rest.length := by
  have hle := (List.isPrefixOf_iff_prefix.mp h).length_le
  rw [List.length_drop, List.length_drop]
  omega

theorem parameterOpen_pos (token : JsString) : 0 < (parameterOpen token).length := by
  simp [parameterOpen, js]

theorem invokeOpen_pos (token : JsString) : 0 < (invokeOpen token).length := by
  simp [invokeOpen, js]

theorem parseParameter_lt (h : parseParameter token tool rest args = .ok (args', rest')) :
    rest'.length < rest.length := by
  unfold parseParameter at h
  split at h
  · next hopen =>
      dsimp only at h
      split at h
      · cases h
      · next headerEnd _ =>
          split at h
          · cases h
          · split at h
            · cases h
            · split at h
              · cases h
              · split at h
                · cases h
                · cases h
                  rw [List.drop_drop]
                  exact length_drop_lt (parameterOpen_pos token) hopen _
  · cases h

/-- The parameters of a tool up to the end of its invocation. -/
def parseParameters (token tool rest : JsString) (args : Arguments) :
    Except DeepSeekDsmlError (Arguments × JsString) :=
  let rest := skipWhitespace rest
  if (invokeClose token).isPrefixOf rest then .ok (args, rest.drop (invokeClose token).length)
  else
    match _h : parseParameter token tool rest args with
    | .error e => .error e
    | .ok (args, rest) => parseParameters token tool rest args
termination_by rest.length
decreasing_by exact (parseParameter_lt _h).trans_le (length_skipWhitespace_le _)

theorem parseParameters_le (h : parseParameters token tool rest args = .ok (args', rest')) :
    rest'.length ≤ rest.length := by
  induction hsize : rest.length using Nat.strongRecOn generalizing rest args with
  | ind size ih =>
      subst hsize
      have hskip := length_skipWhitespace_le rest
      rw [parseParameters] at h
      split at h
      · cases h
        rw [List.length_drop]
        omega
      · split at h
        · cases h
        · next hparameter =>
            have hlt := parseParameter_lt hparameter
            exact (ih _ (hlt.trans_le hskip) h rfl).trans (hlt.le.trans hskip)

/-! ## Invocations -/

/-- The arguments of a tool call as JSON text. -/
def argumentsText (args : Arguments) (name : JsString) (binding : ToolBridgeBinding) :
    Except DeepSeekDsmlError JsString :=
  if binding.sourceType = .custom then normalizeCustomArguments args name binding
  else .ok args.stringify

/-- One invocation: the binding and the arguments of its tool, and the text
behind it. -/
def parseInvocation (plan : ToolBridgePlan) (token rest : JsString) :
    Except DeepSeekDsmlError ((ToolBridgeBinding × JsString) × JsString) :=
  if (invokeOpen token).isPrefixOf rest then
    let header := rest.drop (invokeOpen token).length
    match indexOf? (js ">") header with
    | none => .error (dsmlError "truncated_dsml"
        (js "DeepSeek returned a truncated DSML invocation."))
    | some openEnd =>
      match invocationName? (header.take openEnd) with
      | none => .error (dsmlError "invalid_tool_name"
          (js "DeepSeek returned an invalid DSML tool name."))
      | some name =>
        match resolveDeepSeekToolBinding plan name with
        | .error e => .error e
        | .ok none => .error (dsmlError "undeclared_tool"
            (js "DeepSeek attempted to call undeclared tool " ++ name ++ js "."))
        | .ok (some binding) =>
          match parseParameters token name (header.drop (openEnd + 1)) {} with
          | .error e => .error e
          | .ok (args, rest) =>
            match argumentsText args name binding with
            | .error e => .error e
            | .ok text => .ok ((binding, text), rest)
  else
    .error (dsmlError "invalid_dsml"
      (js "DeepSeek returned malformed content inside a DSML tool-call block."))

theorem parseInvocation_lt (h : parseInvocation plan token rest = .ok (call, rest')) :
    rest'.length < rest.length := by
  unfold parseInvocation at h
  split at h
  · next hopen =>
      dsimp only at h
      split at h
      · cases h
      · split at h
        · cases h
        · split at h
          · cases h
          · cases h
          · split at h
            · cases h
            · next hparameters =>
                split at h
                · cases h
                · cases h
                  exact (parseParameters_le hparameters).trans_lt
                    (length_drop_lt (invokeOpen_pos token) hopen _)
  · cases h

/-- The `callId` of a call. -/
def dsmlCallId (uuid : JsString) : JsString := js "call_dsml_" ++ uuid.filter (· != 0x2D)

/-- The loop of `parseInvocations` with the calls found so far; `randomUUID k`
is the value that `randomUUID` returns for call `k`. -/
def parseInvocations (randomUUID : Nat → JsString) (plan : ToolBridgePlan) (token rest : JsString)
    (calls : List ParsedDeepSeekDsmlToolCall) :
    Except DeepSeekDsmlError (List ParsedDeepSeekDsmlToolCall) :=
  let rest := skipWhitespace rest
  if rest = [] then .ok calls
  else
    match _h : parseInvocation plan token rest with
    | .error e => .error e
    | .ok (call, rest) => parseInvocations randomUUID plan token rest
        (calls ++ [⟨call.1, dsmlCallId (randomUUID calls.length), call.2⟩])
termination_by rest.length
decreasing_by exact (parseInvocation_lt _h).trans_le (length_skipWhitespace_le _)

/-! ## Blocks -/

/-- `text.indexOf(pattern, from)`. -/
def indexOfFrom? (pattern text : JsString) (start : Nat) : Option Nat :=
  (indexOf? pattern (text.drop start)).map (start + ·)

/-- `parseDeepSeekDsmlBlock`; `undefined` is `none`. -/
def parseDeepSeekDsmlBlock (randomUUID : Nat → JsString) (text : JsString) (plan : ToolBridgePlan) :
    Except DeepSeekDsmlError (Option ParsedDeepSeekDsmlBlock) :=
  match earliestMarker text startMarkers with
  | none => .ok none
  | some (index, marker) =>
    let endMarker := matchingEndMarker marker
    match indexOfFrom? endMarker text (index + marker.length) with
    | none => .error (dsmlError "truncated_dsml"
        (js "DeepSeek returned an incomplete DSML tool-call block."))
    | some endIndex =>
      let suffix := text.drop (endIndex + endMarker.length)
      if containsDsmlStart suffix then
        .error (dsmlError "multiple_dsml_blocks"
          (js "DeepSeek returned more than one DSML tool-call block."))
      else if trim suffix ≠ [] then
        .error (dsmlError "content_after_dsml"
          (js "DeepSeek returned unexpected content after its DSML tool calls."))
      else
        let body := (text.take endIndex).drop (index + marker.length)
        match parseInvocations randomUUID plan (markerToken marker) body [] with
        | .error e => .error e
        | .ok [] => .error (dsmlError "empty_dsml_block"
            (js "DeepSeek returned an empty DSML tool-call block."))
        | .ok calls => .ok (some ⟨text.take index, suffix, calls⟩)

end StonePlus.Dsml
