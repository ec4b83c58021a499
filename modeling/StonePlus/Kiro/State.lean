import StonePlus.Canonical
import StonePlus.Js.Str
import StonePlus.Kiro.Frame
import StonePlus.Kiro.Schema
import StonePlus.Lib.Effect
import StonePlus.Lib.Search

/-!
# StonePlus.Kiro.State

The filter of `gateway/kiro-event-stream.ts` that removes `<thinking>`
sections from streamed text.  A tag may be split between two deltas, so the
longest suffix that may still become the tag is held back.
-/

namespace StonePlus.Kiro

/-- What a delta yields: the visible text, and whether hidden text went by. -/
structure Filtered where
  text : JsString
  reasoningAdvanced : Bool

structure ThinkingTagFilter where
  inside : Bool := false
  pending : JsString := []
  deriving DecidableEq

/-- The tag that ends the current section. -/
def tag (inside : Bool) : JsString := if inside then js "</thinking>" else js "<thinking>"

theorem length_tag_pos (inside : Bool) : 0 < (tag inside).length := by
  cases inside <;> decide

/-- `longestMarkerPrefixSuffix`: the longest proper prefix of the marker the
value ends with. -/
def longestMarkerPrefixSuffix (value marker : JsString) : Nat :=
  Lib.longestSuffix (fun suffix => suffix = marker.take suffix.length) value
    (min value.length (marker.length - 1))

namespace ThinkingTagFilter

/-- The loop of `push` over the input not yet looked at. -/
def consume (inside : Bool) (input : JsString) : Filtered × ThinkingTagFilter :=
  if _hinput : input = [] then (⟨[], false⟩, ⟨inside, []⟩)
  else
    match Lib.indexOf? (tag inside) input with
    | some markerIndex =>
      let before := input.take markerIndex
      let rest := consume (!inside) (input.drop (markerIndex + (tag inside).length))
      if inside then
        (⟨rest.1.text, before.length != 0 || rest.1.reasoningAdvanced⟩, rest.2)
      else (⟨before ++ rest.1.text, rest.1.reasoningAdvanced⟩, rest.2)
    | none =>
      let ready := input.length - longestMarkerPrefixSuffix input (tag inside)
      if inside then (⟨[], ready != 0⟩, ⟨inside, input.drop ready⟩)
      else (⟨input.take ready, false⟩, ⟨inside, input.drop ready⟩)
termination_by input.length
decreasing_by
  have := List.length_pos_of_ne_nil _hinput
  have := length_tag_pos inside
  rw [List.length_drop]
  omega

/-- `push(delta)`. -/
def push (f : ThinkingTagFilter) (delta : JsString) : Filtered × ThinkingTagFilter :=
  consume f.inside (f.pending ++ delta)

/-- `finish()`. -/
def finish (f : ThinkingTagFilter) : Filtered × ThinkingTagFilter :=
  (if f.inside then ⟨[], f.pending.length != 0⟩ else ⟨f.pending, false⟩, { f with pending := [] })

end ThinkingTagFilter

end StonePlus.Kiro

/-!
## The state

The options, the fields and the small helpers of `KiroEventStreamParser`.

`this.events` is the output of a handler: it is empty between two calls of
the parser, only ever appended to, and returned at the end of each call.
-/

namespace StonePlus.Kiro

/-! ## Options -/

/-- `KiroDeclaredTool`. -/
structure KiroDeclaredTool where
  name : JsString
  inputSchema : Json

/-- `KiroEventStreamOptions`. -/
structure KiroEventStreamOptions where
  declaredToolNames : List JsString := []
  declaredTools : List KiroDeclaredTool := []
  maxFrameBytes : Option JsNumber := none
  maxCumulativeTextCharacters : Option JsNumber := none
  maxToolCount : Option JsNumber := none
  maxTotalToolInputBytes : Option JsNumber := none
  maxActiveToolCount : Option JsNumber := none
  maxPendingToolCount : Option JsNumber := none
  maxCompletedToolCount : Option JsNumber := none

/-- The parser's read-only fields, and the regular expression engine. -/
structure KiroConfig where
  regExps : RegExps
  declaredToolNames : List JsString
  declaredToolSchemas : JsMap JsString Json
  maxFrameBytes : Nat
  maxCumulativeTextCharacters : Nat
  maxToolCount : Nat
  maxTotalToolInputBytes : Nat
  maxActiveToolCount : Nat
  maxPendingToolCount : Nat
  maxCompletedToolCount : Nat

/-- `normalizeLimit`; a RangeError is its message. -/
def normalizeLimit (value : Option JsNumber) (fallback minimum : Nat) (name : String) :
    Except JsString Nat :=
  match value with
  | none => .ok fallback
  | some value =>
    match if value.isSafeInteger then value.toNat? else none with
    | some n => if n < minimum then tooSmall else .ok n
    | none => tooSmall
where
  tooSmall : Except JsString Nat := .error (js name ++
    js " must be a safe integer greater than or equal to " ++ natToString minimum)

/-- The constructor's loop over the declared tools. -/
def declareTools (names : List JsString) (schemas : JsMap JsString Json) :
    List KiroDeclaredTool → Except JsString (List JsString × JsMap JsString Json)
  | [] => .ok (names, schemas)
  | entry :: rest =>
    if entry.name = [] then .error (js "declaredTools entries must have a non-empty name")
    else if !entry.inputSchema.isJsonObject then
      .error (js "declaredTools schema for " ++ Json.quote entry.name ++ js " must be an object")
    else if schemas.has entry.name then
      .error (js "declaredTools contains duplicate name " ++ Json.quote entry.name)
    else declareTools (names ++ [entry.name]) (schemas.set entry.name entry.inputSchema) rest

/-- The constructor; an exception is its message. -/
def KiroConfig.create (regExps : RegExps) (options : KiroEventStreamOptions) :
    Except JsString KiroConfig := do
  let (names, schemas) ← declareTools options.declaredToolNames ∅ options.declaredTools
  let maxFrameBytes ←
    normalizeLimit options.maxFrameBytes (4 * 1024 * 1024) minFrameBytes "maxFrameBytes"
  let maxCumulativeTextCharacters ←
    normalizeLimit options.maxCumulativeTextCharacters (16 * 1024 * 1024) 1
      "maxCumulativeTextCharacters"
  let maxToolCount ← normalizeLimit options.maxToolCount 128 1 "maxToolCount"
  let maxTotalToolInputBytes ←
    normalizeLimit options.maxTotalToolInputBytes (4 * 1024 * 1024) 1 "maxTotalToolInputBytes"
  let maxActiveToolCount ← normalizeLimit options.maxActiveToolCount 64 1 "maxActiveToolCount"
  let maxPendingToolCount ← normalizeLimit options.maxPendingToolCount 64 1 "maxPendingToolCount"
  let maxCompletedToolCount ←
    normalizeLimit options.maxCompletedToolCount 128 1 "maxCompletedToolCount"
  .ok ⟨regExps, names, schemas, maxFrameBytes, maxCumulativeTextCharacters, maxToolCount,
    maxTotalToolInputBytes, maxActiveToolCount, maxPendingToolCount, maxCompletedToolCount⟩

/-! ## Fields -/

/-- `KiroEventStreamDiagnostics`. -/
structure KiroEventStreamDiagnostics where
  recognizedEventCount : Nat := 0
  assistantResponseEventCount : Nat := 0
  reasoningEventCount : Nat := 0
  toolUseEventCount : Nat := 0
  completedToolUseCount : Nat := 0
  usageEventCount : Nat := 0
  structuralRecoveryCount : Nat := 0
  conversationId : Option JsString := none
  utteranceId : Option JsString := none
  invalidStateReason : Option JsString := none
  deriving DecidableEq

inductive InputMode
  | fragments | object
  deriving DecidableEq

structure ToolState where
  index : Nat
  id : JsString
  name : Option JsString := none
  inputParts : List JsString := []
  inputCharacters : Nat := 0
  inputMode : Option InputMode := none
  deriving DecidableEq

structure CompletedToolState where
  index : Nat
  id : JsString
  name : JsString
  arguments : JsString
  deriving DecidableEq

/-- The mutable fields a frame can change, that is all but the byte queue,
`failed` and `finished`. -/
structure KiroState where
  tools : JsMap JsString ToolState := ∅
  completedTools : JsMap Nat CompletedToolState := ∅
  completedToolIds : List JsString := []
  thinkingTagFilter : ThinkingTagFilter := {}
  diagnostics : KiroEventStreamDiagnostics := {}
  lastAssistantContent : JsString := []
  lastReasoningContent : JsString := []
  nextToolIndex : Nat := 0
  nextToolIndexToEmit : Nat := 0
  totalToolInputBytes : Nat := 0
  sawFrame : Bool := false
  sawCompletedTool : Bool := false
  deriving DecidableEq

/-- A method that reads and writes the fields, appends events and may throw. -/
abbrev Handler := Lib.Effect KiroState CanonicalStreamEvent Thrown

/-! ## Payload fields -/

/-- `requiredStringAllowEmpty`. -/
def requiredStringAllowEmpty (value : Option Json) (path : String) : Except Thrown JsString :=
  match value with
  | some (.string s) => .ok s
  | _ => .error (failure "kiro_event_stream_field_required" (js path ++ js " must be a string"))

/-- `requiredString`. -/
def requiredString (value : Option Json) (path : String) : Except Thrown JsString :=
  match value with
  | some (.string (c :: s)) => .ok (c :: s)
  | _ =>
    .error (failure "kiro_event_stream_field_required" (js path ++ js " must be a non-empty string"))

/-- `optionalString`. -/
def optionalString (value : Option Json) : Option JsString :=
  match value with
  | some (.string (c :: s)) => some (c :: s)
  | _ => none

/-- `requiredObject`. -/
def requiredObject (value : Option Json) (path : String) : Except Thrown Json :=
  match value with
  | some (.object entries) => .ok (.object entries)
  | _ => .error (failure "kiro_event_stream_field_required" (js path ++ js " must be a JSON object"))

/-- `optionalTokenCount`. -/
def optionalTokenCount (value : Option Json) (path : String) : Except Thrown (Option JsNumber) :=
  let invalid := .error (failure "kiro_usage_invalid"
    (js "Kiro usage field " ++ js path ++ js " must be a non-negative integer"))
  match value with
  | none => .ok none
  | some (.number n) =>
    if n.isSafeInteger && !decide (n < JsNumber.ofInt 0) then .ok (some n) else invalid
  | some _ => invalid

/-- `sumDefined`. -/
def sumDefined (values : List (Option JsNumber)) : Option JsNumber :=
  match values.filterMap id with
  | [] => none
  | present => some (present.foldl (fun sum (value : JsNumber) => sum + value) (JsNumber.ofInt 0))

/-- `cumulativeDelta`. -/
def cumulativeDelta (next previous : JsString) (label : String) : Except Thrown JsString :=
  if previous = [] then .ok next
  else if next = previous then .ok []
  else if previous <+: next then .ok (next.drop previous.length)
  else .error (failure "kiro_cumulative_content_invalid"
    (js "Kiro " ++ js label ++ js " was not an append-only cumulative snapshot"))

/-- `parseJsonObject`. -/
def parseJsonObject (payload : Bytes) (eventType : JsString) : Except Thrown Json := do
  let text ← decodeUtf8 payload (eventType ++ js " payload")
  match Json.parse text with
  | none => .error (failureAs "invalid_json" "kiro_event_stream_invalid_json"
      (js "Kiro " ++ eventType ++ js " payload is not valid JSON"))
  | some (.object entries) => .ok (.object entries)
  | some _ => .error (failure "kiro_event_stream_invalid_payload"
      (js "Kiro " ++ eventType ++ js " payload must be a JSON object"))

/-- `parseToolInput`. -/
def parseToolInput (value id : JsString) : Except Thrown (List (JsString × Json)) :=
  match Json.parse value with
  | none => .error (failure "kiro_tool_input_json"
      (js "Kiro tool " ++ Json.quote id ++ js " completed with invalid JSON input"))
  | some (.object entries) => .ok entries
  | some _ => .error (failure "kiro_tool_input_shape"
      (js "Kiro tool " ++ Json.quote id ++ js " input must decode to a JSON object"))

/-- `isJsonContentType`. -/
def isJsonContentType (value : JsString) : Bool :=
  let mediaType := toLowerCase (JsString.trim (value.takeWhile (· != 0x3B)))
  mediaType = js "application/json" || js "+json" <:+ mediaType

end StonePlus.Kiro
