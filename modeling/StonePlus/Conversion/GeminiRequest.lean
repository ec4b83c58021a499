import StonePlus.Streaming.EncoderState

/-!
# StonePlus.Conversion.GeminiRequest

Gemini requests: what `geminiRequestToChat`, `geminiRequestToResponses` and
`geminiRequestToAnthropic` make of `contents`.

The three keep the same two local variables, by which responses find the ids of their calls.
-/

namespace StonePlus.Conversion

open Streaming

/-! ## Values -/

/-- `InvalidToolArgumentsError`. -/
structure InvalidToolArgumentsError where
  path : JsString
  deriving DecidableEq

def parseJsonObject (value : Option Json) (path : String) :
    Except InvalidToolArgumentsError JsonObject :=
  match value with
  | none => .ok []
  | some (.object entries) => .ok entries
  | some (.string text) =>
    match objectValue (Json.parse text) with
    | some parsed => .ok parsed
    | none => .error ⟨js path⟩
  | some _ => .error ⟨js path⟩

/-- `jsonString(value ?? {})`. -/
def jsonStringOrEmpty (value : Option Json) : JsString :=
  Json.stringify ((nullish value (some (.object []))).getD .null)

def isMimeCharacter (c : UInt16) : Bool :=
  (0x61 ≤ c && c ≤ 0x7A) || (0x41 ≤ c && c ≤ 0x5A) || (0x30 ≤ c && c ≤ 0x39) || c == 0x2E ||
    c == 0x2B || c == 0x2D

def isBase64Character (c : UInt16) : Bool :=
  (0x61 ≤ c && c ≤ 0x7A) || (0x41 ≤ c && c ≤ 0x5A) || (0x30 ≤ c && c ≤ 0x39) || c == 0x2B ||
    c == 0x2F || c == 0x3D || c == 0x0D || c == 0x0A

/-- The rest of a text after words in any case. -/
def afterWord (word : String) (text : JsString) : Option JsString :=
  if toLowerCase (text.take word.length) = js word then some (text.drop word.length) else none

/-- `parseImageDataUrl`: the MIME type and the data. -/
def parseImageDataUrl (url : JsString) : Option (JsString × JsString) := do
  let typed ← afterWord "data:" url
  let subtype ← afterWord "image/" typed
  let name := subtype.takeWhile isMimeCharacter
  let data ← afterWord ";base64," (subtype.dropWhile isMimeCharacter)
  if name = [] ∨ data = [] ∨ ¬data.all isBase64Character then none
  else some (typed.take 6 ++ name, data.filter fun c => c ≠ 0x0D ∧ c ≠ 0x0A)

def imageUrlToAnthropic (url : JsString) : JsonObject :=
  match parseImageDataUrl url with
  | some (mimeType, data) =>
    omitUndefined [("type", literal "image"), ("source", some (.object (omitUndefined
      [("type", literal "base64"), ("media_type", some (.string mimeType)),
        ("data", some (.string data))])))]
  | none =>
    omitUndefined [("type", literal "image"), ("source", some (.object (omitUndefined
      [("type", literal "url"), ("url", some (.string url))])))]

/-! ## Parts -/

def geminiPartsToText (parts : List JsonObject) : JsString :=
  parts.flatMap fun part => stringValue (part.prop "text") []

def geminiImagePartToUrl (part : JsonObject) : Option JsString :=
  match (objectValue (part.prop "inlineData")).or (objectValue (part.prop "inline_data")) with
  | some inlined =>
    (optionalString (inlined.prop "data")).map fun data =>
      js "data:" ++ (optionalString (nullish (inlined.prop "mimeType")
        (inlined.prop "mime_type"))).getD (js "image/png") ++ js ";base64," ++ data
  | none =>
    let file := (objectValue (part.prop "fileData")).or (objectValue (part.prop "file_data"))
    optionalString (nullish (file.bind (·.prop "fileUri")) (file.bind (·.prop "file_uri")))

def partCall (part : JsonObject) : Option JsonObject :=
  (objectValue (part.prop "functionCall")).or (objectValue (part.prop "function_call"))

def partResponse (part : JsonObject) : Option JsonObject :=
  (objectValue (part.prop "functionResponse")).or (objectValue (part.prop "function_response"))

/-- `geminiFunctionResponseToChat` and its two copies. -/
def geminiFunctionResponseToText (value : Option Json) : JsString :=
  match value with
  | some (.string text) => text
  | value => jsonStringOrEmpty value

/-! ## Ids -/

/-- The local variables that pair responses with calls. -/
structure Pairing where
  pendingCallIds : JsMap JsString (List JsString) := ∅
  generatedCallId : Nat := 0

def generatedId (n : Nat) : JsString := js "call_gemini_" ++ natToString n

namespace Pairing

/-- The ids of a name that wait for a response. -/
def queuedIds (p : Pairing) (name : JsString) : List JsString :=
  (p.pendingCallIds.get? name).getD []

/-- The id of a call, which is queued under its name. -/
def callId (p : Pairing) (name : JsString) (explicitId : Option JsString) : JsString × Pairing :=
  match explicitId with
  | some id =>
    (id, { p with pendingCallIds := p.pendingCallIds.set name (p.queuedIds name ++ [id]) })
  | none =>
    let id := generatedId (p.generatedCallId + 1)
    (id, { pendingCallIds := p.pendingCallIds.set name (p.queuedIds name ++ [id])
           generatedCallId := p.generatedCallId + 1 })

/-- The id of a response: its own, or the first one queued under its name. -/
def responseId (p : Pairing) (name : JsString) (explicitId : Option JsString) :
    JsString × Pairing :=
  match explicitId with
  | some id =>
    (id, { p with pendingCallIds := p.pendingCallIds.set name ((p.queuedIds name).erase id) })
  | none =>
    match p.queuedIds name with
    | id :: rest => (id, { p with pendingCallIds := p.pendingCallIds.set name rest })
    | [] =>
      (generatedId (p.generatedCallId + 1),
        { pendingCallIds := p.pendingCallIds.set name []
          generatedCallId := p.generatedCallId + 1 })

end Pairing

/-- The loop over the parts of a content: the ids of what `read` finds in them. -/
def takeIds (read : JsonObject → Option JsonObject)
    (take : Pairing → JsString → Option JsString → JsString × Pairing) :
    Pairing → List JsonObject → List (JsString × JsonObject) × Pairing
  | p, [] => ([], p)
  | p, part :: parts =>
    match read part with
    | none => takeIds read take p parts
    | some item =>
      let taken := take p (stringValue (item.prop "name") []) (optionalString (item.prop "id"))
      let rest := takeIds read take taken.2 parts
      ((taken.1, item) :: rest.1, rest.2)

def isModel (content : JsonObject) : Bool := stringValue (content.prop "role") [] = js "model"

/-- The loop over the contents. -/
def overContents {σ : Type} (step : σ → JsonObject → List JsonObject × σ) :
    σ → List JsonObject → List JsonObject × σ
  | s, [] => ([], s)
  | s, content :: contents =>
    let first := step s content
    let rest := overContents step first.2 contents
    (first.1 ++ rest.1, rest.2)

/-! ## Chat -/

/-- A call in a Chat message. -/
def chatToolCall (call : JsString × JsonObject) : Json :=
  .object (omitUndefined [("id", some (.string call.1)), ("type", literal "function"),
    ("function", some (.object (omitUndefined
      [("name", some (.string (stringValue (call.2.prop "name") []))),
        ("arguments", some (.string (jsonStringOrEmpty (call.2.prop "args"))))])))])

/-- A result as a Chat message. -/
def chatToolMessage (response : JsString × JsonObject) : JsonObject :=
  omitUndefined [("role", literal "tool"), ("tool_call_id", some (.string response.1)),
    ("name", some (.string (stringValue (response.2.prop "name") []))),
    ("content", some (.string (geminiFunctionResponseToText (response.2.prop "response"))))]

/-- The messages of a content. -/
def chatMessages (p : Pairing) (content : JsonObject) : List JsonObject × Pairing :=
  let parts := arrayOfObjects (content.prop "parts")
  let text := geminiPartsToText parts
  if isModel content then
    let calls := takeIds partCall Pairing.callId p parts
    ([omitUndefined [("role", literal "assistant"),
      ("content", some (if text = [] then .null else .string text)),
      ("tool_calls", if calls.1 = [] then none else some (.array (calls.1.map chatToolCall)))]],
      calls.2)
  else
    let userContent := (if text = [] then [] else
        [Json.object (omitUndefined [("type", literal "text"), ("text", some (.string text))])]) ++
      parts.filterMap fun part => (geminiImagePartToUrl part).map fun image =>
        Json.object (omitUndefined [("type", literal "image_url"),
          ("image_url", some (.object [(js "url", .string image)]))])
    let responses := takeIds partResponse Pairing.responseId p parts
    (responses.1.map chatToolMessage ++
      (if userContent ≠ [] ∨ responses.1 = [] then
        [omitUndefined [("role", literal "user"),
          ("content", some (if userContent = [] then .string [] else .array userContent))]]
      else []), responses.2)

/-- The messages of `geminiRequestToChat` for the contents. -/
def geminiRequestToChat (contents : List JsonObject) : List JsonObject :=
  (overContents chatMessages {} contents).1

/-! ## Responses -/

/-- A call as an input item. -/
def responsesCallItem (call : JsString × JsonObject) : JsonObject :=
  omitUndefined [("type", literal "function_call"), ("call_id", some (.string call.1)),
    ("name", some (.string (stringValue (call.2.prop "name") []))),
    ("arguments", some (.string (jsonStringOrEmpty (call.2.prop "args"))))]

/-- A result as an input item. -/
def responsesOutputItem (response : JsString × JsonObject) : JsonObject :=
  omitUndefined [("type", literal "function_call_output"), ("call_id", some (.string response.1)),
    ("output", some (.string (geminiFunctionResponseToText (response.2.prop "response"))))]

/-- A message as an input item. -/
def responsesMessageItem (role : String) (content : List Json) : JsonObject :=
  omitUndefined [("type", literal "message"), ("role", literal role),
    ("content", some (.array content))]

/-- A text in an input item. -/
def responsesText (type : String) (text : JsString) : Json :=
  .object (omitUndefined [("type", literal type), ("text", some (.string text))])

/-- The input items of a content. -/
def responsesItems (p : Pairing) (content : JsonObject) : List JsonObject × Pairing :=
  let parts := arrayOfObjects (content.prop "parts")
  let text := geminiPartsToText parts
  if isModel content then
    let calls := takeIds partCall Pairing.callId p parts
    ((if text = [] then [] else
        [responsesMessageItem "assistant" [responsesText "output_text" text]]) ++
      calls.1.map responsesCallItem, calls.2)
  else
    let messageContent := (if text = [] then [] else [responsesText "input_text" text]) ++
      parts.filterMap fun part => (geminiImagePartToUrl part).map fun image =>
        Json.object (omitUndefined [("type", literal "input_image"),
          ("image_url", some (.string image))])
    let responses := takeIds partResponse Pairing.responseId p parts
    (responses.1.map responsesOutputItem ++
      (if messageContent ≠ [] ∨ responses.1 = [] then [responsesMessageItem "user" messageContent]
      else []), responses.2)

/-- The input of `geminiRequestToResponses` for the contents. -/
def geminiRequestToResponses (contents : List JsonObject) : List JsonObject :=
  (overContents responsesItems {} contents).1

/-! ## Anthropic -/

/-- A call as a block; its arguments may be rejected. -/
def anthropicToolUse (call : JsString × JsonObject) : Except InvalidToolArgumentsError Json := do
  let input ← parseJsonObject (call.2.prop "args") "Gemini functionCall.args"
  pure (.object (omitUndefined [("type", literal "tool_use"), ("id", some (.string call.1)),
    ("name", some (.string (stringValue (call.2.prop "name") []))), ("input", some (.object input))]))

/-- A result as a block. -/
def anthropicToolResult (response : JsString × JsonObject) : Json :=
  .object (omitUndefined [("type", literal "tool_result"), ("tool_use_id", some (.string response.1)),
    ("content", some (.string (geminiFunctionResponseToText (response.2.prop "response"))))])

def anthropicText (text : JsString) : Json :=
  .object (omitUndefined [("type", literal "text"), ("text", some (.string text))])

def anthropicMessage (role : String) (content : List Json) : JsonObject :=
  omitUndefined [("role", literal role), ("content", some (.array content))]

/-- The local variables of `geminiRequestToAnthropic`. -/
structure AnthropicTurns where
  pairing : Pairing := {}
  pendingToolResults : List Json := []

/-- `flushToolResults`. -/
def flushToolResults (pending : List Json) : List JsonObject :=
  if pending = [] then [] else [anthropicMessage "user" pending]

/-- The messages of a content. -/
def anthropicMessages (s : AnthropicTurns) (content : JsonObject) :
    Except InvalidToolArgumentsError (List JsonObject × AnthropicTurns) :=
  let parts := arrayOfObjects (content.prop "parts")
  let text := geminiPartsToText parts
  let textBlocks := if text = [] then [] else [anthropicText text]
  if isModel content then do
    let calls := takeIds partCall Pairing.callId s.pairing parts
    let blocks := textBlocks ++ (← calls.1.mapM anthropicToolUse)
    pure (flushToolResults s.pendingToolResults ++
      [anthropicMessage "assistant" (if blocks = [] then [anthropicText []] else blocks)],
      { pairing := calls.2 })
  else
    let userBlocks := textBlocks ++ parts.filterMap fun part =>
      (geminiImagePartToUrl part).map fun url => .object (imageUrlToAnthropic url)
    let responses := takeIds partResponse Pairing.responseId s.pairing parts
    let pending := s.pendingToolResults ++ responses.1.map anthropicToolResult
    if userBlocks ≠ [] ∨ responses.1 = [] then
      pure ([anthropicMessage "user"
        (pending ++ if userBlocks = [] then [anthropicText []] else userBlocks)],
        { pairing := responses.2 })
    else pure ([], { pairing := responses.2, pendingToolResults := pending })

/-- The messages of contents, and the results that wait. -/
def anthropicTurns : AnthropicTurns → List JsonObject →
    Except InvalidToolArgumentsError (List JsonObject × AnthropicTurns)
  | s, [] => pure ([], s)
  | s, content :: contents => do
    let first ← anthropicMessages s content
    let rest ← anthropicTurns first.2 contents
    pure (first.1 ++ rest.1, rest.2)

/-- The messages of `geminiRequestToAnthropic` for the contents. -/
def geminiRequestToAnthropic (contents : List JsonObject) :
    Except InvalidToolArgumentsError (List JsonObject) := do
  let turns ← anthropicTurns {} contents
  pure (turns.1 ++ flushToolResults turns.2.pendingToolResults)

end StonePlus.Conversion
