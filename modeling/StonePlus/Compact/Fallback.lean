import StonePlus.Js.Json

/-!
# StonePlus.Compact.Fallback

The compact fallback of `server.ts`: when the upstream answers that the history does not fit its
context window, the request is sent again with the oldest items of the history left out.

A request is the history it retains, before the items are written anew one by one.  The text of the
message that quotes the request's instructions is an input.
-/

namespace StonePlus.Compact

open Json

/-! ## Items -/

/-- The string a property holds, unless it is blank. -/
def nonBlank : Option Json → Option JsString
  | some (.string s) => if s.trim = [] then none else some s
  | _ => none

/-- Whether the `type` of an item is one of these. -/
def hasType (value : Json) (types : List JsString) : Bool :=
  match value.get? (js "type") with
  | some (.string type) => type ∈ types
  | _ => false

def isCompactToolOutput (value : Json) : Bool :=
  hasType value [js "function_call_output", js "custom_tool_call_output",
    js "computer_call_output", js "tool_search_output"]

def isCompactDependentToolOutput (value : Json) : Bool :=
  if !isCompactToolOutput value then false
  else if !hasType value [js "tool_search_output"] then true
  else
    !(value.get? (js "execution") == some (.string (js "server"))) &&
      (nonBlank (value.get? (js "call_id"))).isSome

def isCompactToolCallType (value : Json) : Bool :=
  hasType value [js "function_call", js "custom_tool_call", js "computer_call",
    js "local_shell_call", js "tool_search_call"]

def compactToolCallId (item : Json) : Option JsString :=
  match item.get? (js "call_id") with
  | some (.string callId) => nonBlank (some (.string callId))
  | _ => nonBlank (item.get? (js "id"))

/-- The id of a call, `none` for any other item. -/
def callId (item : Json) : Option JsString :=
  if isCompactToolCallType item then compactToolCallId item else none

/-- The id of the call an output depends on, `none` for any other item. -/
def outputId (item : Json) : Option JsString :=
  if isCompactDependentToolOutput item then nonBlank (item.get? (js "call_id")) else none

/-! ## What is retained -/

def pruneCompactOrphanToolOutputs (history : List Json) : List Json :=
  let retainedCallIds := history.filterMap callId
  history.filter fun value =>
    if !isCompactToolOutput value then true
    else if hasType value [js "tool_search_output"] &&
        (value.get? (js "execution") == some (.string (js "server")) ||
          (nonBlank (value.get? (js "call_id"))).isNone) then true
    else
      match nonBlank (value.get? (js "call_id")) with
      | none => true
      | some callId => callId ∈ retainedCallIds

/-- The last call of an id before a position. -/
def lastCall (history : List Json) (id : JsString) : Nat → Option Nat
  | 0 => none
  | callIndex + 1 =>
    if history[callIndex]?.bind callId = some id then some callIndex
    else lastCall history id callIndex

/-- The call of an output a prefix trim has landed on. -/
def matchedCall (history : List Json) (retainedStart : Nat) (output : Json) : Option Nat :=
  (nonBlank (output.get? (js "call_id"))).bind fun id => lastCall history id retainedStart

/-- The outputs a prefix trim has landed on. -/
def leadingOutputs (history : List Json) (retainedStart : Nat) : List Json :=
  (history.drop retainedStart).takeWhile isCompactDependentToolOutput

/-- The loop over these outputs: the earliest of their calls. -/
def earliestMatchedCall (history : List Json) (retainedStart : Nat) : Nat :=
  (leadingOutputs history retainedStart).foldl (fun earliest output =>
    match matchedCall history retainedStart output with
    | none => earliest
    | some callIndex => min earliest callIndex) retainedStart

def compactFallbackRetainedStart (history : List Json) (dropOldestHistoryItems : Nat) : Nat :=
  let retainedStart := min history.length dropOldestHistoryItems
  if dropOldestHistoryItems = 0 ∨ retainedStart ≥ history.length then retainedStart
  else
    let earliest := earliestMatchedCall history retainedStart
    if earliest < retainedStart then earliest
    else retainedStart + (leadingOutputs history retainedStart).length

/-! ## A request -/

inductive CompactError
  | invalidPreviousResponse
  | unsupportedHistory
  | trimmedAll
  | noHistory
  deriving DecidableEq

/-- The message that quotes the instructions of a request. -/
def privilegedDataMessage (text : JsString) : Json :=
  .object [(js "type", .string (js "message")), (js "role", .string (js "user")),
    (js "content", .array [.object [(js "type", .string (js "input_text")),
      (js "text", .string text)]])]

section
variable (quote : JsString → JsString)

/-- The history of a request: its instructions as a message, and its input but for what is no
conversation. -/
def compactHistory (body : List (JsString × Json)) : List Json :=
  (match nonBlank (property? body (js "instructions")) with
    | some instructions => [privilegedDataMessage (quote instructions.trim)]
    | none => []) ++
  match property? body (js "input") with
  | some (.array input) =>
    input.filter fun item => !hasType item [js "compaction_trigger", js "additional_tools"]
  | _ => []

/-- `buildCompactFallbackBody`, up to the writing of the items. -/
def buildCompactFallbackBody (body : List (JsString × Json)) (dropOldestHistoryItems : Nat) :
    Except CompactError (List Json) :=
  let history := compactHistory quote body
  let retainedStart := compactFallbackRetainedStart history dropOldestHistoryItems
  let retainedHistory := pruneCompactOrphanToolOutputs (history.drop retainedStart)
  let previousResponse := property? body (js "previous_response_id")
  if previousResponse ≠ none ∧ previousResponse ≠ some .null ∧ nonBlank previousResponse = none then
    .error .invalidPreviousResponse
  else if (nonBlank previousResponse).isSome then .error .unsupportedHistory
  else if retainedHistory.length = 0 then
    .error (if dropOldestHistoryItems > 0 then .trimmedAll else .noHistory)
  else .ok retainedHistory

/-! ## The retries -/

def maxCompactContextRetries : Nat := 7

def nextCompactFallbackDropCount (current historyLength retry : Nat) : Option Nat :=
  let maximumDropCount := historyLength - 1
  if current ≥ maximumDropCount then none
  else if retry ≥ maxCompactContextRetries - 2 then some maximumDropCount
  else some (min maximumDropCount (if current = 0 then 1 else current * 2 + 1))

/-- The answer to a request: whether it says that the context overflows, and whether it comes
after the deadline. -/
structure Answer where
  overflow : Bool
  late : Bool

/-- The retries of a request, with the histories that were sent. -/
structure Attempts where
  dropped : Nat
  retries : Nat
  sent : List (List Json)

/-- The loop over the answers; it stops for good at the first answer that leaves it. -/
def retryLoop (body : List (JsString × Json)) : Attempts → List Answer → Attempts
  | attempts, [] => attempts
  | attempts, answer :: answers =>
    if attempts.retries < maxCompactContextRetries ∧ answer.overflow then
      match nextCompactFallbackDropCount attempts.dropped (compactHistory quote body).length
          attempts.retries with
      | none => attempts
      | some nextDropCount =>
        if answer.late then attempts
        else
          match buildCompactFallbackBody quote body nextDropCount with
          | .error _ => attempts
          | .ok history =>
            retryLoop body ⟨nextDropCount, attempts.retries + 1, attempts.sent ++ [history]⟩ answers
    else attempts

/-- The histories of all requests that are sent. -/
def sentHistories (body : List (JsString × Json)) (answers : List Answer) : List (List Json) :=
  match buildCompactFallbackBody quote body 0 with
  | .error _ => []
  | .ok history => (retryLoop quote body ⟨0, 0, [history]⟩ answers).sent

end

end StonePlus.Compact
