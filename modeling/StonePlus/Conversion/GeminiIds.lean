import StonePlus.Conversion.GeminiRequest
import StonePlus.Lib.Except

/-!
# StonePlus.Conversion.GeminiIds

The ids in converted Gemini requests.

What a contents list asks for is read off it as `Event`s.  The three converters give every event
the same id (`given`), and their outputs carry those ids.
-/

namespace StonePlus.Conversion

open Streaming

/-! ## Contents as events -/

/-- A function call or a function response, with its own id if it has one. -/
inductive Event
  | call (name : JsString) (id : Option JsString)
  | answer (name : JsString) (id : Option JsString)
  deriving DecidableEq

def itemName (item : JsonObject) : JsString := stringValue (item.prop "name") []

def itemId (item : JsonObject) : Option JsString := optionalString (item.prop "id")

/-- The events of a content. -/
def contentEvents (content : JsonObject) : List Event :=
  let parts := arrayOfObjects (content.prop "parts")
  if isModel content then
    (parts.filterMap partCall).map fun item => .call (itemName item) (itemId item)
  else (parts.filterMap partResponse).map fun item => .answer (itemName item) (itemId item)

def contentsEvents (contents : List JsonObject) : List Event := contents.flatMap contentEvents

/-! ## Ids of events -/

/-- The id of an event. -/
def Pairing.take (p : Pairing) : Event → JsString × Pairing
  | .call name id => p.callId name id
  | .answer name id => p.responseId name id

/-- Each event with its id. -/
def given : Pairing → List Event → List (Event × JsString)
  | _, [] => []
  | p, e :: events => (e, (p.take e).1) :: given (p.take e).2 events

/-- The local variables after events. -/
def Pairing.after (p : Pairing) (events : List Event) : Pairing :=
  events.foldl (fun p e => (p.take e).2) p

def callIds (ids : List (Event × JsString)) : List JsString :=
  ids.filterMap fun
    | (.call _ _, id) => some id
    | (.answer _ _, _) => none

def resultIds (ids : List (Event × JsString)) : List JsString :=
  ids.filterMap fun
    | (.call _ _, _) => none
    | (.answer _ _, id) => some id

theorem given_append (p : Pairing) (events more : List Event) :
    given p (events ++ more) = given p events ++ given (p.after events) more := by
  induction events generalizing p with
  | nil => rfl
  | cons e events ih =>
    show _ :: given _ (events ++ more) = _
    rw [ih]
    rfl

theorem callIds_append (ids more : List (Event × JsString)) :
    callIds (ids ++ more) = callIds ids ++ callIds more := List.filterMap_append

theorem resultIds_append (ids more : List (Event × JsString)) :
    resultIds (ids ++ more) = resultIds ids ++ resultIds more := List.filterMap_append

/-- The loop over the parts of a content gives its events their ids. -/
theorem given_takeIds {read : JsonObject → Option JsonObject}
    {take : Pairing → JsString → Option JsString → JsString × Pairing}
    {event : JsString → Option JsString → Event}
    (htake : ∀ p name id, p.take (event name id) = take p name id) (p : Pairing)
    (parts : List JsonObject) :
    given p ((parts.filterMap read).map fun item => event (itemName item) (itemId item)) =
        (takeIds read take p parts).1.map (fun t => (event (itemName t.2) (itemId t.2), t.1)) ∧
      p.after ((parts.filterMap read).map fun item => event (itemName item) (itemId item)) =
        (takeIds read take p parts).2 := by
  induction parts generalizing p with
  | nil => exact ⟨rfl, rfl⟩
  | cons part parts ih =>
    cases hpart : read part with
    | none =>
      simp only [List.filterMap_cons, hpart, takeIds]
      exact ih p
    | some item =>
      obtain ⟨hgiven, hafter⟩ := ih (take p (itemName item) (itemId item)).2
      have hfirst := htake p (itemName item) (itemId item)
      simp only [List.filterMap_cons, hpart, takeIds, List.map_cons]
      constructor
      · show (_, (p.take _).1) :: given (p.take _).2 _ = _
        rw [hfirst, hgiven]
        rfl
      · show Pairing.after (p.take _).2 _ = _
        rw [hfirst, hafter]
        rfl

theorem contentEvents_model {content : JsonObject} (h : isModel content = true) (p : Pairing) :
    callIds (given p (contentEvents content)) =
        (takeIds partCall Pairing.callId p (arrayOfObjects (content.prop "parts"))).1.map (·.1) ∧
      resultIds (given p (contentEvents content)) = [] ∧
      p.after (contentEvents content) =
        (takeIds partCall Pairing.callId p (arrayOfObjects (content.prop "parts"))).2 := by
  obtain ⟨hgiven, hafter⟩ := @given_takeIds partCall Pairing.callId .call
    (fun _ _ _ => rfl) p (arrayOfObjects (content.prop "parts"))
  simp only [contentEvents, h, if_true]
  rw [hgiven]
  exact ⟨by simp [callIds, List.filterMap_map], by simp [resultIds], hafter⟩

theorem contentEvents_user {content : JsonObject} (h : isModel content = false) (p : Pairing) :
    callIds (given p (contentEvents content)) = [] ∧
      resultIds (given p (contentEvents content)) =
        (takeIds partResponse Pairing.responseId p
          (arrayOfObjects (content.prop "parts"))).1.map (·.1) ∧
      p.after (contentEvents content) =
        (takeIds partResponse Pairing.responseId p (arrayOfObjects (content.prop "parts"))).2 := by
  obtain ⟨hgiven, hafter⟩ := @given_takeIds partResponse Pairing.responseId .answer
    (fun _ _ _ => rfl) p (arrayOfObjects (content.prop "parts"))
  simp only [contentEvents, h, Bool.false_eq_true, if_false]
  rw [hgiven]
  exact ⟨by simp [callIds], by simp [resultIds, List.filterMap_map], hafter⟩

/-! ## Ids in the outputs -/

def chatCallsOf (message : JsonObject) : List JsString :=
  (arrayOfObjects (message.prop "tool_calls")).map fun call => stringValue (call.prop "id") []

def chatResultsOf (message : JsonObject) : List JsString :=
  if message.prop "role" = literal "tool" then [stringValue (message.prop "tool_call_id") []]
  else []

def responsesCallsOf (item : JsonObject) : List JsString :=
  if item.prop "type" = literal "function_call" then [stringValue (item.prop "call_id") []] else []

def responsesResultsOf (item : JsonObject) : List JsString :=
  if item.prop "type" = literal "function_call_output" then [stringValue (item.prop "call_id") []]
  else []

/-- The `key`s of the blocks of a type. -/
def blockIds (type key : String) (blocks : List Json) : List JsString :=
  (blocks.filterMap fun block => objectValue (some block)).flatMap fun block =>
    if block.prop "type" = literal type then [stringValue (block.prop key) []] else []

def toolUseIds : List Json → List JsString := blockIds "tool_use" "id"

def toolResultIds : List Json → List JsString := blockIds "tool_result" "tool_use_id"

def anthropicCallsOf (message : JsonObject) : List JsString :=
  toolUseIds (arrayValue (message.prop "content"))

def anthropicResultsOf (message : JsonObject) : List JsString :=
  toolResultIds (arrayValue (message.prop "content"))

/-- What a converter reads from one content, it reads from all. -/
theorem overContents_ids
    (hstep : ∀ p content,
      (step p content).1.flatMap calls = callIds (given p (contentEvents content)) ∧
        (step p content).1.flatMap results = resultIds (given p (contentEvents content)) ∧
        (step p content).2 = p.after (contentEvents content)) (contents : List JsonObject)
    (p : Pairing) :
    (overContents step p contents).1.flatMap calls = callIds (given p (contentsEvents contents)) ∧
      (overContents step p contents).1.flatMap results =
        resultIds (given p (contentsEvents contents)) := by
  induction contents generalizing p with
  | nil => exact ⟨rfl, rfl⟩
  | cons content contents ih =>
    obtain ⟨hcalls, hresults, hafter⟩ := hstep p content
    obtain ⟨ihcalls, ihresults⟩ := ih (step p content).2
    rw [hafter] at ihcalls ihresults
    simp only [overContents, contentsEvents, List.flatMap_cons, List.flatMap_append, given_append,
      callIds_append, resultIds_append, hcalls, hresults, hafter]
    exact ⟨congrArg _ ihcalls, congrArg _ ihresults⟩

theorem chatIds_toolMessage (response : JsString × JsonObject) :
    chatCallsOf (chatToolMessage response) = [] ∧
      chatResultsOf (chatToolMessage response) = [response.1] := by
  simp +decide [chatCallsOf, chatResultsOf, chatToolMessage, prop_omitUndefined_cons,
    prop_omitUndefined_nil, arrayOfObjects, arrayValue, stringValue, literal]

theorem chatIds_user (content : Option Json) :
    chatCallsOf (omitUndefined [("role", literal "user"), ("content", content)]) = [] ∧
      chatResultsOf (omitUndefined [("role", literal "user"), ("content", content)]) = [] := by
  simp +decide [chatCallsOf, chatResultsOf, prop_omitUndefined_cons, prop_omitUndefined_nil,
    arrayOfObjects, arrayValue, literal]

theorem chatIds_assistant (content : Option Json) (calls : List (JsString × JsonObject)) :
    chatCallsOf (omitUndefined [("role", literal "assistant"), ("content", content),
        ("tool_calls", if calls = [] then none else some (.array (calls.map chatToolCall)))]) =
        calls.map (·.1) ∧
      chatResultsOf (omitUndefined [("role", literal "assistant"), ("content", content),
        ("tool_calls", if calls = [] then none else some (.array (calls.map chatToolCall)))]) =
        [] := by
  cases calls with
  | nil =>
    simp +decide [chatCallsOf, chatResultsOf, prop_omitUndefined_cons, prop_omitUndefined_nil,
      arrayOfObjects, arrayValue, literal]
  | cons call calls =>
    simp +decide [chatCallsOf, chatResultsOf, prop_omitUndefined_cons, prop_omitUndefined_nil,
      arrayOfObjects, arrayValue, literal, chatToolCall, objectValue, stringValue,
      Function.comp_def, List.filterMap_map]

/-- A message without ids may be there or not. -/
theorem flatMap_optional {ids : JsonObject → List JsString} {message : JsonObject}
    (h : ids message = []) (present : Prop) [Decidable present] :
    (if present then [message] else []).flatMap ids = [] := by
  split <;> simp [h]

theorem flatMap_optional' {ids : JsonObject → List JsString} {message : JsonObject}
    (h : ids message = []) (absent : Prop) [Decidable absent] :
    (if absent then [] else [message]).flatMap ids = [] := by
  split <;> simp [h]

theorem chatMessages_ids (p : Pairing) (content : JsonObject) :
    (chatMessages p content).1.flatMap chatCallsOf = callIds (given p (contentEvents content)) ∧
      (chatMessages p content).1.flatMap chatResultsOf =
        resultIds (given p (contentEvents content)) ∧
      (chatMessages p content).2 = p.after (contentEvents content) := by
  cases h : isModel content with
  | true =>
    obtain ⟨hcalls, hresults, hafter⟩ := contentEvents_model h p
    simp only [chatMessages, h, if_true]
    rw [hcalls, hresults, hafter]
    simp [chatIds_assistant]
  | false =>
    obtain ⟨hcalls, hresults, hafter⟩ := contentEvents_user h p
    simp only [chatMessages, h, Bool.false_eq_true, if_false]
    rw [hcalls, hresults, hafter]
    simp only [List.flatMap_append, List.flatMap_map, chatIds_toolMessage,
      flatMap_optional (chatIds_user _).1, flatMap_optional (chatIds_user _).2, List.append_nil]
    exact ⟨by simp, List.map_eq_flatMap.symm, trivial⟩

theorem chatIds_geminiRequestToChat (contents : List JsonObject) :
    (geminiRequestToChat contents).flatMap chatCallsOf =
        callIds (given {} (contentsEvents contents)) ∧
      (geminiRequestToChat contents).flatMap chatResultsOf =
        resultIds (given {} (contentsEvents contents)) :=
  overContents_ids chatMessages_ids contents {}

theorem responsesIds_callItem (call : JsString × JsonObject) :
    responsesCallsOf (responsesCallItem call) = [call.1] ∧
      responsesResultsOf (responsesCallItem call) = [] := by
  simp +decide [responsesCallsOf, responsesResultsOf, responsesCallItem, prop_omitUndefined_cons,
    prop_omitUndefined_nil, stringValue, literal]

theorem responsesIds_outputItem (response : JsString × JsonObject) :
    responsesCallsOf (responsesOutputItem response) = [] ∧
      responsesResultsOf (responsesOutputItem response) = [response.1] := by
  simp +decide [responsesCallsOf, responsesResultsOf, responsesOutputItem, prop_omitUndefined_cons,
    prop_omitUndefined_nil, stringValue, literal]

theorem responsesIds_messageItem (role : String) (content : List Json) :
    responsesCallsOf (responsesMessageItem role content) = [] ∧
      responsesResultsOf (responsesMessageItem role content) = [] := by
  simp +decide [responsesCallsOf, responsesResultsOf, responsesMessageItem,
    prop_omitUndefined_cons, prop_omitUndefined_nil, literal]

theorem responsesItems_ids (p : Pairing) (content : JsonObject) :
    (responsesItems p content).1.flatMap responsesCallsOf =
        callIds (given p (contentEvents content)) ∧
      (responsesItems p content).1.flatMap responsesResultsOf =
        resultIds (given p (contentEvents content)) ∧
      (responsesItems p content).2 = p.after (contentEvents content) := by
  cases h : isModel content with
  | true =>
    obtain ⟨hcalls, hresults, hafter⟩ := contentEvents_model h p
    simp only [responsesItems, h, if_true]
    rw [hcalls, hresults, hafter]
    simp only [List.flatMap_append, List.flatMap_map, responsesIds_callItem,
      flatMap_optional' (responsesIds_messageItem _ _).1,
      flatMap_optional' (responsesIds_messageItem _ _).2, List.nil_append]
    exact ⟨List.map_eq_flatMap.symm, by simp, trivial⟩
  | false =>
    obtain ⟨hcalls, hresults, hafter⟩ := contentEvents_user h p
    simp only [responsesItems, h, Bool.false_eq_true, if_false]
    rw [hcalls, hresults, hafter]
    simp only [List.flatMap_append, List.flatMap_map, responsesIds_outputItem,
      flatMap_optional (responsesIds_messageItem _ _).1,
      flatMap_optional (responsesIds_messageItem _ _).2, List.append_nil]
    exact ⟨by simp, List.map_eq_flatMap.symm, trivial⟩

theorem responsesIds_geminiRequestToResponses (contents : List JsonObject) :
    (geminiRequestToResponses contents).flatMap responsesCallsOf =
        callIds (given {} (contentsEvents contents)) ∧
      (geminiRequestToResponses contents).flatMap responsesResultsOf =
        resultIds (given {} (contentsEvents contents)) :=
  overContents_ids responsesItems_ids contents {}

theorem toolUseIds_append (blocks more : List Json) :
    toolUseIds (blocks ++ more) = toolUseIds blocks ++ toolUseIds more := by
  simp [toolUseIds, blockIds]

theorem toolResultIds_append (blocks more : List Json) :
    toolResultIds (blocks ++ more) = toolResultIds blocks ++ toolResultIds more := by
  simp [toolResultIds, blockIds]

theorem anthropicIds_message (role : String) (content : List Json) :
    anthropicCallsOf (anthropicMessage role content) = toolUseIds content ∧
      anthropicResultsOf (anthropicMessage role content) = toolResultIds content := by
  simp +decide [anthropicCallsOf, anthropicResultsOf, anthropicMessage, prop_omitUndefined_cons,
    prop_omitUndefined_nil, arrayValue]

theorem anthropicIds_flush (pending : List Json) :
    (flushToolResults pending).flatMap anthropicCallsOf = toolUseIds pending ∧
      (flushToolResults pending).flatMap anthropicResultsOf = toolResultIds pending := by
  unfold flushToolResults
  split
  · next hnil =>
    rw [hnil]
    exact ⟨rfl, rfl⟩
  · simp [anthropicIds_message]

/-- Blocks of other types: texts and images. -/
structure NoIds (blocks : List Json) : Prop where
  uses : toolUseIds blocks = []
  results : toolResultIds blocks = []

theorem NoIds.append (h : NoIds blocks) (hmore : NoIds more) : NoIds (blocks ++ more) := by
  constructor
  · rw [toolUseIds_append, h.uses, hmore.uses, List.append_nil]
  · rw [toolResultIds_append, h.results, hmore.results, List.append_nil]

theorem noIds_text (text : JsString) : NoIds [anthropicText text] := by
  constructor <;>
    simp +decide [toolUseIds, toolResultIds, blockIds, anthropicText, objectValue,
      prop_omitUndefined_cons, literal]

theorem noIds_image (url : JsString) : NoIds [.object (imageUrlToAnthropic url)] := by
  unfold imageUrlToAnthropic
  split <;> constructor <;>
    simp +decide [toolUseIds, toolResultIds, blockIds, objectValue, prop_omitUndefined_cons,
      literal]

theorem noIds_images (parts : List JsonObject) :
    NoIds (parts.filterMap fun part =>
      (geminiImagePartToUrl part).map fun url => .object (imageUrlToAnthropic url)) := by
  induction parts with
  | nil => exact ⟨rfl, rfl⟩
  | cons part parts ih =>
    cases h : geminiImagePartToUrl part with
    | none => simpa [List.filterMap_cons, h] using ih
    | some url =>
      simp only [List.filterMap_cons, h, Option.map_some]
      exact (noIds_image url).append ih

theorem toolResultIds_map (responses : List (JsString × JsonObject)) :
    toolUseIds (responses.map anthropicToolResult) = [] ∧
      toolResultIds (responses.map anthropicToolResult) = responses.map (·.1) := by
  induction responses with
  | nil => exact ⟨rfl, rfl⟩
  | cons response responses ih =>
    have hfirst : toolUseIds [anthropicToolResult response] = [] ∧
        toolResultIds [anthropicToolResult response] = [response.1] := by
      simp +decide [toolUseIds, toolResultIds, blockIds, anthropicToolResult, objectValue,
        prop_omitUndefined_cons, prop_omitUndefined_nil, stringValue, literal]
    rw [List.map_cons, ← List.singleton_append, toolUseIds_append, toolResultIds_append, hfirst.1,
      hfirst.2, ih.1, ih.2]
    exact ⟨rfl, rfl⟩

theorem toolUseIds_mapM {calls : List (JsString × JsonObject)} {blocks : List Json}
    (h : calls.mapM anthropicToolUse = .ok blocks) :
    toolUseIds blocks = calls.map (·.1) ∧ toolResultIds blocks = [] := by
  induction calls generalizing blocks with
  | nil =>
    cases h
    exact ⟨rfl, rfl⟩
  | cons call calls ih =>
    rw [List.mapM_cons] at h
    obtain ⟨block, hblock, h⟩ := Lib.bind_eq_ok.mp h
    obtain ⟨rest, hrest, h⟩ := Lib.bind_eq_ok.mp h
    cases h
    obtain ⟨input, -, hblock⟩ := Lib.bind_eq_ok.mp hblock
    obtain ⟨huses, hresults⟩ := ih hrest
    have hfirst : toolUseIds [block] = [call.1] ∧ toolResultIds [block] = [] := by
      cases hblock
      simp +decide [toolUseIds, toolResultIds, blockIds, objectValue, prop_omitUndefined_cons,
        prop_omitUndefined_nil, stringValue, literal]
    rw [← List.singleton_append, toolUseIds_append, toolResultIds_append, hfirst.1, hfirst.2,
      huses, hresults]
    exact ⟨rfl, rfl⟩

/-- An empty text in the place of no blocks adds no id. -/
theorem blockIds_orText (blocks : List Json) :
    toolUseIds (if blocks = [] then [anthropicText []] else blocks) = toolUseIds blocks ∧
      toolResultIds (if blocks = [] then [anthropicText []] else blocks) = toolResultIds blocks := by
  split
  · next hnil =>
    rw [hnil, (noIds_text []).uses, (noIds_text []).results]
    exact ⟨rfl, rfl⟩
  · exact ⟨rfl, rfl⟩

/-- What a content adds to the output and to the results that wait. -/
theorem anthropicMessages_ids (hpending : toolUseIds s.pendingToolResults = [])
    (h : anthropicMessages s content = .ok (messages, s')) :
    messages.flatMap anthropicCallsOf = callIds (given s.pairing (contentEvents content)) ∧
      messages.flatMap anthropicResultsOf ++ toolResultIds s'.pendingToolResults =
        toolResultIds s.pendingToolResults ++ resultIds (given s.pairing (contentEvents content)) ∧
      toolUseIds s'.pendingToolResults = [] ∧
      s'.pairing = s.pairing.after (contentEvents content) := by
  have htext : NoIds (if geminiPartsToText (arrayOfObjects (content.prop "parts")) = [] then []
      else [anthropicText (geminiPartsToText (arrayOfObjects (content.prop "parts")))]) := by
    split
    · exact ⟨rfl, rfl⟩
    · exact noIds_text _
  cases hmodel : isModel content with
  | true =>
    obtain ⟨hcalls, hresults, hafter⟩ := contentEvents_model hmodel s.pairing
    simp only [anthropicMessages, hmodel, if_true] at h
    obtain ⟨uses, huses, h⟩ := Lib.bind_eq_ok.mp h
    obtain ⟨hids, hnone⟩ := toolUseIds_mapM huses
    cases h
    rw [hcalls, hresults, hafter]
    simp only [List.flatMap_append, List.flatMap_singleton, anthropicIds_message, blockIds_orText,
      anthropicIds_flush, toolUseIds_append, toolResultIds_append, htext.uses, htext.results, hids,
      hnone, hpending]
    simp [toolUseIds, toolResultIds, blockIds]
  | false =>
    obtain ⟨hcalls, hresults, hafter⟩ := contentEvents_user hmodel s.pairing
    simp only [anthropicMessages, hmodel, Bool.false_eq_true, if_false] at h
    have huser := htext.append (noIds_images (arrayOfObjects (content.prop "parts")))
    generalize (if geminiPartsToText (arrayOfObjects (content.prop "parts")) = [] then []
      else [anthropicText (geminiPartsToText (arrayOfObjects (content.prop "parts")))]) ++ _
      = userBlocks at h huser
    rw [hcalls, hresults, hafter]
    split at h
    · cases h
      simp only [List.flatMap_singleton, anthropicIds_message, blockIds_orText, toolUseIds_append,
        toolResultIds_append, toolResultIds_map, huser.uses, huser.results, hpending]
      simp [toolUseIds, toolResultIds, blockIds]
    · cases h
      simp only [List.flatMap_nil, toolUseIds_append, toolResultIds_append, toolResultIds_map,
        hpending]
      simp

theorem anthropicTurns_ids (hpending : toolUseIds s.pendingToolResults = [])
    (h : anthropicTurns s contents = .ok (messages, s')) :
    messages.flatMap anthropicCallsOf = callIds (given s.pairing (contentsEvents contents)) ∧
      messages.flatMap anthropicResultsOf ++ toolResultIds s'.pendingToolResults =
        toolResultIds s.pendingToolResults ++ resultIds (given s.pairing (contentsEvents contents)) ∧
      toolUseIds s'.pendingToolResults = [] := by
  induction contents generalizing s messages with
  | nil =>
    cases h
    exact ⟨rfl, (List.append_nil _).symm, hpending⟩
  | cons content contents ih =>
    obtain ⟨first, hfirst, h⟩ := Lib.bind_eq_ok.mp h
    obtain ⟨rest, hrest, h⟩ := Lib.bind_eq_ok.mp h
    cases h
    obtain ⟨hcalls, hresults, hnone, hafter⟩ := anthropicMessages_ids hpending hfirst
    obtain ⟨ihcalls, ihresults, ihnone⟩ := ih hnone hrest
    rw [hafter] at ihcalls ihresults
    simp only [contentsEvents, List.flatMap_cons, List.flatMap_append, given_append,
      callIds_append, resultIds_append] at ihcalls ihresults ⊢
    refine ⟨by rw [hcalls, ihcalls], ?_, ihnone⟩
    rw [List.append_assoc, ihresults, ← List.append_assoc, hresults, List.append_assoc]

theorem anthropicIds_geminiRequestToAnthropic
    (h : geminiRequestToAnthropic contents = .ok messages) :
    messages.flatMap anthropicCallsOf = callIds (given {} (contentsEvents contents)) ∧
      messages.flatMap anthropicResultsOf = resultIds (given {} (contentsEvents contents)) := by
  obtain ⟨turns, hturns, h⟩ := Lib.bind_eq_ok.mp h
  cases h
  obtain ⟨hcalls, hresults, hnone⟩ := anthropicTurns_ids (s := {}) rfl hturns
  simp only [List.flatMap_append, anthropicIds_flush, hnone, hcalls, hresults]
  exact ⟨List.append_nil _, rfl⟩

end StonePlus.Conversion
