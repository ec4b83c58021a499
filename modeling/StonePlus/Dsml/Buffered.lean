import StonePlus.Canonical
import StonePlus.Dsml.Block
import Mathlib

/-!
# StonePlus.Dsml.Buffered

`gateway/deepseek-dsml-stream.ts`: the streaming parser that restores DSML
blocks in a Responses stream.

The wrapped Responses parser is not part of the model: `push` and `finish`
take the canonical events it returns.
-/

namespace StonePlus.Dsml

open Lib JsString

/-- The mutable fields of `DeepSeekDsmlStreamParser`. -/
structure DeepSeekDsmlStreamParser where
  pendingText : JsString := []
  pendingTextIndex : Option Nat := none
  pendingContentType : Option ContentType := none
  block : JsString := []
  activeStartMarker : Option JsString := none
  sawDsml : Bool := false
  sawNativeTool : Bool := false
  failed : Bool := false
  delayedMessageComplete : List CanonicalStreamEvent := []
  nextToolIndex : Nat := 0

/-- `longestPossibleMarkerPrefix`. -/
def longestPossibleMarkerPrefix (text : JsString) : Nat :=
  let longest := (startMarkers.map fun marker => marker.length - 1).foldl max 0
  longestSuffix (fun suffix => startMarkers.any fun marker => suffix.isPrefixOf marker) text
    (min text.length longest)

namespace DeepSeekDsmlStreamParser

/-- `pendingTextEvent`. -/
def pendingTextEvent (p : DeepSeekDsmlStreamParser) (text : JsString) : CanonicalStreamEvent :=
  .textDelta text p.pendingTextIndex p.pendingContentType

def fail (p : DeepSeekDsmlStreamParser) (error : DeepSeekDsmlError) :
    List CanonicalStreamEvent × DeepSeekDsmlStreamParser :=
  ([.error error.message (some error.code) (some (js "invalid_deepseek_dsml"))],
    { p with failed := true, pendingText := [], block := [], delayedMessageComplete := [] })

def contentAfterDsml : DeepSeekDsmlError :=
  dsmlError "content_after_dsml"
    (js "DeepSeek returned unexpected content after its DSML tool calls.")

def mixedToolFormats : DeepSeekDsmlError :=
  dsmlError "mixed_tool_formats"
    (js "DeepSeek mixed native tool events with a DSML tool-call block.")

def endedInsideBlock : DeepSeekDsmlError :=
  dsmlError "truncated_dsml" (js "DeepSeek ended the response inside a DSML tool-call block.")

/-- The loop over the calls of a block: their events, numbered from the next
tool index. -/
def callEvents (index : Nat) : List ParsedDeepSeekDsmlToolCall → List CanonicalStreamEvent
  | [] => []
  | call :: calls =>
    .toolCallDelta index (some call.callId) (some call.binding.wireName) (some call.arguments)
      none none :: .toolCallComplete index :: callEvents (index + 1) calls

/-- A complete block and the text behind it. -/
def restoreBlock (randomUUID : Nat → JsString) (plan : ToolBridgePlan)
    (p : DeepSeekDsmlStreamParser) (completeBlock trailing : JsString) :
    List CanonicalStreamEvent × DeepSeekDsmlStreamParser :=
  match parseDeepSeekDsmlBlock randomUUID completeBlock plan with
  | .error e => p.fail e
  | .ok none => p.fail (dsmlError "invalid_dsml"
      (js "DeepSeek returned an invalid DSML tool-call block."))
  | .ok (some parsed) =>
    let output := callEvents p.nextToolIndex parsed.calls
    let p := { p with sawDsml := true, nextToolIndex := p.nextToolIndex + parsed.calls.length }
    if trim trailing ≠ [] then
      let failed := p.fail contentAfterDsml
      (output ++ failed.1, failed.2)
    else (output, p)

/-- `consumeBlockText`, inside the block that `marker` opened. -/
def consumeBlockText (randomUUID : Nat → JsString) (plan : ToolBridgePlan)
    (p : DeepSeekDsmlStreamParser) (marker text : JsString) :
    List CanonicalStreamEvent × DeepSeekDsmlStreamParser :=
  let block := p.block ++ text
  let endMarker := matchingEndMarker marker
  match indexOf? endMarker block with
  | none => ([], { p with block := block })
  | some endIndex =>
    let blockEnd := endIndex + endMarker.length
    let p := { p with block := [], activeStartMarker := none }
    if p.sawNativeTool then p.fail mixedToolFormats
    else p.restoreBlock randomUUID plan (block.take blockEnd) (block.drop blockEnd)

/-- `consumeText` once pending text of another part is flushed. -/
def consumePartText (randomUUID : Nat → JsString) (plan : ToolBridgePlan)
    (p : DeepSeekDsmlStreamParser) (text : JsString) (index : Option Nat)
    (contentType : Option ContentType) : List CanonicalStreamEvent × DeepSeekDsmlStreamParser :=
  let p := { p with pendingTextIndex := index, pendingContentType := contentType }
  if p.sawDsml then if trim text = [] then ([], p) else p.fail contentAfterDsml
  else
    match p.activeStartMarker with
    | some marker => p.consumeBlockText randomUUID plan marker text
    | none =>
      let pendingText := p.pendingText ++ text
      match earliestMarker pendingText startMarkers with
      | some (position, marker) =>
        let before := pendingText.take position
        let p := { p with pendingText := [], activeStartMarker := some marker }
        let rest := p.consumeBlockText randomUUID plan marker (pendingText.drop position)
        ((if before ≠ [] then [p.pendingTextEvent before] else []) ++ rest.1, rest.2)
      | none =>
        let safeLength := pendingText.length - longestPossibleMarkerPrefix pendingText
        if safeLength = 0 then ([], { p with pendingText := pendingText })
        else ([p.pendingTextEvent (pendingText.take safeLength)],
          { p with pendingText := pendingText.drop safeLength })

def consumeText (randomUUID : Nat → JsString) (plan : ToolBridgePlan)
    (p : DeepSeekDsmlStreamParser) (text : JsString) (index : Option Nat)
    (contentType : Option ContentType) : List CanonicalStreamEvent × DeepSeekDsmlStreamParser :=
  if p.pendingText ≠ [] ∧ (index ≠ p.pendingTextIndex ∨ contentType ≠ p.pendingContentType) then
    let flushed := p.pendingTextEvent p.pendingText
    let rest := { p with pendingText := [] }.consumePartText randomUUID plan text index contentType
    (flushed :: rest.1, rest.2)
  else p.consumePartText randomUUID plan text index contentType

def finishTextAtStop (p : DeepSeekDsmlStreamParser) :
    List CanonicalStreamEvent × DeepSeekDsmlStreamParser :=
  if p.activeStartMarker.isSome then p.fail endedInsideBlock
  else if p.pendingText = [] then ([], p)
  else
    let text := p.pendingText
    let p := { p with pendingText := [] }
    if p.sawDsml = true ∧ trim text ≠ [] then p.fail contentAfterDsml
    else (if p.sawDsml then [] else [p.pendingTextEvent text], p)

/-- An event after a failure. -/
def transformFailed : CanonicalStreamEvent → List CanonicalStreamEvent
  | .usage usage => [.usage usage]
  | .done => [.done]
  | .error message code errorType => [.error message code errorType]
  | .stop _ _ => [.stop .error (some (js "invalid_dsml"))]
  | _ => []

/-- A `stop` event. -/
def transformStop (p : DeepSeekDsmlStreamParser) (reason : CanonicalStopReason)
    (rawReason : Option JsString) : List CanonicalStreamEvent × DeepSeekDsmlStreamParser :=
  let finished := p.finishTextAtStop
  if finished.2.failed then
    (finished.1 ++ [.stop .error (some (js "invalid_dsml"))], finished.2)
  else
    (finished.1 ++ finished.2.delayedMessageComplete ++
      [if finished.2.sawDsml then .stop .toolCalls (some (js "dsml_tool_calls"))
        else .stop reason rawReason],
      { finished.2 with delayedMessageComplete := [] })

/-- One event of `transform`. -/
def transformEvent (randomUUID : Nat → JsString) (plan : ToolBridgePlan)
    (p : DeepSeekDsmlStreamParser) (event : CanonicalStreamEvent) :
    List CanonicalStreamEvent × DeepSeekDsmlStreamParser :=
  if p.failed then (transformFailed event, p)
  else
    match event with
    | .textDelta text index contentType =>
      if contentType = some .refusal then ([event], p)
      else p.consumeText randomUUID plan text index contentType
    | .toolCallDelta index .. =>
      if p.sawDsml || p.activeStartMarker.isSome then p.fail mixedToolFormats
      else ([event],
        { p with sawNativeTool := true, nextToolIndex := max p.nextToolIndex (index + 1) })
    | .messageComplete _ =>
      ([], { p with delayedMessageComplete := p.delayedMessageComplete ++ [event] })
    | .stop reason rawReason => p.transformStop reason rawReason
    | _ => ([event], p)

def transform (randomUUID : Nat → JsString) (plan : ToolBridgePlan) (p : DeepSeekDsmlStreamParser) :
    List CanonicalStreamEvent → List CanonicalStreamEvent × DeepSeekDsmlStreamParser
  | [] => ([], p)
  | event :: events =>
    let first := p.transformEvent randomUUID plan event
    let rest := first.2.transform randomUUID plan events
    (first.1 ++ rest.1, rest.2)

/-- `push`, given the events of the wrapped parser. -/
def push (randomUUID : Nat → JsString) (plan : ToolBridgePlan) (p : DeepSeekDsmlStreamParser)
    (events : List CanonicalStreamEvent) : List CanonicalStreamEvent × DeepSeekDsmlStreamParser :=
  p.transform randomUUID plan events

/-- `finish`, given the last events of the wrapped parser. -/
def finish (randomUUID : Nat → JsString) (plan : ToolBridgePlan) (p : DeepSeekDsmlStreamParser)
    (events : List CanonicalStreamEvent) : List CanonicalStreamEvent × DeepSeekDsmlStreamParser :=
  let last := p.transform randomUUID plan events
  if !last.2.failed && last.2.activeStartMarker.isSome then
    let failed := last.2.fail endedInsideBlock
    (failed.1 ++ last.1, failed.2)
  else if !last.2.failed && last.2.pendingText ≠ [] then
    (last.2.pendingTextEvent last.2.pendingText :: last.1, { last.2 with pendingText := [] })
  else last

/-- Push lists of events one after another. -/
def pushAll (randomUUID : Nat → JsString) (plan : ToolBridgePlan) (p : DeepSeekDsmlStreamParser) :
    List (List CanonicalStreamEvent) → List CanonicalStreamEvent × DeepSeekDsmlStreamParser
  | [] => ([], p)
  | events :: more =>
    let first := p.push randomUUID plan events
    let rest := first.2.pushAll randomUUID plan more
    (first.1 ++ rest.1, rest.2)

/-- A whole stream: what the wrapped parser returns for each chunk is pushed,
then what it returns at the end. -/
def run (randomUUID : Nat → JsString) (plan : ToolBridgePlan)
    (pushed : List (List CanonicalStreamEvent)) (last : List CanonicalStreamEvent) :
    List CanonicalStreamEvent :=
  let p := DeepSeekDsmlStreamParser.pushAll randomUUID plan {} pushed
  p.1 ++ (p.2.finish randomUUID plan last).1

end DeepSeekDsmlStreamParser

end StonePlus.Dsml

/-!
## Whole texts

What the buffered parser makes of a text, in terms of where the first start
marker stands in it and where its end marker does.

Start markers cannot overlap, so the first one in a text is the first one in
every longer text; an end marker does not begin inside its start marker.
-/

namespace StonePlus.Dsml

open Lib JsString

/-! ## Markers -/

/-- The start markers begin with `<`, do not repeat it and differ early. -/
theorem marks_startMarkers : Marks 0x3C startMarkers := ⟨by decide, by decide, by decide⟩

theorem head?_matchingEndMarker : ∀ marker ∈ startMarkers,
    (matchingEndMarker marker).head? = some 0x3C := by decide

/-- Only an end marker has a slash behind its `<`. -/
theorem slash_matchingEndMarker : ∀ marker ∈ startMarkers,
    (matchingEndMarker marker)[1]? = some 0x2F ∧ 1 < (matchingEndMarker marker).length ∧
      1 < marker.length ∧ marker[1]? ≠ some 0x2F := by decide

/-- The end marker does not begin inside the start marker. -/
theorem not_occurs_in_marker (h : marker ∈ startMarkers) (text : JsString) :
    ∀ j < marker.length, ¬Occurs (matchingEndMarker marker) (marker ++ text) j := by
  intro j hj hoccurs
  cases j with
  | zero =>
      obtain ⟨hslash, hlong, hmarker, hother⟩ := slash_matchingEndMarker marker h
      have hletter := hoccurs.getElem? hlong
      rw [Nat.zero_add, List.getElem?_append_left hmarker, hslash] at hletter
      exact hother hletter
  | succ j =>
      have hself : Occurs marker (marker ++ text) 0 := List.prefix_append _ _
      exact hself.not_inside (marks_startMarkers.tail marker h) (head?_matchingEndMarker marker h)
        (Nat.succ_pos j) (by rwa [Nat.zero_add]) hoccurs

/-! ## Calls -/

/-- The name and arguments of a call the buffered parser found. -/
def called (call : ParsedDeepSeekDsmlToolCall) : Option JsString × Option JsString :=
  (some call.binding.wireName, some call.arguments)

/-- The calls of a block that has been cut out of its text. -/
def blockCalls (randomUUID : Nat → JsString) (plan : ToolBridgePlan) (marker body : JsString) :
    Except DeepSeekDsmlError (List ParsedDeepSeekDsmlToolCall) :=
  match parseInvocations randomUUID plan (markerToken marker) body [] with
  | .error e => .error e
  | .ok [] => .error (dsmlError "empty_dsml_block"
      (js "DeepSeek returned an empty DSML tool-call block."))
  | .ok calls => .ok calls

/-- The call ids are all that depends on the random values. -/
theorem parseInvocations_called (randomUUID randomUUID' : Nat → JsString) (plan : ToolBridgePlan)
    (token rest : JsString) (h : calls.map called = calls'.map called) :
    (parseInvocations randomUUID plan token rest calls).map (List.map called) =
      (parseInvocations randomUUID' plan token rest calls').map (List.map called) := by
  induction hsize : rest.length using Nat.strongRecOn generalizing rest calls calls' with
  | ind size ih =>
      subst hsize
      rw [parseInvocations, parseInvocations]
      split
      · exact congrArg Except.ok h
      · cases hparse : parseInvocation plan token (skipWhitespace rest) with
        | error e => rfl
        | ok parsed =>
            have hlt := (parseInvocation_lt hparse).trans_le (length_skipWhitespace_le rest)
            refine ih _ hlt parsed.2 ?_ rfl
            rw [List.map_append, List.map_append, h]
            rfl

theorem blockCalls_called (randomUUID randomUUID' : Nat → JsString) (plan : ToolBridgePlan)
    (marker body : JsString) :
    (blockCalls randomUUID plan marker body).map (List.map called) =
      (blockCalls randomUUID' plan marker body).map (List.map called) := by
  have hsame := parseInvocations_called randomUUID randomUUID' plan (markerToken marker) body
    (rfl : List.map called [] = _)
  unfold blockCalls
  cases h : parseInvocations randomUUID plan (markerToken marker) body [] with
  | error e =>
      cases h' : parseInvocations randomUUID' plan (markerToken marker) body [] with
      | error e' => rw [h, h'] at hsame; exact hsame
      | ok calls' => rw [h, h'] at hsame; cases hsame
  | ok calls =>
      cases h' : parseInvocations randomUUID' plan (markerToken marker) body [] with
      | error e' => rw [h, h'] at hsame; cases hsame
      | ok calls' =>
          rw [h, h'] at hsame
          have hcalls : calls.map called = calls'.map called := Except.ok.inj hsame
          cases calls <;> cases calls' <;> simp_all [Except.map]

/-- A start marker that follows `before` is the first one. -/
structure Opened (before marker : JsString) : Prop where
  mem : marker ∈ startMarkers
  first : ∀ other ∈ startMarkers, ∀ j < before.length, ¬Occurs other (before ++ marker) j

theorem opened_nil (h : marker ∈ startMarkers) : Opened [] marker :=
  ⟨h, fun _ _ j hj => absurd hj (Nat.not_lt_zero j)⟩

variable {before marker inner : JsString} {plan : ToolBridgePlan} {randomUUID : Nat → JsString}

theorem Opened.earliestMarker_eq (h : Opened before marker) (inner : JsString) :
    earliestMarker (before ++ marker ++ inner) startMarkers = some (before.length, marker) := by
  refine marks_startMarkers.earliest_eq_some.mpr (marks_startMarkers.isEarliest_append ?_ inner)
  refine ⟨h.mem, ?_, h.first⟩
  rw [Occurs, List.drop_left]

/-- A block without its end marker is incomplete. -/
theorem parse_unclosed (h : Opened before marker)
    (hend : indexOf? (matchingEndMarker marker) inner = none) :
    ∃ e, parseDeepSeekDsmlBlock randomUUID (before ++ marker ++ inner) plan = .error e := by
  rw [parseDeepSeekDsmlBlock, h.earliestMarker_eq inner]
  dsimp only
  rw [indexOfFrom?, ← List.length_append, List.drop_left, hend]
  exact ⟨_, rfl⟩

theorem trim_ne_nil_of_containsDsmlStart (h : containsDsmlStart text = true) : trim text ≠ [] := by
  obtain ⟨m, hm, hfound⟩ := List.any_eq_true.mp h
  obtain ⟨i, hi⟩ := Option.isSome_iff_exists.mp hfound
  have hoccurs := (indexOf?_eq_some.mp hi).1
  have hletter := hoccurs.getElem? (marks_startMarkers.length_pos hm)
  rw [← List.head?_eq_getElem?, marks_startMarkers.head m hm] at hletter
  intro htrim
  have hspace := trim_eq_nil_iff.mp htrim _ (List.mem_of_getElem? hletter)
  exact absurd hspace (by decide)

/-- A block with its end marker: only white space may follow, and then the
result is what the block contains. -/
theorem parse_closed (h : Opened before marker)
    (hend : indexOf? (matchingEndMarker marker) inner = some k) :
    parseDeepSeekDsmlBlock randomUUID (before ++ marker ++ inner) plan =
      let rest := inner.drop (k + (matchingEndMarker marker).length)
      if containsDsmlStart rest then
        .error (dsmlError "multiple_dsml_blocks"
          (js "DeepSeek returned more than one DSML tool-call block."))
      else if trim rest ≠ [] then
        .error (dsmlError "content_after_dsml"
          (js "DeepSeek returned unexpected content after its DSML tool calls."))
      else (blockCalls randomUUID plan marker (inner.take k)).map
        fun calls => some ⟨before, rest, calls⟩ := by
  have hsuffix : (before ++ marker ++ inner).drop ((before ++ marker).length + k +
      (matchingEndMarker marker).length) = inner.drop (k + (matchingEndMarker marker).length) := by
    rw [Nat.add_assoc, List.drop_length_add_append]
  have hbody : ((before ++ marker ++ inner).take ((before ++ marker).length + k)).drop
      (before ++ marker).length = inner.take k := by
    rw [List.take_length_add_append, List.drop_left]
  have hbefore : (before ++ marker ++ inner).take before.length = before := by
    rw [List.append_assoc, List.take_left]
  rw [parseDeepSeekDsmlBlock, h.earliestMarker_eq inner]
  dsimp only
  rw [indexOfFrom?, ← List.length_append, List.drop_left, hend, Option.map_some]
  dsimp only
  rw [hsuffix, hbody, hbefore]
  split
  · rfl
  · split
    · rfl
    · unfold blockCalls
      cases parseInvocations randomUUID plan (markerToken marker) (inner.take k) [] with
      | error e => rfl
      | ok calls => cases calls <;> rfl

theorem parse_closed_error (h : Opened before marker)
    (hend : indexOf? (matchingEndMarker marker) inner = some k)
    (hrest : trim (inner.drop (k + (matchingEndMarker marker).length)) ≠ []) :
    ∃ e, parseDeepSeekDsmlBlock randomUUID (before ++ marker ++ inner) plan = .error e := by
  rw [parse_closed h hend]
  dsimp only
  split
  · exact ⟨_, rfl⟩
  · exact ⟨_, rfl⟩

theorem parse_closed_of_trim (h : Opened before marker) {k : Nat}
    (hend : indexOf? (matchingEndMarker marker) inner = some k)
    (hrest : trim (inner.drop (k + (matchingEndMarker marker).length)) = []) :
    parseDeepSeekDsmlBlock randomUUID (before ++ marker ++ inner) plan =
      (blockCalls randomUUID plan marker (inner.take k)).map fun calls =>
        some ⟨before, inner.drop (k + (matchingEndMarker marker).length), calls⟩ := by
  rw [parse_closed h hend]
  dsimp only
  rw [if_neg fun hcontains => trim_ne_nil_of_containsDsmlStart hcontains hrest,
    if_neg (not_not.mpr hrest)]

theorem matchingEndMarker_pos (h : marker ∈ startMarkers) :
    0 < (matchingEndMarker marker).length := Nat.zero_lt_of_lt (slash_matchingEndMarker marker h).2.1

theorem indexOf?_block (h : marker ∈ startMarkers) (inner : JsString) :
    indexOf? (matchingEndMarker marker) (marker ++ inner) =
      (indexOf? (matchingEndMarker marker) inner).map (marker.length + ·) :=
  indexOf?_append_left (not_occurs_in_marker h inner)

/-- A block cut out of its text, with nothing around it, has the same calls. -/
theorem parse_completeBlock (h : marker ∈ startMarkers)
    (hend : indexOf? (matchingEndMarker marker) inner = some k) : parseDeepSeekDsmlBlock randomUUID
        (marker ++ inner.take (k + (matchingEndMarker marker).length)) plan =
      (blockCalls randomUUID plan marker (inner.take k)).map fun calls => some ⟨[], [], calls⟩ := by
  have hcut := indexOf?_take hend (matchingEndMarker_pos h)
  have hrest : (inner.take (k + (matchingEndMarker marker).length)).drop
      (k + (matchingEndMarker marker).length) = [] := by
    rw [List.drop_eq_nil_iff, List.length_take]
    exact Nat.min_le_left _ _
  have hbody : (inner.take (k + (matchingEndMarker marker).length)).take k = inner.take k := by
    rw [List.take_take, Nat.min_eq_left (Nat.le_add_right _ _)]
  have hparse := @parse_closed_of_trim [] marker _ plan randomUUID (opened_nil h) k hcut
    (by rw [hrest]; rfl)
  rw [hrest, hbody] at hparse
  exact hparse

/-- The end marker closes the block in every continuation, with the same body. -/
theorem closed_append (h : marker ∈ startMarkers)
    (hend : indexOf? (matchingEndMarker marker) inner = some k) (more : JsString) :
    indexOf? (matchingEndMarker marker) (inner ++ more) = some k ∧
      (inner ++ more).take k = inner.take k ∧
      (inner ++ more).drop (k + (matchingEndMarker marker).length) =
        inner.drop (k + (matchingEndMarker marker).length) ++ more := by
  have hfits := (indexOf?_eq_some.mp hend).1.fits (matchingEndMarker_pos h)
  refine ⟨indexOf?_append hend (matchingEndMarker_pos h) more, ?_, ?_⟩
  · exact List.take_append_of_le_length (by omega)
  · exact List.drop_append_of_le_length hfits

/-- More text behind a complete block is an error unless it is white space. -/
theorem parse_closed_append_error (h : Opened before marker)
    (hend : indexOf? (matchingEndMarker marker) inner = some k)
    (hmore : trim (inner.drop (k + (matchingEndMarker marker).length) ++ more) ≠ []) :
    ∃ e, parseDeepSeekDsmlBlock randomUUID (before ++ marker ++ inner ++ more) plan = .error e := by
  obtain ⟨hend', -, hrest⟩ := closed_append h.mem hend more
  rw [List.append_assoc]
  exact parse_closed_error h hend' (hrest ▸ hmore)

theorem parse_closed_append (h : Opened before marker)
    (hend : indexOf? (matchingEndMarker marker) inner = some k)
    (hmore : trim (inner.drop (k + (matchingEndMarker marker).length) ++ more) = []) :
    parseDeepSeekDsmlBlock randomUUID (before ++ marker ++ inner ++ more) plan =
      (blockCalls randomUUID plan marker (inner.take k)).map fun calls =>
        some ⟨before, inner.drop (k + (matchingEndMarker marker).length) ++ more, calls⟩ := by
  obtain ⟨hend', hbody, hrest⟩ := closed_append h.mem hend more
  rw [List.append_assoc, parse_closed_of_trim h hend' (hrest ▸ hmore), hbody, hrest]

end StonePlus.Dsml
