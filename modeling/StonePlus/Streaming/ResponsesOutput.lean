import StonePlus.Lib.Slots
import StonePlus.Streaming.ResponsesEncoder

/-!
# StonePlus.Streaming.ResponsesOutput

How a client reads a Responses stream, and the slots an encoder keeps of it.

The text and the tool calls of an encoder are the slots of a log
(`StonePlus.Lib.Slots`): an output index is reserved, the item is announced
under it, and its text, arguments or input grow.
-/

namespace StonePlus.Streaming

open Lib

/-! ## Reading a stream -/

namespace ResponsesEvent

/-- `response.completed`, `response.incomplete` or `response.failed`. -/
def isTerminal : ResponsesEvent → Bool
  | .failed .. | .completed .. | .incomplete .. => true
  | _ => false

/-- An event about an output item, its text or its tool call. -/
def isOutput : ResponsesEvent → Bool
  | .itemAdded .. | .contentPartAdded .. | .textDelta .. | .textDone .. | .toolDelta .. |
    .toolDone .. | .itemDone .. => true
  | _ => false

/-- The index and the item of `response.output_item.added`. -/
def added? : ResponsesEvent → Option (Option Nat × OutputItem)
  | .itemAdded _ index item => some (index, item)
  | _ => none

/-- The index of `response.output_item.done`. -/
def done? : ResponsesEvent → Option (Option Nat)
  | .itemDone _ index _ => some index
  | _ => none

/-- The text, arguments or input an event adds to the item at an index. -/
def deltaAt (i : Nat) : ResponsesEvent → JsString
  | .textDelta _ _ index delta | .toolDelta _ _ _ index delta => if index = some i then delta else []
  | _ => []

/-- The response of a successful terminal event. -/
def closed? : ResponsesEvent → Option ResponsesEnvelope
  | .completed response | .incomplete response _ => some response
  | _ => none

end ResponsesEvent

/-- The announced items. -/
def addedItems (events : List ResponsesEvent) : List (Option Nat × OutputItem) :=
  events.filterMap ResponsesEvent.added?

/-- The indices of the items that are done. -/
def doneIndices (events : List ResponsesEvent) : List (Option Nat) :=
  events.filterMap ResponsesEvent.done?

/-- The concatenated deltas of an item. -/
def deltasOf (i : Nat) (events : List ResponsesEvent) : JsString :=
  events.flatMap (ResponsesEvent.deltaAt i)

/-- Text at the end of an item. -/
def ItemContent.extend (delta : JsString) : ItemContent → ItemContent
  | .message text => .message (some (text.getD [] ++ delta))
  | .functionCall callId name callNamespace arguments =>
    .functionCall callId name callNamespace (arguments ++ delta)
  | .customToolCall callId name input => .customToolCall callId name (input ++ delta)
  | .toolSearchCall callId arguments => .toolSearchCall callId arguments

/-- The item an announced item becomes. -/
def OutputItem.finish (delta status : JsString) (item : OutputItem) : OutputItem :=
  ⟨item.id, status, item.content.extend delta⟩

/-- A Responses stream that ends as it should. -/
structure TerminatesProperly (events : List ResponsesEvent) : Prop where
  terminal : ∃ before terminal after, events = before ++ terminal :: after ∧
    terminal.isTerminal = true ∧ (∀ e ∈ before, e.isTerminal = false) ∧
    ∀ e ∈ after, e.isTerminal = false ∧ e.isOutput = false
  contiguous : ∃ n, ((addedItems events).map Prod.fst).Perm ((List.range n).map some)
  doneOnce : (doneIndices events).Nodup
  doneAdded : ∀ i ∈ doneIndices events, i ∈ (addedItems events).map Prod.fst
  snapshot : ∀ e ∈ events, ∀ response, e.closed? = some response →
    response.output.length = (addedItems events).length ∧
      ∀ i item, (some i, item) ∈ addedItems events →
        ∃ status, response.output[i]? = some (some (item.finish (deltasOf i events) status))

/-- Events that say nothing of the output change nothing of this. -/
theorem TerminatesProperly.append (h : TerminatesProperly events)
    (hmore : ∀ e ∈ more, e.isTerminal = false ∧ e.isOutput = false) :
    TerminatesProperly (events ++ more) := by
  have hadded : addedItems (events ++ more) = addedItems events := by
    have : addedItems more = [] := by
      rw [addedItems, List.filterMap_eq_nil_iff]
      intro e he
      have := hmore e he
      cases e <;> simp_all [ResponsesEvent.added?, ResponsesEvent.isOutput]
    rw [addedItems, List.filterMap_append, ← addedItems, ← addedItems, this, List.append_nil]
  have hdone : doneIndices (events ++ more) = doneIndices events := by
    have : doneIndices more = [] := by
      rw [doneIndices, List.filterMap_eq_nil_iff]
      intro e he
      have := hmore e he
      cases e <;> simp_all [ResponsesEvent.done?, ResponsesEvent.isOutput]
    rw [doneIndices, List.filterMap_append, ← doneIndices, ← doneIndices, this, List.append_nil]
  have hdeltas (i : Nat) : deltasOf i (events ++ more) = deltasOf i events := by
    have : deltasOf i more = [] := by
      rw [deltasOf, List.flatMap_eq_nil_iff]
      intro e he
      have := hmore e he
      cases e <;> simp_all [ResponsesEvent.deltaAt, ResponsesEvent.isOutput]
    rw [deltasOf, List.flatMap_append, ← deltasOf, ← deltasOf, this, List.append_nil]
  obtain ⟨before, terminal, after, rfl, hterminal, hbefore, hafter⟩ := h.terminal
  constructor
  · refine ⟨before, terminal, after ++ more, by simp, hterminal, hbefore, fun e he => ?_⟩
    rcases List.mem_append.mp he with he | he
    · exact hafter e he
    · exact hmore e he
  · rw [hadded]
    exact h.contiguous
  · rw [hdone]
    exact h.doneOnce
  · rw [hadded, hdone]
    exact h.doneAdded
  · intro e he response hresponse
    rw [hadded]
    rcases List.mem_append.mp he with he | he
    · simpa only [hdeltas] using h.snapshot e he response hresponse
    · have := (hmore e he).1
      cases e <;> simp_all [ResponsesEvent.closed?, ResponsesEvent.isTerminal]

/-! ## The log of a stream -/

/-- The entry of an event in the log of its stream. -/
def ResponsesEvent.slotEntry? : ResponsesEvent → Option (SlotEntry OutputItem UInt16)
  | .itemAdded _ (some i) item => some (.announce i item)
  | .textDelta _ _ (some i) delta => some (.extend i delta)
  | .toolDelta _ _ _ (some i) delta => some (.extend i delta)
  | _ => none

def slotLog (events : List ResponsesEvent) : List (SlotEntry OutputItem UInt16) :=
  events.filterMap ResponsesEvent.slotEntry?

/-- Every announcement has an index. -/
def Indexed (events : List ResponsesEvent) : Prop :=
  ∀ e ∈ events, ∀ item, e.added? ≠ some (none, item)

@[simp] theorem slotLog_nil : slotLog [] = [] := rfl

@[simp] theorem slotLog_append (events more : List ResponsesEvent) :
    slotLog (events ++ more) = slotLog events ++ slotLog more :=
  List.filterMap_append

theorem addedItems_eq (h : Indexed events) :
    addedItems events = (announcements (slotLog events)).map fun p => (some p.1, p.2) := by
  unfold addedItems announcements slotLog
  rw [List.filterMap_filterMap, List.map_filterMap]
  apply List.filterMap_congr
  intro e he
  have := h e he
  match e with
  | .itemAdded _ (some i) item => rfl
  | .itemAdded _ none item => exact absurd rfl (this item)
  | .textDelta _ _ index _ => cases index <;> rfl
  | .toolDelta _ _ _ index _ => cases index <;> rfl
  | .created .. | .contentPartAdded .. | .textDone .. | .toolDone .. | .itemDone .. | .error .. |
    .bridgeError .. | .failed .. | .completed .. | .incomplete .. => rfl

theorem deltaAt_eq (i : Nat) (e : ResponsesEvent) :
    e.deltaAt i = (e.slotEntry?.map (SlotEntry.textAt i)).getD [] := by
  match e with
  | .itemAdded _ index _ => cases index <;> rfl
  | .textDelta _ _ index _ =>
      cases index <;> simp [ResponsesEvent.deltaAt, ResponsesEvent.slotEntry?, SlotEntry.textAt]
  | .toolDelta _ _ _ index _ =>
      cases index <;> simp [ResponsesEvent.deltaAt, ResponsesEvent.slotEntry?, SlotEntry.textAt]
  | .created .. | .contentPartAdded .. | .textDone .. | .toolDone .. | .itemDone .. | .error .. |
    .bridgeError .. | .failed .. | .completed .. | .incomplete .. => rfl

theorem deltasOf_eq (i : Nat) (events : List ResponsesEvent) :
    deltasOf i events = textOf i (slotLog events) := by
  unfold deltasOf textOf slotLog
  induction events with
  | nil => rfl
  | cons e events ih =>
      rw [List.flatMap_cons, ih, deltaAt_eq, List.filterMap_cons]
      cases e.slotEntry? with
      | none => rfl
      | some entry => simp

/-! ## The slots of an encoder -/

/-- What an output item is for. -/
inductive OutputSlot
  | text
  | tool (key : JsNumber)
  deriving DecidableEq

/-- The item of a tool call as it is announced. -/
def announcedTool (tool : EncodedToolState) : Option OutputItem :=
  if tool.started then some (toolItem tool (js "in_progress") []) else none

/-- What has been streamed of a tool call. -/
def streamedPart (options : EncodingOptions) (tool : EncodedToolState) : JsString :=
  (streamedValue options tool).take tool.emittedArguments

/-- The slots of an encoder. -/
def outputSlots (options : EncodingOptions) (s : EncoderState) :
    Slots OutputSlot OutputItem UInt16 where
  next := s.responsesNextOutputIndex
  index
    | .text => s.responsesTextOutputIndex
    | .tool key => (s.tools.get? key).bind EncodedToolState.outputIndex
  item
    | .text => if s.responsesTextStarted then some (messageItem s (js "in_progress") none) else none
    | .tool key => (s.tools.get? key).bind announcedTool
  text
    | .text => s.responsesText
    | .tool key => ((s.tools.get? key).map (streamedPart options)).getD []

/-- A finished tool call: the announced item with its arguments or input. -/
theorem finish_toolItem (tool : EncodedToolState) (value status : JsString) :
    (toolItem tool (js "in_progress") []).finish value status = toolItem tool status value := by
  unfold OutputItem.finish toolItem toolContent
  split
  · rfl
  · split <;> rfl

end StonePlus.Streaming
