import StonePlus.Lib.Reaches
import StonePlus.Streaming.Encoder
import StonePlus.Streaming.ResponsesOutput

/-!
# StonePlus.Streaming.ResponsesOpen

An open Responses stream: the slots of the encoder are what a client reads of
the events written so far.
-/

namespace StonePlus.Streaming

open Lib Effect

/-! ## Slots of a changed tool -/

section

variable (options : EncodingOptions) (s : EncoderState) (tool : EncodedToolState)

/-- The state with a tool written back. -/
def withTool : EncoderState := { s with tools := s.tools.set (mapKey tool.index) tool }

theorem index_withTool (a : OutputSlot) : (outputSlots options (withTool s tool)).index a =
    if a = .tool (mapKey tool.index) then tool.outputIndex else (outputSlots options s).index a := by
  cases a with
  | text => rfl
  | tool key =>
      simp only [outputSlots, withTool, JsMap.get?_set, OutputSlot.tool.injEq]
      split <;> rfl

theorem item_withTool (a : OutputSlot) : (outputSlots options (withTool s tool)).item a =
    if a = .tool (mapKey tool.index) then announcedTool tool
    else (outputSlots options s).item a := by
  cases a with
  | text => rfl
  | tool key =>
      simp only [outputSlots, withTool, JsMap.get?_set, OutputSlot.tool.injEq]
      split <;> rfl

theorem text_withTool (a : OutputSlot) : (outputSlots options (withTool s tool)).text a =
    if a = .tool (mapKey tool.index) then streamedPart options tool
    else (outputSlots options s).text a := by
  cases a with
  | text => rfl
  | tool key =>
      simp only [outputSlots, withTool, JsMap.get?_set, OutputSlot.tool.injEq]
      split <;> rfl

variable {options s tool} {events : List ResponsesEvent}

/-- A tool that is written back with the same slot changes nothing. -/
theorem agrees_withTool (h : Agrees (outputSlots options s) (slotLog events))
    (hindex : tool.outputIndex = (outputSlots options s).index (.tool (mapKey tool.index)))
    (hitem : announcedTool tool = (outputSlots options s).item (.tool (mapKey tool.index)))
    (htext : streamedPart options tool = (outputSlots options s).text (.tool (mapKey tool.index))) :
    Agrees (outputSlots options (withTool s tool)) (slotLog events) := by
  refine h.congr rfl ?_ ?_ ?_
  · intro a
    rw [index_withTool]
    split
    · next ha => rw [ha, hindex]
    · rfl
  · intro a
    rw [item_withTool]
    split
    · next ha => rw [ha, hitem]
    · rfl
  · intro a
    rw [text_withTool]
    split
    · next ha => rw [ha, htext]
    · rfl

end

/-! ## Open streams -/

/-- A tool call that has not been bound: only the part that was streamed
counts, and a withheld tool has not been announced. -/
structure ToolOpen (options : EncodingOptions) (tool : EncodedToolState) : Prop where
  unbound : tool.bridgeBinding = none
  plain : tool.customInput = none
  withheld : withholdsTools options = true → tool.started = false
  unsent : tool.started = false → tool.emittedArguments = 0
  sent : tool.emittedArguments ≤ tool.arguments.length

/-- Neither a terminal event nor the end of an item, and no announcement
without an index. -/
def ResponsesEvent.Ongoing (e : ResponsesEvent) : Prop :=
  e.isTerminal = false ∧ e.done? = none ∧ ∀ item, e.added? ≠ some (none, item)

/-- An encoder that may go on. -/
structure Running (options : EncodingOptions) (s : EncoderState) : Prop where
  textIndex : s.responsesTextStarted = false → s.responsesTextOutputIndex = none
  keyed : ∀ {key tool}, s.tools.get? key = some tool → mapKey tool.index = key
  tools : ∀ {key tool}, s.tools.get? key = some tool → ToolOpen options tool
  failed : s.failed = false
  stopped : s.stopped = false
  unreported : s.responsesFailureEmitted = false
  undone : s.done = false

/-- The stream is open and agrees with the encoder. -/
structure Open (options : EncodingOptions) (s : EncoderState) (events : List ResponsesEvent) : Prop
    extends Running options s where
  agrees : Agrees (outputSlots options s) (slotLog events)
  ongoing : ∀ e ∈ events, e.Ongoing

/-- Every tool has an output index. -/
def Reserved (s : EncoderState) : Prop :=
  ∀ key tool, s.tools.get? key = some tool → ∃ i, tool.outputIndex = some i

variable {options : EncodingOptions} {s : EncoderState} {events : List ResponsesEvent}

theorem open_init (options : EncodingOptions) : Open options (.init .openaiResponses options) [] where
  textIndex _ := rfl
  keyed h := by cases h
  tools h := by cases h
  failed := rfl
  stopped := rfl
  unreported := rfl
  undone := rfl
  agrees := by
    refine agrees_empty.congr rfl ?_ ?_ ?_
    · rintro (_ | key) <;> rfl
    · rintro (_ | key) <;> rfl
    · rintro (_ | key) <;> rfl
  ongoing := by simp

theorem indexed_of_ongoing (h : ∀ e ∈ events, e.Ongoing) : Indexed events :=
  fun e he => (h e he).2.2

theorem doneIndices_of_ongoing (h : ∀ e ∈ events, e.Ongoing) : doneIndices events = [] := by
  rw [doneIndices, List.filterMap_eq_nil_iff]
  exact fun e he => (h e he).2.1

theorem ongoing_concat (h : ∀ e ∈ events, e.Ongoing) (he : e.Ongoing) :
    ∀ e' ∈ events ++ [e], e'.Ongoing := by
  intro e' he'
  rcases List.mem_append.mp he' with he' | he'
  · exact h e' he'
  · exact List.mem_singleton.mp he' ▸ he

/-- An event that is no entry of the log. -/
theorem Open.emit (h : Open options s events) (he : e.Ongoing) (hentry : e.slotEntry? = none) :
    Open options s (events ++ [e]) where
  toRunning := h.toRunning
  agrees := by
    have : slotLog [e] = [] := by simp [slotLog, hentry]
    rw [slotLog_append, this, List.append_nil]
    exact h.agrees
  ongoing := ongoing_concat h.ongoing he

theorem Open.ensureResponsesStart (h : Open options s events) :
    Reaches ensureResponsesStart s events fun _ s' events' =>
      s' = { s with started := true } ∧ Open options s' events' := by
  unfold Streaming.ensureResponsesStart
  simp only [reaches_bind, reaches_get]
  split
  · next hstarted =>
    have hs : s = { s with started := true } := by rw [← hstarted]
    rw [reaches_pure]
    exact ⟨hs, h⟩
  · simp only [reaches_bind, reaches_modify, reaches_get, reaches_emit, true_and]
    have hs : Open options { s with started := true } events :=
      ⟨⟨h.textIndex, h.keyed, h.tools, h.failed, h.stopped, h.unreported, h.undone⟩, h.agrees, h.ongoing⟩
    exact hs.emit ⟨rfl, rfl, by simp [ResponsesEvent.added?]⟩ rfl

/-! ## Text -/

theorem Open.ensureResponsesTextStarted (h : Open options s events) :
    Reaches ensureResponsesTextStarted s events fun _ s' events' =>
      s'.responsesTextStarted = true ∧ s'.tools = s.tools ∧ Open options s' events' := by
  unfold Streaming.ensureResponsesTextStarted nextOutputIndex
  simp only [reaches_bind, reaches_get]
  split
  · next hstarted =>
    rw [reaches_pure]
    exact ⟨hstarted, rfl, h⟩
  · next hstarted =>
    simp only [reaches_bind, reaches_modify, reaches_get, reaches_emit, reaches_pure, true_and]
    have hnone : s.responsesTextStarted = false := by simpa using hstarted
    -- the index is reserved before the text counts as started
    let reserved : EncoderState :=
      { s with
        responsesNextOutputIndex := s.responsesNextOutputIndex + 1
        responsesTextOutputIndex := some s.responsesNextOutputIndex }
    let s' : EncoderState := { reserved with responsesTextStarted := true }
    have hreserved : Agrees (outputSlots options reserved) (slotLog events) := by
      refine h.agrees.reserve (a := .text) (h.textIndex hnone) rfl rfl ?_ ?_ ?_
      · rintro (_ | key) hb
        · exact absurd rfl hb
        · rfl
      · rintro (_ | key) <;> rfl
      · rintro (_ | key) <;> rfl
    have hannounced : Agrees (outputSlots options s') (slotLog events ++
        [.announce s.responsesNextOutputIndex (messageItem s' (js "in_progress") none)]) := by
      refine hreserved.announce (a := .text) rfl ?_ rfl ?_ rfl ?_ ?_
      · simp [outputSlots, reserved, hnone]
      · rintro (_ | key) <;> rfl
      · rintro (_ | key) hb
        · exact absurd rfl hb
        · rfl
      · rintro (_ | key) <;> rfl
    have hopen : Open options s' (events ++ [.itemAdded s.id (some s.responsesNextOutputIndex)
        (messageItem s' (js "in_progress") none)]) := by
      refine ⟨⟨?_, h.keyed, h.tools, h.failed, h.stopped, h.unreported, h.undone⟩, ?_,
        ongoing_concat h.ongoing ⟨rfl, rfl, ?_⟩⟩
      · simp [s']
      · rw [slotLog_append]
        exact hannounced
      · simp [ResponsesEvent.added?]
    exact hopen.emit ⟨rfl, rfl, by simp [ResponsesEvent.added?]⟩ rfl

theorem Open.textDelta (h : Open options s events) (hreserved : Reserved s) (text : JsString)
    (index : Option JsNumber) :
    Reaches (responsesTextDelta text index) s events fun _ s' events' =>
      Open options s' events' ∧ Reserved s' := by
  unfold responsesTextDelta
  refine h.ensureResponsesStart.bind ?_
  rintro _ s₁ events₁ ⟨hs₁, h₁⟩
  refine h₁.ensureResponsesTextStarted.bind ?_
  rintro _ s₂ events₂ ⟨hstarted, htools, h₂⟩
  simp only [reaches_bind, reaches_modify, reaches_get, reaches_emit]
  have hitem : (outputSlots options s₂).item .text =
      some (messageItem s₂ (js "in_progress") none) := by
    simp [outputSlots, hstarted]
  obtain ⟨i, hi⟩ := h₂.agrees.indexed hitem
  have hindex : s₂.responsesTextOutputIndex = some i := hi
  constructor
  · refine ⟨⟨h₂.textIndex, h₂.keyed, h₂.tools, h₂.failed, h₂.stopped, h₂.unreported, h₂.undone⟩, ?_,
      ongoing_concat h₂.ongoing ⟨rfl, rfl, ?_⟩⟩
    · have hentry : slotLog [.textDelta s₂.id (messageId s₂) s₂.responsesTextOutputIndex text] =
          [.extend i text] := by simp [slotLog, ResponsesEvent.slotEntry?, hindex]
      rw [slotLog_append]
      refine hentry ▸ h₂.agrees.extend hi rfl ?_ ?_ rfl ?_
      · rintro (_ | key) <;> rfl
      · rintro (_ | key) <;> rfl
      · rintro (_ | key) hb
        · exact absurd rfl hb
        · rfl
    · simp [ResponsesEvent.added?]
  · intro key tool htool
    rw [show s₂.tools = s.tools by rw [htools, hs₁]] at htool
    exact hreserved key tool htool

/-! ## Tool calls -/

/-- The tool of an encoder under its own key. -/
def Stored (s : EncoderState) (tool : EncodedToolState) : Prop :=
  s.tools.get? (mapKey tool.index) = some tool

/-- The tool of an index; a new one has only its index. -/
def toolAt (s : EncoderState) (index : JsNumber) : EncodedToolState :=
  (s.tools.get? (mapKey index)).getD { index }

theorem stored_withTool (s : EncoderState) (tool : EncodedToolState) :
    Stored (withTool s tool) tool :=
  JsMap.get?_set_self _ _ _

@[simp] theorem reaches_putTool (tool : EncodedToolState) :
    Reaches (putTool tool) s events post ↔ post () (withTool s tool) events :=
  reaches_modify _

variable {tool : EncodedToolState}

theorem Stored.index (h : Stored s tool) :
    (outputSlots options s).index (.tool (mapKey tool.index)) = tool.outputIndex := by
  simp only [outputSlots, show s.tools.get? (mapKey tool.index) = some tool from h,
    Option.bind_some]

theorem Stored.item (h : Stored s tool) :
    (outputSlots options s).item (.tool (mapKey tool.index)) = announcedTool tool := by
  simp only [outputSlots, show s.tools.get? (mapKey tool.index) = some tool from h,
    Option.bind_some]

theorem Stored.text (h : Stored s tool) :
    (outputSlots options s).text (.tool (mapKey tool.index)) = streamedPart options tool := by
  simp only [outputSlots, show s.tools.get? (mapKey tool.index) = some tool from h,
    Option.map_some, Option.getD_some]

/-- The tool as `ensureResponsesToolStarted` announces it. -/
def announceTool (s : EncoderState) (tool : EncodedToolState) : EncodedToolState :=
  { tool with
    started := true
    itemId := some (toolItemId s tool) }

theorem agrees_announceTool (h : Agrees (outputSlots options s) (slotLog events))
    (hstored : Stored s tool) (hquiet : tool.started = false) (hi : tool.outputIndex = some i) :
    Agrees (outputSlots options (withTool s (announceTool s tool))) (slotLog events ++
      [.announce i (toolItem (announceTool s tool) (js "in_progress") [])]) := by
  have hkey : mapKey (announceTool s tool).index = mapKey tool.index := rfl
  refine h.announce (hstored.index.trans hi) ?_ rfl ?_ ?_ ?_ ?_
  · rw [hstored.item, announcedTool, if_neg (by simp [hquiet])]
  · intro b
    rw [index_withTool, hkey]
    split
    · next hb => rw [hb, hstored.index]; rfl
    · rfl
  · rw [item_withTool, hkey, if_pos rfl]
    rfl
  · intro b hb
    rw [item_withTool, hkey, if_neg hb]
  · intro b
    rw [text_withTool, hkey]
    split
    · next hb => rw [hb, hstored.text]; rfl
    · rfl

/-- A tool whose arguments or input have been streamed up to a length. -/
theorem agrees_streamTool (h : Agrees (outputSlots options s) (slotLog events))
    (hstored : Stored s tool) (hi : tool.outputIndex = some i)
    (hdelta : streamedPart options { tool with emittedArguments := n } =
      streamedPart options tool ++ delta) :
    Agrees (outputSlots options (withTool s { tool with emittedArguments := n }))
      (slotLog events ++ [.extend i delta]) := by
  refine h.extend (hstored.index.trans hi) rfl ?_ ?_ ?_ ?_
  · intro b
    rw [index_withTool]
    split
    · next hb => rw [hb, hstored.index]
    · rfl
  · intro b
    rw [item_withTool]
    split
    · next hb => rw [hb, hstored.item]; rfl
    · rfl
  · rw [text_withTool, if_pos rfl, hstored.text, hdelta]
  · intro b hb
    rw [text_withTool, if_neg hb]

/-- Of an unbound tool call its arguments are streamed. -/
theorem ToolOpen.streamedPart (h : ToolOpen options tool) :
    streamedPart options tool = tool.arguments.take tool.emittedArguments := by
  unfold Streaming.streamedPart streamedValue
  have hraw : (if isCustom tool then tool.customInput.getD tool.arguments else tool.arguments) =
      tool.arguments := by
    rw [h.plain]
    exact ite_self _
  dsimp only
  rw [hraw]
  split
  · next hsanitize =>
    rw [h.unsent (h.withheld (by simp [withholdsTools, hsanitize])), List.take_zero, List.take_zero]
  · rfl

theorem Running.withTool (h : Running options s) (htool : ToolOpen options tool) :
    Running options (withTool s tool) where
  textIndex := h.textIndex
  keyed {key found} hfound := by
    rw [Streaming.withTool, JsMap.get?_set] at hfound
    split at hfound
    · next hkey =>
      cases hfound
      exact hkey.symm
    · exact h.keyed hfound
  tools {key found} hfound := by
    rw [Streaming.withTool, JsMap.get?_set] at hfound
    split at hfound
    · cases hfound
      exact htool
    · exact h.tools hfound
  failed := h.failed
  stopped := h.stopped
  unreported := h.unreported
  undone := h.undone

theorem Open.toolAt (h : Open options s events) (index : JsNumber) :
    ToolOpen options (toolAt s index) := by
  unfold Streaming.toolAt
  cases hfound : s.tools.get? (mapKey index) with
  | none => exact ⟨rfl, rfl, fun _ => rfl, fun _ => rfl, Nat.zero_le _⟩
  | some tool => exact h.tools hfound

theorem Open.mapKey_toolAt (h : Open options s events) (index : JsNumber) :
    mapKey (Streaming.toolAt s index).index = mapKey index := by
  unfold Streaming.toolAt
  cases hfound : s.tools.get? (mapKey index) with
  | none => rfl
  | some tool => exact h.keyed hfound

/-- A delta leaves an announced tool call as it was announced. -/
def KeepsItem (tool merged : EncodedToolState) : Prop :=
  tool.started = true → toolContent merged [] = toolContent tool []

instance (tool merged : EncodedToolState) : Decidable (KeepsItem tool merged) :=
  inferInstanceAs (Decidable (_ → _))

theorem Open.updateTool (h : Open options s events) {index : JsNumber}
    {id name arguments : Option JsString} {toolType : Option ToolCallType}
    (hkeeps : KeepsItem (Streaming.toolAt s index)
      (mergeToolDelta (Streaming.toolAt s index) id name arguments toolType)) :
    Reaches (updateTool index id name arguments toolType) s events fun tool s' events' =>
      tool = mergeToolDelta (Streaming.toolAt s index) id name arguments toolType ∧
        s' = withTool s tool ∧ mapKey tool.index = mapKey index ∧ Open options s' events' := by
  unfold Streaming.updateTool getTool
  simp only [reaches_bind, reaches_get, reaches_pure, reaches_putTool]
  have hold := h.toolAt index
  set tool := Streaming.toolAt s index with htool
  set merged := mergeToolDelta tool id name arguments toolType with hmerged
  rw [show (s.tools.get? (mapKey index)).getD { index } = tool from rfl]
  have hkey : mapKey merged.index = mapKey index := h.mapKey_toolAt index
  have hopen : ToolOpen options merged := by
    refine ⟨hold.unbound, hold.plain, hold.withheld, hold.unsent, ?_⟩
    have := hold.sent
    simp only [merged, mergeToolDelta, List.length_append]
    omega
  refine ⟨hmerged.symm, trivial, hkey, h.toRunning.withTool hopen,
    agrees_withTool h.agrees ?_ ?_ ?_, h.ongoing⟩
  · rw [hkey]
    simp only [mergeToolDelta, tool, Streaming.toolAt, outputSlots]
    cases s.tools.get? (mapKey index) <;> rfl
  · have hitem : (outputSlots options s).item (.tool (mapKey index)) = announcedTool tool := by
      simp only [tool, Streaming.toolAt, outputSlots]
      cases s.tools.get? (mapKey index) <;> rfl
    rw [hkey, hitem]
    unfold announcedTool
    by_cases hstarted : tool.started
    · have hmergedStarted : merged.started = true := hstarted
      have hcontent : toolContent merged [] = toolContent tool [] := hkeeps hstarted
      rw [if_pos hstarted, if_pos hmergedStarted, toolItem, hcontent]
      rfl
    · rw [if_neg hstarted, if_neg (show ¬merged.started = true from hstarted)]
  · have htext : (outputSlots options s).text (.tool (mapKey index)) =
        Streaming.streamedPart options tool := by
      have hempty : Streaming.streamedPart options { index } = [] := List.take_zero
      simp only [tool, Streaming.toolAt, outputSlots]
      cases s.tools.get? (mapKey index) with
      | none => exact hempty.symm
      | some tool => rfl
    rw [hkey, htext, hopen.streamedPart, hold.streamedPart]
    exact List.take_append_of_le_length hold.sent

/-- The other tools have an output index. -/
def OthersReserved (s : EncoderState) (tool : EncodedToolState) : Prop :=
  ∀ key found, s.tools.get? key = some found → key ≠ mapKey tool.index →
    ∃ i, found.outputIndex = some i

theorem Reserved.others (h : Reserved s) (tool : EncodedToolState) :
    OthersReserved (withTool s tool) tool := by
  intro key found hfound hkey
  rw [withTool, JsMap.get?_set_of_ne _ _ hkey] at hfound
  exact h key found hfound

theorem OthersReserved.withTool (h : OthersReserved s tool) (hi : tool.outputIndex = some i) :
    Reserved (withTool s tool) := by
  intro key found hfound
  rw [Streaming.withTool, JsMap.get?_set] at hfound
  split at hfound
  · cases hfound
    exact ⟨i, hi⟩
  · next hkey => exact h key found hfound hkey

theorem Open.reserve (h : Open options s events) (hstored : Stored s tool)
    (hothers : OthersReserved s tool) :
    Reaches (reserveResponsesToolOutputIndex tool) s events fun tool' s' events' =>
      (∃ i, tool' = { tool with outputIndex := some i }) ∧ Stored s' tool' ∧ Reserved s' ∧
        Open options s' events' := by
  unfold reserveResponsesToolOutputIndex nextOutputIndex
  split
  · next hsome =>
    obtain ⟨i, hi⟩ := Option.isSome_iff_exists.mp hsome
    have htool : tool = { tool with outputIndex := some i } := by rw [← hi]
    rw [reaches_pure]
    refine ⟨⟨i, htool⟩, hstored, ?_, h⟩
    intro key found hfound
    by_cases hkey : key = mapKey tool.index
    · rw [hkey, show s.tools.get? (mapKey tool.index) = some tool from hstored] at hfound
      cases hfound
      exact ⟨i, hi⟩
    · exact hothers key found hfound hkey
  · next hsome =>
    have hnone : tool.outputIndex = none := by simpa using hsome
    simp only [reaches_bind, reaches_get, reaches_modify, reaches_pure, reaches_putTool]
    let s₁ : EncoderState := { s with responsesNextOutputIndex := s.responsesNextOutputIndex + 1 }
    let reserved : EncodedToolState := { tool with outputIndex := some s.responsesNextOutputIndex }
    have hrunning : Running options s₁ :=
      ⟨h.textIndex, h.keyed, h.tools, h.failed, h.stopped, h.unreported, h.undone⟩
    have hopen : ToolOpen options tool := h.tools hstored
    have hreserved : ToolOpen options reserved :=
      ⟨hopen.unbound, hopen.plain, hopen.withheld, hopen.unsent, hopen.sent⟩
    have hagrees : Agrees (outputSlots options (withTool s₁ reserved)) (slotLog events) := by
      refine h.agrees.reserve (hstored.index.trans hnone) rfl ?_ ?_ ?_ ?_
      · rw [index_withTool, if_pos rfl]
        rfl
      · intro b hb
        rw [index_withTool, if_neg hb]
        rfl
      · intro b
        rw [item_withTool]
        split
        · next hb => rw [hb, hstored.item]; rfl
        · rfl
      · intro b
        rw [text_withTool]
        split
        · next hb => rw [hb, hstored.text]; rfl
        · rfl
    have hothers' : OthersReserved s₁ reserved := hothers
    exact ⟨⟨_, rfl⟩, stored_withTool s₁ reserved, hothers'.withTool rfl, hrunning.withTool hreserved,
      hagrees, h.ongoing⟩

theorem Reserved.withTool (h : Reserved s) (hi : tool.outputIndex = some i) :
    Reserved (withTool s tool) :=
  OthersReserved.withTool (fun key found hfound _ => h key found hfound) hi

theorem Open.ensureResponsesToolStarted (h : Open options s events) (hstored : Stored s tool)
    (hreserved : Reserved s) (hopen : withholdsTools options = false) :
    Reaches (ensureResponsesToolStarted tool false) s events fun tool' s' events' =>
      (tool.started = true → tool' = tool) ∧ Stored s' tool' ∧ Reserved s' ∧
        Open options s' events' := by
  unfold Streaming.ensureResponsesToolStarted
  split
  · rw [reaches_pure]
    exact ⟨fun _ => rfl, hstored, hreserved, h⟩
  · next hskip =>
    have hquiet : tool.started = false := by
      simp only [Bool.or_eq_true, not_or, Bool.not_eq_true] at hskip
      exact hskip.1
    have hothers : OthersReserved s tool := fun key found hfound _ => hreserved key found hfound
    refine (h.reserve hstored hothers).bind ?_
    rintro tool₁ s₁ events₁ ⟨⟨i, htool₁⟩, hstored₁, hres₁, h₁⟩
    simp only [reaches_bind, reaches_get, reaches_pure, reaches_putTool, reaches_emit]
    have hopen₁ : ToolOpen options tool₁ := h₁.tools hstored₁
    have hquiet₁ : tool₁.started = false := by rw [htool₁]; exact hquiet
    have hi : tool₁.outputIndex = some i := by rw [htool₁]
    let started := announceTool s₁ tool₁
    have hstarted : ToolOpen options started := by
      refine ⟨hopen₁.unbound, hopen₁.plain, ?_, ?_, hopen₁.sent⟩
      · simp [hopen]
      · simp [started, announceTool]
    have hagrees := agrees_announceTool h₁.agrees hstored₁ hquiet₁ hi
    have hentry : slotLog [.itemAdded s₁.id started.outputIndex
        (toolItem started (js "in_progress") [])] =
        [.announce i (toolItem started (js "in_progress") [])] := by
      simp [slotLog, ResponsesEvent.slotEntry?, started, announceTool, hi]
    refine ⟨?_, stored_withTool s₁ started, hres₁.withTool hi, h₁.toRunning.withTool hstarted, ?_,
      ongoing_concat h₁.ongoing ⟨rfl, rfl, ?_⟩⟩
    · simp [hquiet]
    · rw [slotLog_append]
      exact hentry ▸ hagrees
    · simp [ResponsesEvent.added?, hi]

theorem Open.streamArguments (h : Open options s events) (hstored : Stored s tool)
    (hreserved : Reserved s) {wasStarted : Bool} {arguments : Option JsString}
    (hdelta : ∀ given, arguments = some given → given ≠ [] → wasStarted = true →
      tool.arguments.take tool.emittedArguments ++ given = tool.arguments) :
    Reaches (streamArguments tool wasStarted arguments) s events fun _ s' events' =>
      Open options s' events' ∧ Reserved s' := by
  unfold Streaming.streamArguments
  cases arguments with
  | none =>
      rw [reaches_pure]
      exact ⟨h, hreserved⟩
  | some given =>
      dsimp only
      refine reaches_whenever (fun hsome => ?_) fun _ => ⟨h, hreserved⟩
      simp only [reaches_bind, reaches_get, reaches_emit, reaches_putTool]
      set delta := if wasStarted then given else tool.arguments.drop tool.emittedArguments
        with hdeltaEq
      have hfull : tool.arguments.take tool.emittedArguments ++ delta = tool.arguments := by
        rw [hdeltaEq]
        split
        · next hwas =>
          refine hdelta given rfl ?_ hwas
          rintro rfl
          simp [hdeltaEq, hwas] at hsome
        · exact List.take_append_drop _ _
      have hstarted : tool.started = true := by
        simp only [Bool.and_eq_true] at hsome
        exact hsome.1
      have hopen : ToolOpen options tool := h.tools hstored
      let streamed : EncodedToolState := { tool with emittedArguments := tool.arguments.length }
      have hstreamed : ToolOpen options streamed := by
        refine ⟨hopen.unbound, hopen.plain, hopen.withheld, ?_, Nat.le_refl _⟩
        simp [streamed, hstarted]
      obtain ⟨i, hi⟩ := hreserved _ _ hstored
      have hagrees : Agrees (outputSlots options (withTool s streamed))
          (slotLog events ++ [.extend i delta]) := by
        refine agrees_streamTool h.agrees hstored hi ?_
        rw [hstreamed.streamedPart, hopen.streamedPart, hfull]
        exact List.take_length
      have hentry : slotLog [.toolDelta (isCustom tool) s.id tool.itemId tool.outputIndex delta] =
          [.extend i delta] := by
        simp [slotLog, ResponsesEvent.slotEntry?, hi]
      refine ⟨⟨h.toRunning.withTool hstreamed, ?_, ongoing_concat h.ongoing ⟨rfl, rfl, ?_⟩⟩,
        hreserved.withTool hi⟩
      · rw [slotLog_append]
        exact hentry ▸ hagrees
      · simp [ResponsesEvent.added?]

/-- A delta for a tool call whose earlier arguments have been streamed. -/
def KeepsUp (tool : EncodedToolState) (arguments : Option JsString) : Prop :=
  tool.started = true → arguments.getD [] ≠ [] → tool.emittedArguments = tool.arguments.length

instance (tool : EncodedToolState) (arguments : Option JsString) :
    Decidable (KeepsUp tool arguments) :=
  inferInstanceAs (Decidable (_ → _))

theorem Open.toolCallDelta (h : Open options s events) (hreserved : Reserved s) {index : JsNumber}
    {id name arguments : Option JsString} {toolType : Option ToolCallType}
    (hkeeps : KeepsItem (Streaming.toolAt s index)
      (mergeToolDelta (Streaming.toolAt s index) id name arguments toolType))
    (hup : KeepsUp (Streaming.toolAt s index) arguments) :
    Reaches (responsesToolCallDelta options index id name arguments toolType) s events
      fun _ s' events' => Open options s' events' ∧ Reserved s' := by
  unfold responsesToolCallDelta
  refine h.ensureResponsesStart.bind ?_
  rintro _ s₁ events₁ ⟨hs₁, h₁⟩
  have htools : s₁.tools = s.tools := by rw [hs₁]
  have hat : Streaming.toolAt s₁ index = Streaming.toolAt s index := by
    rw [Streaming.toolAt, htools, Streaming.toolAt]
  have hreserved₁ : Reserved s₁ := by
    intro key tool htool
    exact hreserved key tool (htools ▸ htool)
  rw [← hat] at hkeeps hup
  refine (h₁.updateTool hkeeps).bind ?_
  rintro tool s₂ events₂ ⟨htool, hs₂, hkey, h₂⟩
  have hstored₂ : Stored s₂ tool := hs₂ ▸ stored_withTool s₁ tool
  refine (h₂.reserve hstored₂ (hs₂ ▸ hreserved₁.others tool)).bind ?_
  rintro tool' s₃ events₃ ⟨⟨i, htool'⟩, hstored₃, hreserved₃, h₃⟩
  split
  · rw [reaches_pure]
    exact ⟨h₃, hreserved₃⟩
  · next hopen =>
    refine (h₃.ensureResponsesToolStarted hstored₃ hreserved₃ (by simpa using hopen)).bind ?_
    rintro tool'' s₄ events₄ ⟨hsame, hstored₄, hreserved₄, h₄⟩
    refine h₄.streamArguments hstored₄ hreserved₄ fun given hgiven hnonempty hwas => ?_
    rw [hsame hwas, htool', htool, hgiven]
    have hstarted : (Streaming.toolAt s₁ index).started = true := by
      rw [htool', htool] at hwas
      exact hwas
    have hall := hup hstarted (by simpa [hgiven] using hnonempty)
    simp only [mergeToolDelta, Option.getD_some, hall, List.take_left']

/-! ## Other events -/

/-- A step that changes neither the tools nor the text. -/
theorem Open.congr (h : Open options s events)
    (hslots : outputSlots options s' = outputSlots options s) (htools : s'.tools = s.tools)
    (htext : s'.responsesTextStarted = s.responsesTextStarted) (hfailed : s'.failed = s.failed)
    (hstopped : s'.stopped = s.stopped)
    (hunreported : s'.responsesFailureEmitted = s.responsesFailureEmitted)
    (hundone : s'.done = s.done) : Open options s' events where
  textIndex := by
    have hindex : s'.responsesTextOutputIndex = s.responsesTextOutputIndex :=
      congrArg (fun v => v.index .text) hslots
    rw [htext, hindex]
    exact h.textIndex
  keyed := by
    rw [htools]
    exact h.keyed
  tools := by
    rw [htools]
    exact h.tools
  failed := hfailed.trans h.failed
  stopped := hstopped.trans h.stopped
  unreported := hunreported.trans h.unreported
  undone := hundone.trans h.undone
  agrees := hslots ▸ h.agrees
  ongoing := h.ongoing

theorem Open.completeEncodedTool (h : Open options s events) (hreserved : Reserved s)
    (index : JsNumber) :
    Reaches (completeEncodedTool index) s events fun _ s' events' =>
      Open options s' events' ∧ Reserved s' := by
  unfold Streaming.completeEncodedTool getTool
  simp only [reaches_bind, reaches_get, reaches_pure]
  cases hfound : s.tools.get? (mapKey index) with
  | none =>
      rw [reaches_pure]
      exact ⟨h, hreserved⟩
  | some tool =>
      dsimp only
      rw [reaches_putTool]
      have hstored : Stored s tool := by
        rw [Stored, h.keyed hfound]
        exact hfound
      let completed : EncodedToolState := { tool with completed := true }
      have hopen : ToolOpen options tool := h.tools hstored
      have hcompleted : ToolOpen options completed :=
        ⟨hopen.unbound, hopen.plain, hopen.withheld, hopen.unsent, hopen.sent⟩
      obtain ⟨i, hi⟩ := hreserved _ _ hstored
      refine ⟨⟨h.toRunning.withTool hcompleted, ?_, h.ongoing⟩, hreserved.withTool hi⟩
      exact agrees_withTool h.agrees hstored.index.symm hstored.item.symm hstored.text.symm

/-- The announced text keeps its item when a `start` event comes. -/
def KeepsId (s : EncoderState) (event : StreamEvent) : Prop :=
  s.responsesTextStarted = true → (noteStart event s).id = s.id

instance (s : EncoderState) (event : StreamEvent) : Decidable (KeepsId s event) :=
  inferInstanceAs (Decidable (_ → _))

theorem Open.noteStart (h : Open options s events) (hid : KeepsId s event) :
    Open options (noteStart event s) events := by
  cases event with
  | start id model createdAt =>
      refine h.congr ?_ rfl rfl rfl rfl rfl rfl
      have hitem : ∀ a, (outputSlots options (Streaming.noteStart (.start id model createdAt) s)).item a
          = (outputSlots options s).item a := by
        rintro (_ | key)
        · simp only [outputSlots, messageItem, messageId]
          by_cases hstarted : s.responsesTextStarted = true
          · rw [hid hstarted]
            rfl
          · rw [if_neg hstarted, if_neg (show ¬(Streaming.noteStart (.start id model createdAt)
              s).responsesTextStarted = true from hstarted)]
        · rfl
      exact congrArg (fun item => { outputSlots options s with
        item }) (funext hitem)
  | _ => exact h

end StonePlus.Streaming
