import StonePlus.Streaming.AnthropicBlocks

/-!
# StonePlus.Streaming.AnthropicEncoding

Anthropic streams: their blocks are in order, and when the `tool_use` blocks are the tool calls.

The block of a call is started as soon as the call has an id and a name (`announced`).  Fragments
of them that come later are lost, and so are arguments that came earlier unless the delta that
completes the id and the name carries arguments too.  `streamsTools_iff` says that this is all
that can go wrong, besides calls that never get an id.
-/

namespace StonePlus.Streaming

open Lib Effect

/-! ## Announced calls -/

/-- The events of the stream: after `done` nothing is encoded. -/
def untilDone (events : List StreamEvent) : List StreamEvent := events.takeWhile fun e => !isDone e

/-- What is known of a call when its block is started; `held` are arguments that stay behind. -/
structure Announcement where
  id : JsString
  name : JsString
  held : JsString
  deriving DecidableEq

/-- The call under a key is announced by a delta that leaves it with an id and a name. -/
def announcement (key : JsNumber) (tools : JsMap JsNumber EncodedToolState) :
    StreamEvent → Option Announcement
  | .toolCallDelta index _ _ arguments _ _ =>
    if mapKey index = key then
      (tools.get? key).bind fun tool =>
        if tool.id = [] ∨ tool.name = [] then none
        else some ⟨tool.id, tool.name, if arguments.isNone then tool.arguments else []⟩
    else none
  | _ => none

/-- The first announcement in events that follow others. -/
def announcedAfter (key : JsNumber) (tools : JsMap JsNumber EncodedToolState) :
    List StreamEvent → Option Announcement
  | [] => none
  | event :: events =>
    (announcement key (noteTool tools event) event).or
      (announcedAfter key (noteTool tools event) events)

def announced (key : JsNumber) (events : List StreamEvent) : Option Announcement :=
  announcedAfter key ∅ events

theorem foldTools_concat (events : List StreamEvent) (event : StreamEvent) :
    foldTools (events ++ [event]) = noteTool (foldTools events) event := by
  simp [foldTools]

theorem announced_concat (key : JsNumber) (events : List StreamEvent) (event : StreamEvent) :
    announced key (events ++ [event]) =
      (announced key events).or (announcement key (foldTools (events ++ [event])) event) := by
  unfold announced foldTools
  generalize (∅ : JsMap JsNumber EncodedToolState) = tools
  induction events generalizing tools with
  | nil => simp [announcedAfter]
  | cons first events ih =>
    simp only [List.cons_append, announcedAfter, List.foldl_cons, ih, Option.or_assoc]

/-! ## The same calls -/

def callFields (tool : EncodedToolState) : JsString × JsString × JsString :=
  (tool.id, tool.name, tool.arguments)

/-- Tools that differ only in what the encoder notes of its output. -/
structure SameTools (tools tools' : JsMap JsNumber EncodedToolState) : Prop where
  keys : tools.keys = tools'.keys
  fields : ∀ key, (tools.get? key).map callFields = (tools'.get? key).map callFields

theorem keys_set {κ ν : Type} [DecidableEq κ] (m : JsMap κ ν) (k : κ) (v : ν) :
    (m.set k v).keys = if k ∈ m.keys then m.keys else m.keys ++ [k] :=
  JsMap.keys_setEntries k v m.entries

theorem SameTools.set (h : SameTools tools tools') (key : JsNumber)
    (htool : callFields tool = callFields tool') :
    SameTools (tools.set key tool) (tools'.set key tool') where
  keys := by rw [keys_set, keys_set, h.keys]
  fields key' := by
    rw [JsMap.get?_set, JsMap.get?_set]
    split
    · exact congrArg some htool
    · exact h.fields key'

/-- A tool is filed again. -/
theorem SameTools.put (h : SameTools tools tools') (hold : tools.get? key = some old)
    (htool : callFields tool = callFields old) : SameTools (tools.set key tool) tools' where
  keys := by
    rw [keys_set, if_pos (JsMap.mem_keys_iff.mpr ⟨old, hold⟩), h.keys]
  fields key' := by
    rw [JsMap.get?_set]
    split
    · next heq =>
      rw [heq, ← h.fields key, hold]
      exact congrArg some htool
    · exact h.fields key'

theorem callFields_mergeToolDelta (h : callFields tool = callFields tool')
    (id name arguments : Option JsString) (toolType : Option ToolCallType) :
    callFields (mergeToolDelta tool id name arguments toolType) =
      callFields (mergeToolDelta tool' id name arguments toolType) := by
  simp only [callFields, Prod.mk.injEq] at h
  simp only [callFields, mergeToolDelta, h.1, h.2.1, h.2.2]

/-! ## Tools of a stream that goes on -/

/-- A call that has been announced has an open block with the announced id and name.  `rest` is
what came after the announcement, or with it. -/
def OngoingTool (tool : EncodedToolState) (block : Option ContentBlock) :
    Option Announcement → Prop
  | none => tool.started = false ∧ tool.contentIndex = none ∧ tool.emittedArguments = 0 ∧
      (tool.id = [] ∨ tool.name = [])
  | some a => tool.started = true ∧ ∃ pieces rest,
      block = some ⟨.toolUse a.id a.name, pieces, false⟩ ∧ tool.arguments = a.held ++ rest ∧
        inputJson pieces = rest ∧
        tool.emittedArguments = if rest = [] then 0 else tool.arguments.length

def ongoing (seen : List StreamEvent) (key : JsNumber) (tool : EncodedToolState)
    (block : Option ContentBlock) : Prop := OngoingTool tool block (announced key seen)

/-- The encoder after `seen`. -/
structure Ongoing (seen : List StreamEvent) (s : EncoderState) (frames : List Frame) : Prop where
  writing : ∃ log blocks, Writing (ongoing seen) s frames log blocks
  same : SameTools s.tools (foldTools seen)
  failed : s.failed = false
  stopped : s.stopped = false
  undone : s.done = false

theorem ongoing_init (options : EncodingOptions) :
    Ongoing [] (.init .anthropicMessages options) [] where
  writing := ⟨[], [], {
    written := rfl
    begun := fun h => nomatch h
    unbegun := fun _ => rfl
    reads := rfl
    next := rfl
    keyed := fun h => nomatch h
    status := fun h => nomatch h
    apart := fun h => nomatch h
    owned := fun h => nomatch h
    own := fun h => nomatch h
    textOpen := fun h => nomatch h
    textBlock := fun h => nomatch h
    plain := fun h => nomatch h }⟩
  same := ⟨rfl, fun _ => rfl⟩
  failed := rfl
  stopped := rfl
  undone := rfl

/-! ## Parts of the encoder -/

variable {status status' : JsNumber → EncodedToolState → Option ContentBlock → Prop}
  {s : EncoderState} {frames : List Frame} {log : List AnthropicEvent}
  {blocks : List ContentBlock} {seen : List StreamEvent}

theorem Writing.ensureStart (h : Writing status s frames log blocks) :
    Reaches ensureAnthropicStart s frames fun _ s' frames' =>
      s' = { s with started := true } ∧ ∃ log', Writing status s' frames' log' blocks := by
  unfold ensureAnthropicStart
  simp only [reaches_bind, reaches_get]
  split
  · next hstarted =>
    rw [reaches_pure]
    have hs : s = { s with started := true } := by rw [← hstarted]
    exact ⟨hs, log, h⟩
  · next hstarted =>
    simp only [reaches_bind, reaches_modify, reaches_get, reaches_emit]
    have hfalse : s.started = false := by simpa using hstarted
    obtain ⟨hlogged, hnext, hkeyed, hstatus, hapart, howned, hown, hopen, hblock, hplain⟩ := h
    rw [hfalse] at hlogged
    exact ⟨trivial, _, ⟨hlogged.start _, hnext, hkeyed, hstatus, hapart, howned, hown, hopen,
      hblock, hplain⟩⟩

theorem Writing.closeText (h : Writing status s frames log blocks) (hstarted : s.started = true) :
    Reaches closeAnthropicText s frames fun _ s' frames' =>
      (∃ closed, s' = { s with anthropicTextClosed := closed }) ∧ TextClosed s' ∧
        ∃ log' blocks', Writing status s' frames' log' blocks' := by
  unfold closeAnthropicText
  simp only [reaches_bind, reaches_get]
  refine reaches_whenever (fun hopen => ?_) fun hclosed => ?_
  · simp only [reaches_bind, reaches_modify, reaches_emit]
    simp only [Bool.and_eq_true, Bool.not_eq_true'] at hopen
    obtain ⟨i, pieces, hi, hblock⟩ := h.textBlock hopen.1 hopen.2
    refine ⟨⟨true, rfl⟩, fun _ => rfl, log ++ [.block (.stop i)],
      blocks.set i ⟨.text, pieces, true⟩, h.setText hblock ?_ rfl rfl (by simp) (by simp)
        (h.plain hblock rfl)⟩
    rw [hi]
    show Logged s.started _ _ _
    have hlogged := h.toLogged
    rw [hstarted] at hlogged ⊢
    exact hlogged.block (readBlocks_stop h.reads hblock)
  · refine ⟨⟨s.anthropicTextClosed, rfl⟩, fun htext => ?_, log, blocks, h⟩
    simpa [htext] using hclosed

/-- Nothing but the text block and the next index has changed. -/
def SameCalls (s s' : EncoderState) : Prop :=
  s'.tools = s.tools ∧ s'.id = s.id ∧ s'.failed = s.failed ∧ s'.stopped = s.stopped ∧
    s'.done = s.done

/-- A delta of the text block that is open. -/
theorem Writing.extendText (h : Writing status s frames log blocks) (hstarted : s.started = true)
    (hi : s.anthropicTextIndex = some i) (hblock : blocks[i]? = some ⟨.text, pieces, false⟩)
    (text : JsString) :
    Writing status s (frames ++ [blockDelta s.anthropicTextIndex (BlockDelta.text text).json])
      (log ++ [.block (.extend i (.text text))])
      (blocks.set i ⟨.text, pieces ++ [.text text], false⟩) := by
  refine h.setText hblock ?_ rfl rfl (fun _ => h.textOpen hblock rfl rfl) (fun _ _ => ⟨rfl, hi⟩) ?_
  swap
  · rw [inputJson_append, h.plain hblock rfl]
    rfl
  have hlogged := h.toLogged
  rw [hstarted] at hlogged ⊢
  rw [hi]
  exact hlogged.block (readBlocks_extend h.reads hblock (.text text))

theorem Writing.textDelta (h : Writing status s frames log blocks) (text : JsString) :
    Reaches (anthropicTextDelta text) s frames fun _ s' frames' =>
      SameCalls s s' ∧ ∃ log' blocks', Writing status s' frames' log' blocks' := by
  unfold anthropicTextDelta
  refine h.ensureStart.bind ?_
  rintro _ s₁ frames₁ ⟨hs₁, log₁, h₁⟩
  have hstarted : s₁.started = true := by rw [hs₁]
  have hsame : SameCalls s s₁ := by rw [hs₁]; exact ⟨rfl, rfl, rfl, rfl, rfl⟩
  simp only [reaches_bind, reaches_get]
  refine (reaches_whenever (fun hclosed => ?_) fun hopen => ?_ :
    Reaches _ s₁ frames₁ fun _ s₂ frames₂ => SameCalls s₁ s₂ ∧ s₂.started = true ∧
      ∃ log₂ blocks₂ i pieces, Writing status s₂ frames₂ log₂ blocks₂ ∧
        s₂.anthropicTextIndex = some i ∧ blocks₂[i]? = some ⟨.text, pieces, false⟩).mono ?_
  · simp only [nextContentIndex, reaches_bind, reaches_get, reaches_modify, reaches_pure,
      reaches_emit, h₁.next]
    refine ⟨⟨rfl, rfl, rfl, rfl, rfl⟩, hstarted, _, _, blocks.length, [],
      h₁.startText hstarted ?_, rfl, List.getElem?_concat_length⟩
    simpa [TextClosed, Decidable.not_or_of_imp, imp_iff_not_or] using hclosed
  · simp only [Bool.or_eq_true, Bool.not_eq_true', not_or, Bool.not_eq_false,
      Bool.not_eq_true] at hopen
    obtain ⟨i, pieces, hi, hblock⟩ := h₁.textBlock hopen.1 hopen.2
    exact ⟨⟨rfl, rfl, rfl, rfl, rfl⟩, hstarted, log₁, blocks, i, pieces, h₁, hi, hblock⟩
  · rintro - s₂ frames₂ ⟨hsame₂, hstarted₂, log₂, blocks₂, i, pieces, h₂, hi, hblock⟩
    simp only [reaches_emit]
    obtain ⟨htools, hid, hfailed, hstopped, hdone⟩ := hsame₂
    exact ⟨⟨htools.trans hsame.1, hid.trans hsame.2.1, hfailed.trans hsame.2.2.1,
      hstopped.trans hsame.2.2.2.1, hdone.trans hsame.2.2.2.2⟩, _, _,
      h₂.extendText hstarted₂ hi hblock text⟩

/-- The id in the block of a tool. -/
def blockId (responseId : JsString) (tool : EncodedToolState) : JsString :=
  if tool.id = [] then responseId ++ js "_tool_" ++ tool.index.toJsString else tool.id

/-- Everything but the tools is as it was, for another tool. -/
structure FiledTool (s s' : EncoderState) (key : JsNumber) (tool : EncodedToolState) : Prop where
  tools : s'.tools = s.tools.set key tool
  id : s'.id = s.id
  failed : s'.failed = s.failed
  stopped : s'.stopped = s.stopped
  done : s'.done = s.done
  started : s'.started = s.started
  text : TextClosed s → TextClosed s'

theorem Writing.ensureToolStarted (h : Writing status s frames log blocks)
    (hstarted : s.started = true) {key : JsNumber} {tool : EncodedToolState}
    (hkey : mapKey tool.index = key) (hfree : contentIndexOf s.tools key = none)
    (hwaiting : tool.started = false) {force : Bool}
    (hready : force = true ∨ tool.id ≠ [] ∧ tool.name ≠ [])
    (hself : ∀ i, status' key { tool with started := true, contentIndex := some i }
      (some ⟨.toolUse (blockId s.id tool) tool.name, [], false⟩))
    (hothers : ∀ key', key' ≠ key → ∀ t b, status key' t b → status' key' t b) :
    Reaches (ensureAnthropicToolStarted tool force) s frames fun tool' s' frames' =>
      (∃ i, tool' = { tool with started := true, contentIndex := some i }) ∧
        FiledTool s s' key tool' ∧ TextClosed s' ∧
        ∃ log' blocks', Writing status' s' frames' log' blocks' := by
  have hgo : ¬(tool.started || (!force && (tool.id.isEmpty || tool.name.isEmpty))) = true := by
    rcases hready with rfl | ⟨hid, hname⟩
    · simp [hwaiting]
    · simp [hwaiting, hid, hname]
  unfold ensureAnthropicToolStarted
  rw [if_neg hgo]
  refine (h.closeText hstarted).bind ?_
  rintro _ s₁ frames₁ ⟨⟨closed, hs₁⟩, hclosed, log₁, blocks₁, h₁⟩
  simp only [nextContentIndex, putTool, reaches_bind, reaches_get, reaches_modify, reaches_pure,
    reaches_emit, h₁.next, hkey]
  subst hs₁
  exact ⟨⟨_, rfl⟩, ⟨rfl, rfl, rfl, rfl, rfl, rfl, fun _ => hclosed⟩, hclosed, _, _,
    @Writing.startTool _ status' _ _ _ _ h₁ hstarted hclosed key
      { tool with started := true, contentIndex := some blocks₁.length } hkey hfree rfl
      (blockId s.id tool) tool.name (hself _) hothers⟩

/-- Arguments go to the block of a tool. -/
theorem Writing.sendArguments (h : Writing status s frames log blocks) (hstarted : s.started = true)
    {key : JsNumber} {tool : EncodedToolState} (hkey : mapKey tool.index = key) {i : Nat}
    (hi : tool.contentIndex = some i) (hindex : contentIndexOf s.tools key = some i)
    {id name : JsString} {pieces : List BlockDelta}
    (hblock : blocks[i]? = some ⟨.toolUse id name, pieces, false⟩) (delta : JsString)
    (hself : status' key { tool with emittedArguments := tool.arguments.length }
      (some ⟨.toolUse id name, pieces ++ [.inputJson delta], false⟩))
    (hothers : ∀ key', key' ≠ key → ∀ t b, status key' t b → status' key' t b) :
    Reaches (do
        emit (inputJsonDelta tool.contentIndex delta)
        putTool { tool with emittedArguments := tool.arguments.length }) s frames
      fun _ s' frames' =>
        FiledTool s s' key { tool with emittedArguments := tool.arguments.length } ∧
          ∃ log' blocks', Writing status' s' frames' log' blocks' := by
  have hframe : inputJsonDelta tool.contentIndex delta =
      (AnthropicEvent.block (.extend i (.inputJson delta))).frame := by
    rw [hi]
    rfl
  simp only [putTool, reaches_bind, reaches_emit, reaches_modify, hkey, hframe]
  exact ⟨⟨rfl, rfl, rfl, rfl, rfl, rfl, fun h => h⟩, _, _, @Writing.setTool _ status' _ _ _ _ h hstarted key
    { tool with emittedArguments := tool.arguments.length } hkey i hi hindex _ _
    (.extend i (.inputJson delta)) hblock rfl (by simp)
    ⟨.toolUse id name, pieces ++ [.inputJson delta], false⟩ rfl
    (readBlocks_extend h.reads hblock (.inputJson delta)) hself hothers⟩

/-- More or less may be known of the tools. -/
theorem Writing.mono (h : Writing status s frames log blocks)
    (hstatus : ∀ {key tool}, s.tools.get? key = some tool → ∀ b, status key tool b →
      status' key tool b) : Writing status' s frames log blocks where
  toLogged := h.toLogged
  next := h.next
  keyed := h.keyed
  status htool := hstatus htool _ (h.status htool)
  apart := h.apart
  owned := h.owned
  own := h.own
  textOpen := h.textOpen
  textBlock := h.textBlock
  plain := h.plain

/-! ## Deltas of tool calls -/

theorem prefix_mergeStreamedIdentity (current incoming : JsString) :
    current <+: mergeStreamedIdentity current incoming := by
  unfold mergeStreamedIdentity
  split
  · exact List.prefix_rfl
  · split
    · next h =>
      rcases h with rfl | h
      · exact List.nil_prefix
      · exact List.isPrefixOf_iff_prefix.mp h
    · exact List.prefix_append _ _

/-- A call grows. -/
structure Grows (tool tool' : EncodedToolState) : Prop where
  id : tool.id <+: tool'.id
  name : tool.name <+: tool'.name
  arguments : tool.arguments <+: tool'.arguments

theorem grows_mergeToolDelta (tool : EncodedToolState) (id name arguments : Option JsString)
    (toolType : Option ToolCallType) :
    Grows tool (mergeToolDelta tool id name arguments toolType) where
  id := by
    cases id with
    | none => exact List.prefix_rfl
    | some id => exact prefix_mergeStreamedIdentity tool.id id
  name := by
    cases name with
    | none => exact List.prefix_rfl
    | some name => exact prefix_mergeStreamedIdentity tool.name name
  arguments := List.prefix_append _ _

theorem grows_noteTool (h : tools.get? key = some tool) (event : StreamEvent) :
    ∃ tool', (noteTool tools event).get? key = some tool' ∧ Grows tool tool' := by
  cases event with
  | toolCallDelta index id name arguments toolType outputIndex =>
    simp only [noteTool, JsMap.get?_set]
    split
    · next heq =>
      rw [← heq, h]
      exact ⟨_, rfl, grows_mergeToolDelta tool id name arguments toolType⟩
    · exact ⟨tool, h, List.prefix_rfl, List.prefix_rfl, List.prefix_rfl⟩
  | _ => exact ⟨tool, h, List.prefix_rfl, List.prefix_rfl, List.prefix_rfl⟩

theorem announcement_eq_some (h : announcement key tools event = some a) :
    ∃ tool, tools.get? key = some tool ∧ tool.id ≠ [] ∧ tool.name ≠ [] ∧ a.id = tool.id ∧
      a.name = tool.name ∧ (a.held = tool.arguments ∨ a.held = []) := by
  unfold announcement at h
  split at h
  · split at h
    · obtain ⟨tool, htool, h⟩ := Option.bind_eq_some_iff.mp h
      split at h
      · cases h
      · next hboth =>
        rw [not_or] at hboth
        cases h
        refine ⟨tool, htool, hboth.1, hboth.2, rfl, rfl, ?_⟩
        dsimp only
        split
        · exact .inl rfl
        · exact .inr rfl
    · cases h
  · cases h

/-- An announced call is there, and what was announced stays. -/
theorem announced_le (h : announced key seen = some a) :
    ∃ tool, (foldTools seen).get? key = some tool ∧ a.id <+: tool.id ∧ a.name <+: tool.name ∧
      a.held <+: tool.arguments ∧ a.id ≠ [] ∧ a.name ≠ [] := by
  induction seen using List.reverseRecOn with
  | nil => cases h
  | append_singleton seen event ih =>
    rw [announced_concat, foldTools_concat] at h
    rw [foldTools_concat]
    cases hold : announced key seen with
    | some a' =>
      rw [hold, Option.some_or, Option.some.injEq] at h
      subst h
      obtain ⟨tool, htool, hid, hname, hheld, hne⟩ := ih hold
      obtain ⟨tool', htool', hgrows⟩ := grows_noteTool htool event
      exact ⟨tool', htool', hid.trans hgrows.id, hname.trans hgrows.name,
        hheld.trans hgrows.arguments, hne⟩
    | none =>
      rw [hold, Option.none_or] at h
      obtain ⟨tool, htool, hid, hname, hida, hnamea, hheld⟩ := announcement_eq_some h
      refine ⟨tool, htool, hida ▸ List.prefix_rfl, hnamea ▸ List.prefix_rfl, ?_, hida ▸ hid,
        hnamea ▸ hname⟩
      rcases hheld with hheld | hheld
      · exact hheld ▸ List.prefix_rfl
      · exact hheld ▸ List.nil_prefix

/-- What is known while the tool under a key is at work. -/
def focused (status : JsNumber → EncodedToolState → Option ContentBlock → Prop) (key : JsNumber)
    (P : EncodedToolState → Option ContentBlock → Prop) (key' : JsNumber)
    (tool : EncodedToolState) (block : Option ContentBlock) : Prop :=
  if key' = key then P tool block else status key' tool block

theorem focused_self : focused status key P key tool block ↔ P tool block := by
  rw [focused, if_pos rfl]

theorem focused_other (hne : key' ≠ key) :
    focused status key P key' tool block ↔ status key' tool block := by
  rw [focused, if_neg hne]

/-- The tool at work is as the stream needs it again. -/
theorem Writing.unfocus (h : Writing (focused status key P) s frames log blocks)
    (hself : ∀ tool block, P tool block → status key tool block) :
    Writing status s frames log blocks := by
  refine h.mono fun {key' tool} _ block hfocused => ?_
  by_cases heq : key' = key
  · rw [heq, focused_self] at hfocused
    exact heq ▸ hself tool block hfocused
  · exact (focused_other heq).mp hfocused

/-- The rest of `anthropicToolCallDelta`, once the tool has been updated. -/
def streamToolDelta (tool : EncodedToolState) (arguments : Option JsString) :
    Encoding Frame Unit := do
  let started ← ensureAnthropicToolStarted tool false
  match arguments with
  | none => pure ()
  | some arguments =>
    let delta := if tool.started then arguments else tool.arguments.drop tool.emittedArguments
    whenever (started.started && !delta.isEmpty) do
      emit (inputJsonDelta started.contentIndex delta)
      putTool { started with emittedArguments := started.arguments.length }

theorem anthropicToolCallDelta_eq (index : JsNumber) (id name arguments : Option JsString)
    (toolType : Option ToolCallType) :
    anthropicToolCallDelta index id name arguments toolType = (do
      ensureAnthropicStart
      let tool ← updateTool index id name arguments toolType
      streamToolDelta tool arguments) := rfl

/-- The tools are those of the encoder, but for its notes. -/
structure Kept (s s' : EncoderState) : Prop where
  same : ∀ {tools}, SameTools s.tools tools → SameTools s'.tools tools
  failed : s'.failed = s.failed
  stopped : s'.stopped = s.stopped
  done : s'.done = s.done

theorem Kept.refl (s : EncoderState) : Kept s s := ⟨id, rfl, rfl, rfl⟩

theorem Kept.trans (h : Kept s s') (h' : Kept s' s'') : Kept s s'' :=
  ⟨fun hs => h'.same (h.same hs), h'.failed.trans h.failed, h'.stopped.trans h.stopped,
    h'.done.trans h.done⟩

theorem FiledTool.kept {s s' : EncoderState} {key : JsNumber} {old tool : EncodedToolState}
    (h : FiledTool s s' key tool) (hold : s.tools.get? key = some old)
    (htool : callFields tool = callFields old) : Kept s s' :=
  ⟨fun hs => h.tools ▸ hs.put hold htool, h.failed, h.stopped, h.done⟩

/-- A delta of a call that has been announced. -/
theorem Writing.streamAnnounced {key : JsNumber} {old tool : EncodedToolState}
    {arguments : Option JsString} {a : Announcement}
    (h : Writing (focused (ongoing seen) key fun t b => t = tool ∧ OngoingTool old b (some a)) s frames log
      blocks) (hstarted : s.started = true) (htool : s.tools.get? key = some tool)
    (hrunning : tool.started = old.started) (hindex : tool.contentIndex = old.contentIndex)
    (hemitted : tool.emittedArguments = old.emittedArguments)
    (harguments : tool.arguments = old.arguments ++ arguments.getD [])
    (ha : announced key seen = some a) :
    Reaches (streamToolDelta tool arguments) s frames fun _ s' frames' =>
      Kept s s' ∧ ∃ log' blocks', Writing (ongoing seen) s' frames' log' blocks' := by
  obtain ⟨-, hold⟩ := focused_self.mp (h.status htool)
  obtain ⟨hrun, pieces, rest, hblock, hrest, hinput, hsent⟩ := hold
  rw [hrun] at hrunning
  unfold streamToolDelta ensureAnthropicToolStarted
  rw [hrunning]
  simp only [Bool.true_or, if_true, reaches_bind, reaches_pure]
  have hquiet : arguments.getD [] = [] → Writing (ongoing seen) s frames log blocks := by
    intro hnil
    refine h.unfocus ?_
    rintro t b ⟨ht, hb⟩
    subst ht
    obtain ⟨hrun, pieces, rest, hblock, hrest, hinput, hsent⟩ := hb
    rw [ongoing, ha]
    refine ⟨hrunning, pieces, rest, hblock, ?_, hinput, ?_⟩
    · rw [harguments, hnil, List.append_nil, hrest]
    · rw [hemitted, harguments, hnil, List.append_nil, hsent]
  cases arguments with
  | none =>
    rw [reaches_pure]
    exact ⟨Kept.refl s, log, blocks, hquiet rfl⟩
  | some arguments =>
    refine reaches_whenever (fun hsome => ?_) fun hnone => ?_
    · have hne : arguments ≠ [] := by simpa [hrunning] using hsome
      obtain ⟨i, hi, hb⟩ := Option.bind_eq_some_iff.mp hblock
      have hlength : rest ++ arguments ≠ [] := by simp [hne]
      refine (@Writing.sendArguments _ (ongoing seen) _ _ _ _ h hstarted key tool (h.keyed htool) i
        hi (contentIndexOf_eq htool hi) a.id a.name pieces hb arguments ?_ fun key' hkey' t b =>
          (focused_other hkey').mp).mono fun _ s' frames' h =>
        ⟨h.1.kept htool rfl, h.2⟩
      rw [ongoing, ha]
      refine ⟨hrunning, _, rest ++ arguments, rfl, ?_, by simp [inputJson, ← hinput], ?_⟩
      · rw [← List.append_assoc, ← hrest]
        exact harguments
      · rw [if_neg hlength]
    · have hnil : arguments = [] := by simpa [hrunning] using hnone
      exact ⟨Kept.refl s, log, blocks, hquiet hnil⟩

/-- A delta of a call that has not been announced, and may be now. -/
theorem Writing.streamWaiting {key : JsNumber} {tool : EncodedToolState}
    {arguments : Option JsString}
    (h : Writing (focused (ongoing seen) key fun t _ => t = tool) s frames log blocks)
    (hstarted : s.started = true) (htool : s.tools.get? key = some tool)
    (hwaiting : tool.started = false) (hindex : tool.contentIndex = none)
    (hemitted : tool.emittedArguments = 0)
    (ha : announced key seen = if tool.id = [] ∨ tool.name = [] then none
      else some ⟨tool.id, tool.name, if arguments.isNone then tool.arguments else []⟩) :
    Reaches (streamToolDelta tool arguments) s frames fun _ s' frames' =>
      Kept s s' ∧ ∃ log' blocks', Writing (ongoing seen) s' frames' log' blocks' := by
  unfold streamToolDelta
  by_cases hready : tool.id = [] ∨ tool.name = []
  · have hskip : ensureAnthropicToolStarted tool false = pure tool := by
      rw [ensureAnthropicToolStarted, if_pos (by simpa using .inr hready)]
    have hongoing : Writing (ongoing seen) s frames log blocks := by
      refine h.unfocus fun t b ht => ?_
      rw [ongoing, ha, if_pos hready, ht]
      exact ⟨hwaiting, hindex, hemitted, hready⟩
    simp only [hskip, reaches_bind, reaches_pure]
    cases arguments with
    | none => exact (reaches_pure ()).mpr ⟨Kept.refl s, log, blocks, hongoing⟩
    | some arguments =>
      refine reaches_whenever (fun hsome => ?_) fun _ => ⟨Kept.refl s, log, blocks, hongoing⟩
      simp [hwaiting] at hsome
  · rw [if_neg hready] at ha
    obtain ⟨hid, hname⟩ := not_or.mp hready
    have hfree : contentIndexOf s.tools key = none := by rw [contentIndexOf, htool]; exact hindex
    refine (@Writing.ensureToolStarted _ (focused (ongoing seen) key fun t b => (∃ i, t =
        { tool with started := true, contentIndex := some i }) ∧
        b = some ⟨.toolUse tool.id tool.name, [], false⟩) _ _ _ _ h hstarted key tool
      (h.keyed htool) hfree hwaiting false (.inr ⟨hid, hname⟩) (fun i => ?_)
      fun key' hkey' t b hb => (focused_other hkey').mpr ((focused_other hkey').mp hb)).bind ?_
    · rw [focused_self, blockId, if_neg hid]
      exact ⟨⟨i, rfl⟩, rfl⟩
    · rintro tool₁ s₁ frames₁ ⟨⟨i, rfl⟩, hfiled, hclosed, log₁, blocks₁, h₁⟩
      have hkept : Kept s s₁ := hfiled.kept htool rfl
      have htool₁ : s₁.tools.get? key =
          some { tool with started := true, contentIndex := some i } := by
        rw [hfiled.tools, JsMap.get?_set_self]
      obtain ⟨-, hblock⟩ := focused_self.mp (h₁.status htool₁)
      -- nothing to send: the arguments stay behind, or there are none
      have hquiet : (arguments.isNone ∨ tool.arguments = []) →
          Writing (ongoing seen) s₁ frames₁ log₁ blocks₁ := by
        intro hnone
        refine h₁.unfocus ?_
        rintro t b ⟨⟨j, ht⟩, hb⟩
        rw [ongoing, ha, ht]
        refine ⟨rfl, [], [], hb, ?_, rfl, hemitted⟩
        rw [List.append_nil]
        rcases hnone with hnone | hnil
        · exact (if_pos hnone).symm
        · dsimp only
          rw [hnil]
          split <;> rfl
      cases arguments with
      | none => exact (reaches_pure ()).mpr ⟨hkept, log₁, blocks₁, hquiet (.inl rfl)⟩
      | some arguments =>
        have hdelta : (if tool.started = true then arguments
            else tool.arguments.drop tool.emittedArguments) = tool.arguments := by
          simp [hwaiting, hemitted]
        dsimp only
        rw [hdelta]
        refine reaches_whenever (fun hsome => ?_) fun hnil => ?_
        · have hne : tool.arguments ≠ [] := by simpa using hsome
          refine (@Writing.sendArguments _ (ongoing seen) _ _ _ _ h₁ (hfiled.started.trans hstarted)
            key { tool with started := true, contentIndex := some i } (h₁.keyed htool₁) i rfl
            (contentIndexOf_eq htool₁ rfl) tool.id tool.name [] hblock tool.arguments ?_
            fun key' hkey' t b => (focused_other hkey').mp).mono
            fun _ s' frames' h => ⟨hkept.trans (h.1.kept htool₁ rfl), h.2⟩
          rw [ongoing, ha]
          exact ⟨rfl, _, tool.arguments, rfl, rfl, by simp [inputJson], by simp [hne]⟩
        · exact ⟨hkept, log₁, blocks₁, hquiet (.inr (by simpa using hnil))⟩

/-- A delta says nothing of the other calls. -/
theorem announced_other (hne : key' ≠ key) (hkey : mapKey index = key)
    (id name arguments : Option JsString) (toolType : Option ToolCallType)
    (outputIndex : Option JsNumber) :
    announced key' (seen ++ [.toolCallDelta index id name arguments toolType outputIndex]) =
      announced key' seen := by
  rw [announced_concat]
  have hnone : announcement key'
      (foldTools (seen ++ [.toolCallDelta index id name arguments toolType outputIndex]))
      (.toolCallDelta index id name arguments toolType outputIndex) = none := by
    rw [announcement, if_neg]
    exact fun heq => hne (heq.symm.trans hkey)
  rw [hnone, Option.or_none]

/-- The tool of a delta as it was: the one under the key, or a new one. -/
theorem Ongoing.old (h : Ongoing seen s frames)
    (hwriting : Writing (ongoing seen) s frames log blocks) (index : JsNumber) :
    let old := (s.tools.get? (mapKey index)).getD { index }
    mapKey old.index = mapKey index ∧
      callFields old = callFields (((foldTools seen).get? (mapKey index)).getD { index }) ∧
      OngoingTool old (blockOf blocks old) (announced (mapKey index) seen) ∧
      contentIndexOf s.tools (mapKey index) = old.contentIndex := by
  have hfields := h.same.fields (mapKey index)
  cases htool : s.tools.get? (mapKey index) with
  | some old =>
    rw [htool] at hfields
    cases hseen : (foldTools seen).get? (mapKey index) with
    | none => simp [hseen] at hfields
    | some tool =>
      rw [hseen] at hfields
      exact ⟨hwriting.keyed htool, Option.some.inj hfields, hwriting.status htool, by
        rw [contentIndexOf, htool]; rfl⟩
  | none =>
    rw [htool] at hfields
    have hseen : (foldTools seen).get? (mapKey index) = none := by
      rw [← Option.map_eq_none_iff, ← hfields]
      rfl
    have hannounced : announced (mapKey index) seen = none := by
      cases ha : announced (mapKey index) seen with
      | none => rfl
      | some a =>
        obtain ⟨tool, htool, -⟩ := announced_le ha
        rw [hseen] at htool
        cases htool
    rw [hseen, hannounced]
    exact ⟨rfl, rfl, ⟨rfl, rfl, rfl, .inl rfl⟩, by rw [contentIndexOf, htool]; rfl⟩

theorem Ongoing.toolCallDelta (h : Ongoing seen s frames) (index : JsNumber)
    (id name arguments : Option JsString) (toolType : Option ToolCallType)
    (outputIndex : Option JsNumber) :
    Reaches (anthropicToolCallDelta index id name arguments toolType) s frames
      fun _ s' frames' => Ongoing
        (seen ++ [.toolCallDelta index id name arguments toolType outputIndex]) s' frames' := by
  obtain ⟨log, blocks, hwriting⟩ := h.writing
  obtain ⟨hkey, hfields, hold, hindex⟩ := h.old hwriting index
  rw [anthropicToolCallDelta_eq]
  refine hwriting.ensureStart.bind ?_
  rintro _ s₁ frames₁ ⟨hs₁, log₁, h₁⟩
  have htools : s₁.tools = s.tools := by rw [hs₁]
  simp only [updateTool, getTool, putTool, reaches_bind, reaches_get, reaches_pure, reaches_modify]
  rw [htools]
  generalize (s.tools.get? (mapKey index)).getD { index } = old at hkey hfields hold hindex ⊢
  have hkeyTool : mapKey (mergeToolDelta old id name arguments toolType).index = mapKey index :=
    hkey
  have hsame := h.same.set (mapKey index)
    (callFields_mergeToolDelta hfields id name arguments toolType)
  have hannounced := announced_concat (mapKey index) seen
    (.toolCallDelta index id name arguments toolType outputIndex)
  rw [foldTools_concat, announcement, if_pos rfl] at hannounced
  generalize htool : mergeToolDelta old id name arguments toolType = tool at hkeyTool hsame ⊢
  rw [hkeyTool]
  have h₂ : Writing (focused
      (ongoing (seen ++ [.toolCallDelta index id name arguments toolType outputIndex]))
      (mapKey index) fun t b => t = tool ∧ OngoingTool old b (announced (mapKey index) seen))
      { s₁ with tools := s.tools.set (mapKey index) tool } frames₁ log₁ blocks := by
    rw [← htools]
    refine h₁.put hkeyTool ?_ ?_ fun key' hne t b hb => ?_
    · rw [htools, hindex, ← htool]
      rfl
    · rw [focused_self, ← htool]
      exact ⟨rfl, hold⟩
    · rw [focused_other hne, ongoing, announced_other hne rfl]
      exact hb
  have hstarted : s₁.started = true := by rw [hs₁]
  have hget : (s.tools.set (mapKey index) tool).get? (mapKey index) = some tool :=
    JsMap.get?_set_self _ _ _
  have hfinish : ∀ s' frames', Kept { s₁ with tools := s.tools.set (mapKey index) tool } s' →
      (∃ log' blocks', Writing (ongoing (seen ++
        [.toolCallDelta index id name arguments toolType outputIndex])) s' frames' log' blocks') →
      Ongoing (seen ++ [.toolCallDelta index id name arguments toolType outputIndex]) s'
        frames' := by
    intro s' frames' hkept hwriting'
    refine ⟨hwriting', hkept.same ?_, ?_, ?_, ?_⟩
    · rw [foldTools_concat]
      exact hsame
    · rw [hkept.failed, hs₁]
      exact h.failed
    · rw [hkept.stopped, hs₁]
      exact h.stopped
    · rw [hkept.done, hs₁]
      exact h.undone
  cases ha : announced (mapKey index) seen with
  | some a =>
    rw [ha] at h₂ hannounced
    refine (h₂.streamAnnounced hstarted hget ?_ ?_ ?_ ?_ hannounced).mono
      fun _ s' frames' h => hfinish s' frames' h.1 h.2 <;>
      rw [← htool] <;> rfl
  | none =>
    rw [ha, Option.none_or] at hannounced
    rw [ha] at hold h₂
    obtain ⟨hwaiting, hfree, hemitted, -⟩ := hold
    have hfieldsTool := hsame.fields (mapKey index)
    simp only [JsMap.get?_set_self, Option.map_some, Option.some.injEq, callFields,
      Prod.mk.injEq] at hfieldsTool
    simp only [noteTool, JsMap.get?_set_self, Option.bind_some, ← hfieldsTool.1,
      ← hfieldsTool.2.1, ← hfieldsTool.2.2] at hannounced
    refine ((h₂.mono fun {key' t} _ b hb => ?_).streamWaiting hstarted hget ?_ ?_ ?_
      hannounced).mono fun _ s' frames' h => hfinish s' frames' h.1 h.2
    · by_cases hne : key' = mapKey index
      · rw [hne, focused_self] at hb ⊢
        exact hb.1
      · rw [focused_other hne] at hb ⊢
        exact hb
    · rw [← htool]; exact hwaiting
    · rw [← htool]; exact hfree
    · rw [← htool]; exact hemitted

/-! ## Runs -/

/-- Events that are no deltas of calls say nothing of them. -/
theorem Ongoing.skip (h : Ongoing seen s frames) (hevent : isToolDelta event = false) :
    Ongoing (seen ++ [event]) s frames := by
  have hfold : foldTools (seen ++ [event]) = foldTools seen := by
    rw [foldTools_concat]
    cases event with
    | toolCallDelta => cases hevent
    | _ => rfl
  have hannounced : ongoing (seen ++ [event]) = ongoing seen := by
    funext key
    unfold ongoing
    rw [announced_concat]
    cases event with
    | toolCallDelta => cases hevent
    | _ => rw [announcement, Option.or_none]; exact nofun
  exact ⟨hannounced ▸ h.writing, hfold ▸ h.same, h.failed, h.stopped, h.undone⟩

/-- Only the blocks, the tools and the flags count. -/
theorem Ongoing.congr (h : Ongoing seen s frames) (id model : JsString) (createdAt : JsNumber)
    (usage : CanonicalUsage) (pendingStop : Option CanonicalStopReason) :
    Ongoing seen { s with id, model, createdAt, usage, pendingStop } frames := by
  obtain ⟨⟨log, blocks, hwriting⟩, hsame, hfailed, hstopped, hdone⟩ := h
  exact ⟨⟨log, blocks, hwriting.congr rfl rfl rfl rfl rfl rfl⟩, hsame, hfailed, hstopped, hdone⟩

theorem Ongoing.encodeAnthropic (h : Ongoing seen s frames) {event : StreamEvent}
    (herror : isError event = false) (hdone : isDone event = false) :
    Reaches (encodeAnthropic event) s frames fun _ s' frames' =>
      Ongoing (seen ++ [event]) s' frames' := by
  cases event with
  | textDelta text index contentType =>
    obtain ⟨log, blocks, hwriting⟩ := h.writing
    refine (hwriting.textDelta text).mono ?_
    rintro _ s' frames' ⟨hsame, hwriting'⟩
    obtain ⟨htools, -, hfailed, hstopped, hundone⟩ := hsame
    exact Ongoing.skip ⟨hwriting', htools ▸ h.same, hfailed.trans h.failed,
      hstopped.trans h.stopped, hundone.trans h.undone⟩ rfl
  | toolCallDelta index id name arguments toolType outputIndex =>
    exact h.toolCallDelta index id name arguments toolType outputIndex
  | usage usage =>
    simp only [Streaming.encodeAnthropic, mergeEncodedUsage, reaches_bind, reaches_modify,
      reaches_get]
    refine reaches_whenever (fun hstop => ?_) fun _ =>
      (h.congr _ _ _ _ _).skip rfl
    exact absurd hstop (by simp [h.stopped])
  | stop reason rawReason =>
    simp only [Streaming.encodeAnthropic, notePendingStop, reaches_modify]
    exact (h.congr _ _ _ _ _).skip rfl
  | error => cases herror
  | done => cases hdone
  | start | reasoningProgress | toolCallComplete | messageComplete =>
    exact (reaches_pure ()).mpr (h.skip rfl)

theorem Ongoing.noteStart (h : Ongoing seen s frames) (event : StreamEvent) :
    Ongoing seen (noteStart event s) frames := by
  cases event with
  | start => exact h.congr _ _ _ _ _
  | _ => exact h

/-- The encoder after events of an open stream. -/
theorem Ongoing.encodeAll (h : Ongoing seen s frames) (options : EncodingOptions)
    (herror : ∀ e ∈ events, isError e = false) (hdone : ∀ e ∈ events, isDone e = false) :
    Ongoing (seen ++ events) (encodeAll .anthropicMessages options s events).2
      (frames ++ (encodeAll .anthropicMessages options s events).1) := by
  induction events generalizing seen s frames with
  | nil => simpa [Streaming.encodeAll] using h
  | cons event events ih =>
    have hstep : Ongoing (seen ++ [event]) (encode .anthropicMessages options s event).2
        (frames ++ (encode .anthropicMessages options s event).1) := by
      obtain ⟨_, -, hpost⟩ := ((h.noteStart event).encodeAnthropic (herror event (by simp))
        (hdone event (by simp))).run
      unfold encode
      rw [h.undone]
      exact hpost
    have hrest := ih hstep (fun e he => herror e (List.mem_cons_of_mem _ he))
      fun e he => hdone e (List.mem_cons_of_mem _ he)
    rw [List.append_assoc, List.singleton_append, List.append_assoc] at hrest
    exact hrest

end StonePlus.Streaming
