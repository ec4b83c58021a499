import StonePlus.Lib.Blocks
import StonePlus.Lib.Reaches
import StonePlus.Streaming.Encoder
import StonePlus.Streaming.ToolCalls

/-!
# StonePlus.Streaming.AnthropicBlocks

Content blocks of encoded Anthropic streams: what a reader makes of the frames, and what the
encoder knows of the blocks it has written.

`Writing` ties the state of the encoder to the blocks.  What it says of the block of a tool is a
parameter, so its rules serve streams that go on and streams that are closed.
-/

namespace StonePlus.Streaming

open Lib Effect

/-! ## Events -/

/-- What a content block is started with. -/
inductive BlockItem
  | text
  | toolUse (id name : JsString)
  deriving DecidableEq

def BlockItem.json : BlockItem → JsonObject
  | .text => [(js "type", .string (js "text")), (js "text", .string [])]
  | .toolUse id name => [(js "type", .string (js "tool_use")), (js "id", .string id),
      (js "name", .string name), (js "input", .object [])]

inductive BlockDelta
  | text (delta : JsString)
  | inputJson (partialJson : JsString)
  deriving DecidableEq

def BlockDelta.json : BlockDelta → JsonObject
  | .text delta => [(js "type", .string (js "text_delta")), (js "text", .string delta)]
  | .inputJson partialJson =>
    [(js "type", .string (js "input_json_delta")), (js "partial_json", .string partialJson)]

/-- An event of an Anthropic stream without errors. -/
inductive AnthropicEvent
  | messageStart (message : JsonObject)
  | block (entry : BlockEntry BlockItem BlockDelta)
  | messageDelta (payload : JsonObject)
  | messageStop

def AnthropicEvent.frame : AnthropicEvent → Frame
  | .messageStart message => anthropicSse "message_start" [(js "message", .object message)]
  | .block (.start index item) => blockStart (some index) item.json
  | .block (.extend index delta) => blockDelta (some index) delta.json
  | .block (.stop index) => blockStop (some index)
  | .messageDelta payload => anthropicSse "message_delta" payload
  | .messageStop => anthropicSse "message_stop" []

def AnthropicEvent.entry? : AnthropicEvent → Option (BlockEntry BlockItem BlockDelta)
  | .block entry => some entry
  | _ => none

def blockEntries (log : List AnthropicEvent) : List (BlockEntry BlockItem BlockDelta) :=
  log.filterMap AnthropicEvent.entry?

/-- `message_start` comes first and once. -/
def StartsOnce (log : List AnthropicEvent) : Prop :=
  ∃ message rest, log = .messageStart message :: rest ∧ ∀ m, .messageStart m ∉ rest

abbrev ContentBlock := Block BlockItem BlockDelta

/-- The concatenated `input_json` of a block. -/
def inputJson (pieces : List BlockDelta) : JsString :=
  pieces.flatMap fun
    | .text _ => []
    | .inputJson partialJson => partialJson

/-- Id, name and input of a `tool_use` block. -/
def toolUse? (block : ContentBlock) : Option (JsString × JsString × JsString) :=
  match block.item with
  | .text => none
  | .toolUse id name => some (id, name, inputJson block.pieces)

@[simp] theorem inputJson_append (pieces more : List BlockDelta) :
    inputJson (pieces ++ more) = inputJson pieces ++ inputJson more := List.flatMap_append

@[simp] theorem blockEntries_append (log more : List AnthropicEvent) :
    blockEntries (log ++ more) = blockEntries log ++ blockEntries more := List.filterMap_append

theorem StartsOnce.concat (h : StartsOnce log) (he : ∀ m, e ≠ .messageStart m) :
    StartsOnce (log ++ [e]) := by
  obtain ⟨message, rest, rfl, hrest⟩ := h
  refine ⟨message, rest ++ [e], rfl, fun m hm => ?_⟩
  rcases List.mem_append.mp hm with hm | hm
  · exact hrest m hm
  · exact he m (List.mem_singleton.mp hm).symm

/-! ## State and blocks -/

/-- The block of a tool. -/
def blockOf (blocks : List ContentBlock) (tool : EncodedToolState) : Option ContentBlock :=
  tool.contentIndex.bind fun i => blocks[i]?

/-- The index of the block of a tool. -/
def contentIndexOf (tools : JsMap JsNumber EncodedToolState) (key : JsNumber) : Option Nat :=
  (tools.get? key).bind (·.contentIndex)

/-- The frames, the events they are and the blocks in them. -/
structure Logged (started : Bool) (frames : List Frame) (log : List AnthropicEvent)
    (blocks : List ContentBlock) : Prop where
  written : frames = log.map AnthropicEvent.frame
  begun : started = true → StartsOnce log
  unbegun : started = false → log = []
  reads : readBlocks (blockEntries log) = some blocks

/-- The encoder and the blocks it has written; `status` is what is known of a tool with a key
and its block. -/
structure Writing (status : JsNumber → EncodedToolState → Option ContentBlock → Prop)
    (s : EncoderState) (frames : List Frame) (log : List AnthropicEvent)
    (blocks : List ContentBlock) : Prop extends Logged s.started frames log blocks where
  next : s.anthropicNextContentIndex = blocks.length
  keyed : ∀ {key tool}, s.tools.get? key = some tool → mapKey tool.index = key
  status : ∀ {key tool}, s.tools.get? key = some tool → status key tool (blockOf blocks tool)
  apart : ∀ {key key' i}, contentIndexOf s.tools key = some i →
    contentIndexOf s.tools key' = some i → key = key'
  owned : ∀ {i b id name}, blocks[i]? = some b → b.item = .toolUse id name →
    ∃ key, contentIndexOf s.tools key = some i
  own : ∀ {key i}, contentIndexOf s.tools key = some i → ∃ b, blocks[i]? = some b ∧ b.item ≠ .text
  textOpen : ∀ {i b}, blocks[i]? = some b → b.item = .text → b.stopped = false →
    s.anthropicTextStarted = true ∧ s.anthropicTextClosed = false ∧ s.anthropicTextIndex = some i
  textBlock : s.anthropicTextStarted = true → s.anthropicTextClosed = false →
    ∃ i pieces, s.anthropicTextIndex = some i ∧ blocks[i]? = some ⟨.text, pieces, false⟩
  plain : ∀ {i : Nat} {b}, blocks[i]? = some b → b.item = .text → inputJson b.pieces = []

variable {status status' : JsNumber → EncodedToolState → Option ContentBlock → Prop}
  {s : EncoderState} {frames : List Frame} {log : List AnthropicEvent}
  {blocks : List ContentBlock}

theorem blockOf_append (h : ∀ {i}, tool.contentIndex = some i → i < blocks.length) :
    blockOf (blocks ++ more) tool = blockOf blocks tool := by
  unfold blockOf
  cases hi : tool.contentIndex with
  | none => rfl
  | some i =>
    show (blocks ++ more)[i]? = blocks[i]?
    exact List.getElem?_append_left (h hi)

theorem getElem?_concat_cases {α : Type} {as : List α} {a b : α} (h : (as ++ [a])[i]? = some b) :
    as[i]? = some b ∨ i = as.length ∧ a = b := by
  rw [List.getElem?_append] at h
  split at h
  · exact .inl h
  · next hi =>
    obtain ⟨hlt, hget⟩ := List.getElem?_eq_some_iff.mp h
    rw [List.length_singleton] at hlt
    rw [List.getElem_singleton] at hget
    exact .inr ⟨by omega, hget⟩

theorem blockOf_set (h : tool.contentIndex ≠ some i) :
    blockOf (blocks.set i b) tool = blockOf blocks tool := by
  unfold blockOf
  cases hi : tool.contentIndex with
  | none => rfl
  | some j =>
    show (blocks.set i b)[j]? = blocks[j]?
    exact List.getElem?_set_ne fun heq => h (by rw [hi, heq])

/-! ## Rules -/

/-- A block entry is written. -/
theorem Logged.block (h : Logged true frames log blocks)
    (hreads : readBlocks (blockEntries log ++ [entry]) = some blocks') :
    Logged true (frames ++ [(AnthropicEvent.block entry).frame]) (log ++ [.block entry]) blocks' where
  written := by rw [h.written, List.map_append]; rfl
  begun _ := (h.begun rfl).concat nofun
  unbegun hfalse := nomatch hfalse
  reads := by rw [blockEntries_append]; exact hreads

/-- The message is started. -/
theorem Logged.start (h : Logged false frames log blocks) (message : JsonObject) :
    Logged true (frames ++ [(AnthropicEvent.messageStart message).frame])
      (log ++ [.messageStart message]) blocks where
  written := by rw [h.written, List.map_append]; rfl
  begun _ := ⟨message, [], by rw [h.unbegun rfl]; rfl, by simp⟩
  unbegun hfalse := nomatch hfalse
  reads := by
    rw [blockEntries_append]
    exact (congrArg readBlocks (List.append_nil _)).trans h.reads

/-- An event that is no block entry. -/
theorem Logged.other (h : Logged true frames log blocks) {e : AnthropicEvent}
    (hstart : ∀ m, e ≠ .messageStart m) (hentry : blockEntries [e] = []) :
    Logged true (frames ++ [e.frame]) (log ++ [e]) blocks where
  written := by rw [h.written, List.map_append]; rfl
  begun _ := (h.begun rfl).concat hstart
  unbegun hfalse := nomatch hfalse
  reads := by rw [blockEntries_append, hentry, List.append_nil]; exact h.reads

/-- Only the blocks and the fields about them count. -/
theorem Writing.congr (h : Writing status s frames log blocks) {s' : EncoderState}
    (hstarted : s'.started = s.started)
    (hnext : s'.anthropicNextContentIndex = s.anthropicNextContentIndex)
    (htools : s'.tools = s.tools) (htext : s'.anthropicTextStarted = s.anthropicTextStarted)
    (hclosed : s'.anthropicTextClosed = s.anthropicTextClosed)
    (hindex : s'.anthropicTextIndex = s.anthropicTextIndex) :
    Writing status s' frames log blocks := by
  obtain ⟨hlogged, hnext', hkeyed, hstatus, hapart, howned, hown, hopen, hblock, hplain⟩ := h
  constructor
  · rw [hstarted]; exact hlogged
  · rw [hnext]; exact hnext'
  · rw [htools]; exact hkeyed
  · rw [htools]; exact hstatus
  · rw [htools]; exact hapart
  · rw [htools]; exact howned
  · rw [htools]; exact hown
  · rw [htext, hclosed, hindex]; exact hopen
  · rw [htext, hclosed, hindex]; exact hblock
  · exact hplain

theorem contentIndexOf_eq (htool : tools.get? key = some tool) (hi : tool.contentIndex = some i) :
    contentIndexOf tools key = some i := by
  rw [contentIndexOf, htool]
  exact hi

theorem contentIndexOf_set (tools : JsMap JsNumber EncodedToolState) (key key' : JsNumber)
    (tool : EncodedToolState) : contentIndexOf (tools.set key tool) key' =
      if key' = key then tool.contentIndex else contentIndexOf tools key' := by
  rw [contentIndexOf, JsMap.get?_set]
  split <;> rfl

/-- The block of a tool is not the text block. -/
theorem Writing.ne_text (h : Writing status s frames log blocks)
    (htool : s.tools.get? key = some tool) (hblock : blocks[i]? = some ⟨.text, pieces, stopped⟩) :
    tool.contentIndex ≠ some i := by
  intro hi
  obtain ⟨b, hb, hitem⟩ := h.own (contentIndexOf_eq htool hi)
  rw [hblock] at hb
  cases hb
  exact hitem rfl

/-- Text blocks come and go: the tools do not notice. -/
theorem Writing.setText (h : Writing status s frames log blocks)
    (hblock : blocks[i]? = some ⟨.text, pieces, false⟩)
    (hlogged : Logged s'.started frames' log' (blocks.set i ⟨.text, pieces', stopped⟩))
    (hnext : s'.anthropicNextContentIndex = s.anthropicNextContentIndex)
    (htools : s'.tools = s.tools)
    (hopen : stopped = false → s'.anthropicTextStarted = true ∧ s'.anthropicTextClosed = false ∧
      s'.anthropicTextIndex = some i)
    (hstill : s'.anthropicTextStarted = true → s'.anthropicTextClosed = false →
      stopped = false ∧ s'.anthropicTextIndex = some i) (hplain : inputJson pieces' = []) :
    Writing status s' frames' log' (blocks.set i ⟨.text, pieces', stopped⟩) where
  toLogged := hlogged
  next := by rw [hnext, h.next, List.length_set]
  keyed := by rw [htools]; exact h.keyed
  status := by
    intro key tool htool
    rw [htools] at htool
    rw [blockOf_set (h.ne_text htool hblock)]
    exact h.status htool
  apart := by rw [htools]; exact h.apart
  owned := by
    intro j b id name hb hitem
    rw [htools]
    by_cases hj : i = j
    · rw [← hj, List.getElem?_set_self (List.getElem?_eq_some_iff.mp hblock).1] at hb
      cases hb
      cases hitem
    · rw [List.getElem?_set_ne hj] at hb
      exact h.owned hb hitem
  own := by
    intro key j hj
    rw [htools] at hj
    obtain ⟨b, hb, hitem⟩ := h.own hj
    refine ⟨b, ?_, hitem⟩
    rw [List.getElem?_set_ne, hb]
    rintro rfl
    rw [hblock] at hb
    cases hb
    exact hitem rfl
  textOpen := by
    intro j b hb hitem hstopped
    by_cases hj : i = j
    · rw [← hj, List.getElem?_set_self (List.getElem?_eq_some_iff.mp hblock).1] at hb
      cases hb
      exact hj ▸ hopen hstopped
    · rw [List.getElem?_set_ne hj] at hb
      have hindex := (h.textOpen hblock rfl rfl).2.2
      rw [(h.textOpen hb hitem hstopped).2.2] at hindex
      exact absurd (Option.some.inj hindex).symm hj
  textBlock := by
    intro hstarted hclosed
    obtain ⟨hstopped, hindex⟩ := hstill hstarted hclosed
    refine ⟨i, pieces', hindex, ?_⟩
    rw [List.getElem?_set_self (List.getElem?_eq_some_iff.mp hblock).1, hstopped]
  plain := by
    intro j b hb hitem
    by_cases hj : i = j
    · rw [← hj, List.getElem?_set_self (List.getElem?_eq_some_iff.mp hblock).1] at hb
      cases hb
      exact hplain
    · rw [List.getElem?_set_ne hj] at hb
      exact h.plain hb hitem

/-- No text block is open. -/
def TextClosed (s : EncoderState) : Prop :=
  s.anthropicTextStarted = true → s.anthropicTextClosed = true

theorem Writing.lt_length (h : Writing status s frames log blocks)
    (hi : contentIndexOf s.tools key = some i) : i < blocks.length := by
  obtain ⟨b, hb, -⟩ := h.own hi
  exact (List.getElem?_eq_some_iff.mp hb).1

/-- A block is appended. -/
theorem Writing.getElem?_append (h : Writing status s frames log blocks)
    (htool : s.tools.get? key = some tool) (b : ContentBlock) :
    blockOf (blocks ++ [b]) tool = blockOf blocks tool :=
  blockOf_append fun hi => h.lt_length (contentIndexOf_eq htool hi)

/-- A text block is started. -/
theorem Writing.startText (h : Writing status s frames log blocks) (hstarted : s.started = true)
    (hclosed : TextClosed s) :
    Writing status { s with
        anthropicNextContentIndex := blocks.length + 1
        anthropicTextStarted := true
        anthropicTextClosed := false
        anthropicTextIndex := some blocks.length }
      (frames ++ [blockStart (some blocks.length) BlockItem.text.json])
      (log ++ [.block (.start blocks.length .text)]) (blocks ++ [⟨.text, [], false⟩]) where
  toLogged := by
    have hlogged := h.toLogged
    rw [hstarted] at hlogged
    show Logged s.started _ _ _
    rw [hstarted]
    exact hlogged.block (readBlocks_start h.reads _)
  next := by simp
  keyed := h.keyed
  status := by
    intro key tool htool
    rw [h.getElem?_append htool]
    exact h.status htool
  apart := h.apart
  owned := by
    intro j b id name hb hitem
    rcases getElem?_concat_cases hb with hb | ⟨rfl, rfl⟩
    · exact h.owned hb hitem
    · cases hitem
  own := by
    intro key j hj
    obtain ⟨b, hb, hitem⟩ := h.own hj
    exact ⟨b, by rw [List.getElem?_append_left (List.getElem?_eq_some_iff.mp hb).1, hb], hitem⟩
  textOpen := by
    intro j b hb hitem hstopped
    rcases getElem?_concat_cases hb with hb | ⟨rfl, -⟩
    · obtain ⟨hstarted, hopen, -⟩ := h.textOpen hb hitem hstopped
      rw [hclosed hstarted] at hopen
      cases hopen
    · exact ⟨rfl, rfl, rfl⟩
  textBlock _ _ := ⟨blocks.length, [], rfl, by simp⟩
  plain := by
    intro j b hb hitem
    rcases getElem?_concat_cases hb with hb | ⟨-, rfl⟩
    · exact h.plain hb hitem
    · rfl

theorem get?_set_cases {tools : JsMap JsNumber EncodedToolState}
    (ht : (tools.set key tool).get? key' = some t) :
    key' = key ∧ t = tool ∨ key' ≠ key ∧ tools.get? key' = some t := by
  rw [JsMap.get?_set] at ht
  split at ht
  · next heq => exact .inl ⟨heq, (Option.some.inj ht).symm⟩
  · next hne => exact .inr ⟨hne, ht⟩

/-- A tool is filed without a change to the blocks. -/
theorem Writing.put (h : Writing status s frames log blocks) {key : JsNumber}
    (hkey : mapKey tool.index = key) (hindex : tool.contentIndex = contentIndexOf s.tools key)
    (hself : status' key tool (blockOf blocks tool))
    (hothers : ∀ key', key' ≠ key → ∀ t b, status key' t b → status' key' t b) :
    Writing status' { s with tools := s.tools.set key tool } frames log blocks := by
  have hsame : contentIndexOf (s.tools.set key tool) = contentIndexOf s.tools := by
    funext key'
    rw [contentIndexOf_set, hindex]
    split
    · next heq => rw [heq]
    · rfl
  constructor
  · exact h.toLogged
  · exact h.next
  · intro key' t ht
    rcases get?_set_cases ht with ⟨rfl, rfl⟩ | ⟨-, ht⟩
    · exact hkey
    · exact h.keyed ht
  · intro key' t ht
    rcases get?_set_cases ht with ⟨rfl, rfl⟩ | ⟨hne, ht⟩
    · exact hself
    · exact hothers key' hne t _ (h.status ht)
  · exact hsame ▸ h.apart
  · exact hsame ▸ h.owned
  · exact hsame ▸ h.own
  · exact h.textOpen
  · exact h.textBlock
  · exact h.plain

/-- A block is started for a tool. -/
theorem Writing.startTool (h : Writing status s frames log blocks) (hstarted : s.started = true)
    (hclosed : TextClosed s) {key : JsNumber} {tool : EncodedToolState}
    (hkey : mapKey tool.index = key) (hfree : contentIndexOf s.tools key = none)
    (hindex : tool.contentIndex = some blocks.length) (id name : JsString)
    (hself : status' key tool (some ⟨.toolUse id name, [], false⟩))
    (hothers : ∀ key', key' ≠ key → ∀ t b, status key' t b → status' key' t b) :
    Writing status' { s with
        anthropicNextContentIndex := blocks.length + 1
        tools := s.tools.set key tool }
      (frames ++ [blockStart (some blocks.length) (BlockItem.toolUse id name).json])
      (log ++ [.block (.start blocks.length (.toolUse id name))])
      (blocks ++ [⟨.toolUse id name, [], false⟩]) where
  toLogged := by
    have hlogged := h.toLogged
    rw [hstarted] at hlogged
    show Logged s.started _ _ _
    rw [hstarted]
    exact hlogged.block (readBlocks_start h.reads _)
  next := by simp
  keyed := by
    intro key' t ht
    rcases get?_set_cases ht with ⟨rfl, rfl⟩ | ⟨-, ht⟩
    · exact hkey
    · exact h.keyed ht
  status := by
    intro key' t ht
    rcases get?_set_cases ht with ⟨rfl, rfl⟩ | ⟨hne, ht⟩
    · rw [blockOf, hindex]
      simpa using hself
    · rw [h.getElem?_append ht]
      exact hothers key' hne t _ (h.status ht)
  apart := by
    intro k k' i hk hk'
    rw [contentIndexOf_set, hindex] at hk hk'
    split at hk
    · next heq =>
      split at hk'
      · next heq' => rw [heq, heq']
      · cases hk
        exact absurd (h.lt_length hk') (Nat.lt_irrefl _)
    · split at hk'
      · cases hk'
        exact absurd (h.lt_length hk) (Nat.lt_irrefl _)
      · exact h.apart hk hk'
  owned := by
    intro i b id' name' hb hitem
    rcases getElem?_concat_cases hb with hb | ⟨rfl, -⟩
    · obtain ⟨k, hk⟩ := h.owned hb hitem
      refine ⟨k, ?_⟩
      rw [contentIndexOf_set, if_neg, hk]
      rintro rfl
      rw [hfree] at hk
      cases hk
    · exact ⟨key, by rw [contentIndexOf_set, if_pos rfl, hindex]⟩
  own := by
    intro k i hk
    rw [contentIndexOf_set, hindex] at hk
    split at hk
    · cases hk
      exact ⟨_, List.getElem?_concat_length, nofun⟩
    · obtain ⟨b, hb, hitem⟩ := h.own hk
      exact ⟨b, by rw [List.getElem?_append_left (List.getElem?_eq_some_iff.mp hb).1, hb], hitem⟩
  textOpen := by
    intro i b hb hitem hstopped
    rcases getElem?_concat_cases hb with hb | ⟨-, rfl⟩
    · exact h.textOpen hb hitem hstopped
    · cases hitem
  textBlock := by
    intro htext hopen
    have hopen : s.anthropicTextClosed = false := hopen
    rw [hclosed htext] at hopen
    cases hopen
  plain := by
    intro i b hb hitem
    rcases getElem?_concat_cases hb with hb | ⟨-, rfl⟩
    · exact h.plain hb hitem
    · cases hitem

/-- The block of a tool grows or is stopped. -/
theorem Writing.setTool (h : Writing status s frames log blocks) (hstarted : s.started = true)
    {key : JsNumber} {tool : EncodedToolState} (hkey : mapKey tool.index = key) {i : Nat}
    (hi : tool.contentIndex = some i) (hindex : contentIndexOf s.tools key = some i)
    {block : ContentBlock} {item : BlockItem} {entry : BlockEntry BlockItem BlockDelta}
    (hblock : blocks[i]? = some block) (hitem : block.item = item) (hne : item ≠ .text)
    {block' : ContentBlock} (hitem' : block'.item = item)
    (hreads : readBlocks (blockEntries log ++ [entry]) = some (blocks.set i block'))
    (hself : status' key tool (some block'))
    (hothers : ∀ key', key' ≠ key → ∀ t b, status key' t b → status' key' t b) :
    Writing status' { s with tools := s.tools.set key tool }
      (frames ++ [(AnthropicEvent.block entry).frame]) (log ++ [.block entry])
      (blocks.set i block') := by
  have hlt := (List.getElem?_eq_some_iff.mp hblock).1
  have hsame : contentIndexOf (s.tools.set key tool) = contentIndexOf s.tools := by
    funext key'
    rw [contentIndexOf_set, hi]
    split
    · next heq => rw [heq, hindex]
    · rfl
  constructor
  · have hlogged := h.toLogged
    rw [hstarted] at hlogged
    show Logged s.started _ _ _
    rw [hstarted]
    exact hlogged.block hreads
  · rw [List.length_set]
    exact h.next
  · intro key' t ht
    rcases get?_set_cases ht with ⟨rfl, rfl⟩ | ⟨-, ht⟩
    · exact hkey
    · exact h.keyed ht
  · intro key' t ht
    rcases get?_set_cases ht with ⟨rfl, rfl⟩ | ⟨hne, ht⟩
    · rw [blockOf, hi]
      simpa [hlt] using hself
    · rw [blockOf_set fun hj => hne (h.apart (contentIndexOf_eq ht hj) hindex)]
      exact hothers key' hne t _ (h.status ht)
  · exact hsame ▸ h.apart
  · intro j b id name hb hbitem
    rw [hsame]
    by_cases hj : i = j
    · exact ⟨key, hj ▸ hindex⟩
    · rw [List.getElem?_set_ne hj] at hb
      exact h.owned hb hbitem
  · intro k j hk
    rw [hsame] at hk
    by_cases hj : i = j
    · exact ⟨block', by rw [← hj, List.getElem?_set_self hlt], by rw [hitem']; exact hne⟩
    · obtain ⟨b, hb, hbitem⟩ := h.own hk
      exact ⟨b, by rw [List.getElem?_set_ne hj, hb], hbitem⟩
  · intro j b hb hbitem hstopped
    by_cases hj : i = j
    · rw [← hj, List.getElem?_set_self hlt] at hb
      cases hb
      exact absurd (hitem'.symm.trans hbitem) hne
    · rw [List.getElem?_set_ne hj] at hb
      exact h.textOpen hb hbitem hstopped
  · intro htext hopen
    obtain ⟨j, pieces, hj, hb⟩ := h.textBlock htext hopen
    refine ⟨j, pieces, hj, ?_⟩
    rw [List.getElem?_set_ne, hb]
    rintro rfl
    rw [hblock] at hb
    cases hb
    exact hne hitem.symm
  · intro j b hb hbitem
    by_cases hj : i = j
    · rw [← hj, List.getElem?_set_self hlt] at hb
      cases hb
      exact absurd (hitem'.symm.trans hbitem) hne
    · rw [List.getElem?_set_ne hj] at hb
      exact h.plain hb hbitem

end StonePlus.Streaming
