import Mathlib.Algebra.Order.BigOperators.Group.List
import StonePlus.Streaming.AnthropicClosing

/-!
# StonePlus.Streaming.AnthropicCalls

Whole Anthropic streams: when they carry the tool calls of the events.
-/

namespace StonePlus.Streaming

open Lib Effect

variable {s : EncoderState} {frames : List Frame} {log : List AnthropicEvent}
  {blocks : List ContentBlock} {seen : List StreamEvent}

/-! ## What is expected -/

/-- `message_start` comes first and once, blocks are started under 0, 1, 2 and so on, grow only
while they are open, and each is stopped once. -/
structure Disciplined (log : List AnthropicEvent) (blocks : List ContentBlock) : Prop where
  startsOnce : StartsOnce log
  reads : readBlocks (blockEntries log) = some blocks
  starts : startIndices (blockEntries log) = List.range blocks.length
  stops : (stopIndices (blockEntries log)).Perm (List.range blocks.length)

/-- Frames of a disciplined stream whose `tool_use` blocks are the calls of the events. -/
def CarriesCalls (events : List StreamEvent) (frames : List Frame) : Prop :=
  ∃ log blocks, frames = log.map AnthropicEvent.frame ∧ Disciplined log blocks ∧
    (blocks.filterMap toolUse?).Perm ((foldTools (untilDone events)).values.map callFields)

/-- Every call has an id in the end.  Its id and name are those it is announced with, and no
arguments come after others have been held back. -/
def AnnouncedInFull (events : List StreamEvent) : Prop :=
  ∀ e ∈ (foldTools (untilDone events)).entries, e.2.id ≠ [] ∧
    ∀ a ∈ announced e.1 (untilDone events), a.id = e.2.id ∧ a.name = e.2.name ∧
      (a.held = [] ∨ a.held = e.2.arguments)

instance (events : List StreamEvent) : Decidable (AnnouncedInFull events) :=
  inferInstanceAs (Decidable (∀ e ∈ _, _))

/-! ## The blocks of a closed stream -/

theorem Finished.stopped (h : Finished seen s frames log blocks) (hb : b ∈ blocks) :
    b.stopped = true := by
  obtain ⟨i, hi⟩ := List.getElem?_of_mem hb
  cases hitem : b.item with
  | text =>
    cases hstopped : b.stopped with
    | true => rfl
    | false =>
      obtain ⟨hstarted, hopen, -⟩ := h.writing.textOpen hi hitem hstopped
      rw [h.text hstarted] at hopen
      cases hopen
  | toolUse id name =>
    obtain ⟨key, hkey⟩ := h.writing.owned hi hitem
    obtain ⟨tool, htool, hindex⟩ := Option.bind_eq_some_iff.mp hkey
    obtain ⟨pieces, hblock, -⟩ := h.writing.status htool
    rw [blockOf, hindex, Option.bind_some, hi] at hblock
    cases hblock
    rfl

theorem Finished.disciplined (h : Finished seen s frames log blocks) : Disciplined log blocks where
  startsOnce := h.writing.begun h.started
  reads := h.writing.reads
  starts := startIndices_eq_range h.writing.reads
  stops := stopIndices_perm_range h.writing.reads fun _ hb => h.stopped hb

/-- What is delivered for the call under a key. -/
def deliveredAt (seen : List StreamEvent) (s : EncoderState) (key : JsNumber) :
    Option (JsString × JsString × JsString) :=
  (s.tools.get? key).map fun tool => delivered s.id tool (announced key seen)

theorem Finished.deliveredAt (h : Finished seen s frames log blocks) (key : JsNumber) :
    deliveredAt seen s key =
      (contentIndexOf s.tools key).bind fun i => blocks[i]?.bind toolUse? := by
  cases htool : s.tools.get? key with
  | none => simp [Streaming.deliveredAt, contentIndexOf, htool]
  | some tool =>
    obtain ⟨pieces, hblock, hinput⟩ := h.writing.status htool
    obtain ⟨i, hi, hb⟩ := Option.bind_eq_some_iff.mp hblock
    simp only [Streaming.deliveredAt, contentIndexOf, htool, Option.map_some, Option.bind_some, hi,
      hb, toolUse?, hinput]

theorem filterMap_filter_isSome {α β : Type} (f : α → Option β) (as : List α) :
    (as.filter fun a => (f a).isSome).filterMap f = as.filterMap f := by
  induction as with
  | nil => rfl
  | cons a as ih =>
    cases h : f a <;> simp [h, ih]

theorem filterMap_range {α β : Type} (f : α → Option β) (as : List α) :
    (List.range as.length).filterMap (fun i => as[i]?.bind f) = as.filterMap f := by
  induction as using List.reverseRecOn with
  | nil => rfl
  | append_singleton as a ih =>
    rw [List.length_append, List.length_singleton, List.range_succ, List.filterMap_append,
      List.filterMap_append, ← ih]
    congr 1
    · refine List.filterMap_congr fun i hi => ?_
      rw [List.getElem?_append_left (List.mem_range.mp hi)]
    · simp [List.filterMap_cons]

/-- The `tool_use` blocks are the calls, in some order. -/
theorem Finished.perm (h : Finished seen s frames log blocks) :
    (blocks.filterMap toolUse?).Perm (s.tools.keys.filterMap (Streaming.deliveredAt seen s)) := by
  have hkeys : s.tools.keys.filterMap (Streaming.deliveredAt seen s) =
      (s.tools.keys.filterMap (contentIndexOf s.tools)).filterMap
        fun i => blocks[i]?.bind toolUse? := by
    rw [List.filterMap_filterMap]
    exact List.filterMap_congr fun key _ => h.deliveredAt key
  rw [hkeys, ← filterMap_range toolUse? blocks, ← filterMap_filter_isSome]
  refine List.Perm.filterMap _ ((List.perm_ext_iff_of_nodup ?_ ?_).mpr fun i => ?_)
  · exact List.nodup_range.filter _
  · exact s.tools.nodup_keys.filterMap fun k k' i hi hi' => h.writing.apart hi hi'
  · rw [List.mem_filter, List.mem_filterMap, List.mem_range]
    constructor
    · rintro ⟨-, hsome⟩
      obtain ⟨final, hfinal⟩ := Option.isSome_iff_exists.mp hsome
      obtain ⟨b, hb, htool⟩ := Option.bind_eq_some_iff.mp hfinal
      cases hitem : b.item with
      | text => simp [toolUse?, hitem] at htool
      | toolUse id name =>
        obtain ⟨key, hkey⟩ := h.writing.owned hb hitem
        obtain ⟨tool, htool, -⟩ := Option.bind_eq_some_iff.mp hkey
        exact ⟨key, JsMap.mem_keys_iff.mpr ⟨tool, htool⟩, hkey⟩
    · rintro ⟨key, -, hkey⟩
      refine ⟨h.writing.lt_length hkey, ?_⟩
      obtain ⟨tool, htool, hindex⟩ := Option.bind_eq_some_iff.mp hkey
      obtain ⟨pieces, hblock, -⟩ := h.writing.status htool
      rw [blockOf, hindex, Option.bind_some] at hblock
      simp [hblock, toolUse?]

/-! ## Frames and calls -/

/-- The item of a frame that starts a block. -/
def frameItem : Frame → Option BlockItem
  | .event name payload =>
    if name = js "content_block_start" then
      (objectValue (payload.prop "content_block")).map fun block =>
        if block.prop "type" = literal "text" then .text
        else .toolUse (stringValue (block.prop "id") []) (stringValue (block.prop "name") [])
    else none
  | _ => none

/-- The length of the `partial_json` of a frame. -/
def frameJson : Frame → Nat
  | .event name payload =>
    if name = js "content_block_delta" then
      (stringValue ((objectValue (payload.prop "delta")).bind (·.prop "partial_json")) []).length
    else 0
  | _ => 0

def deltaLength : BlockDelta → Nat
  | .text _ => 0
  | .inputJson partialJson => partialJson.length

theorem length_inputJson (pieces : List BlockDelta) :
    (inputJson pieces).length = (pieces.map deltaLength).sum := by
  induction pieces with
  | nil => rfl
  | cons piece pieces ih =>
    rw [List.map_cons, List.sum_cons, ← ih]
    cases piece with
    | text => simp [inputJson, deltaLength]
    | inputJson => simp [inputJson, deltaLength]

theorem prop_sse (event key : String) (payload : JsonObject) (h : js "type" ≠ js key) :
    JsonObject.prop ((js "type", .string (js event)) :: payload) key = payload.prop key := by
  simp [JsonObject.prop, Json.property?, h]

theorem readItem_json (item : BlockItem) :
    (if item.json.prop "type" = literal "text" then BlockItem.text
      else .toolUse (stringValue (item.json.prop "id") []) (stringValue (item.json.prop "name") [])) =
      item := by
  cases item with
  | text => rfl
  | toolUse id name =>
    simp +decide [BlockItem.json, JsonObject.prop, Json.property?, literal, stringValue]

theorem length_json_delta (delta : BlockDelta) :
    (stringValue (delta.json.prop "partial_json") []).length = deltaLength delta := by
  cases delta <;> rfl

theorem frameItem_frame (e : AnthropicEvent) :
    frameItem e.frame = e.entry?.bind BlockEntry.item? := by
  match e with
  | .messageStart message | .messageDelta payload | .messageStop
  | .block (.extend index delta) | .block (.stop index) => rfl
  | .block (.start index item) =>
    have hblock : JsonObject.prop ((js "type", .string (js "content_block_start")) ::
        omitUndefined [("index", optionalIndex (some index)),
          ("content_block", some (.object item.json))]) "content_block" =
        some (.object item.json) := by
      rw [prop_sse _ _ _ (by decide)]
      simp +decide [prop_omitUndefined_cons, prop_omitUndefined_nil]
    simp only [AnthropicEvent.frame, blockStart, anthropicSse, frameItem, hblock, objectValue,
      Option.map_some, if_true, readItem_json, AnthropicEvent.entry?, Option.bind_some,
      BlockEntry.item?]

theorem frameJson_frame (e : AnthropicEvent) :
    frameJson e.frame = ((e.entry?.bind BlockEntry.piece?).map deltaLength).getD 0 := by
  match e with
  | .messageStart message | .messageDelta payload | .messageStop
  | .block (.start index item) | .block (.stop index) => rfl
  | .block (.extend index delta) =>
    have hdelta : JsonObject.prop ((js "type", .string (js "content_block_delta")) ::
        omitUndefined [("index", optionalIndex (some index)),
          ("delta", some (.object delta.json))]) "delta" = some (.object delta.json) := by
      rw [prop_sse _ _ _ (by decide)]
      simp +decide [prop_omitUndefined_cons, prop_omitUndefined_nil]
    simp only [AnthropicEvent.frame, blockDelta, anthropicSse, frameJson, hdelta, objectValue,
      Option.bind_some, if_true, length_json_delta, AnthropicEvent.entry?, BlockEntry.piece?,
      Option.map_some, Option.getD_some]

/-- The items of the blocks can be read off the frames. -/
theorem map_item_of_frames (hreads : readBlocks (blockEntries log) = some blocks) :
    blocks.map Block.item = (log.map AnthropicEvent.frame).filterMap frameItem := by
  rw [map_item_eq hreads, blockEntries, List.filterMap_filterMap, List.filterMap_map]
  exact List.filterMap_congr fun e _ => (frameItem_frame e).symm

/-- The length of all `partial_json` can be read off the frames. -/
theorem sum_json_of_frames (hreads : readBlocks (blockEntries log) = some blocks) :
    (blocks.map fun b => (inputJson b.pieces).length).sum =
      ((log.map AnthropicEvent.frame).map frameJson).sum := by
  simp only [length_inputJson]
  rw [sum_pieces_eq hreads deltaLength, blockEntries, List.filterMap_filterMap, List.map_map]
  clear hreads
  induction log with
  | nil => rfl
  | cons e log ih =>
    rw [List.map_cons, List.sum_cons, ← ih, List.filterMap_cons, Function.comp_apply,
      frameJson_frame]
    cases e.entry?.bind BlockEntry.piece? with
    | none => simp
    | some delta => simp

/-! ## Calls and what is delivered -/

theorem blockId_ne_nil (responseId : JsString) (tool : EncodedToolState) :
    blockId responseId tool ≠ [] := by
  unfold blockId
  split
  · simp +decide
  · assumption

theorem delivered_id_ne_nil (responseId : JsString) (tool : EncodedToolState) :
    (delivered responseId tool (announced key seen)).1 ≠ [] := by
  cases ha : announced key seen with
  | none => exact blockId_ne_nil responseId tool
  | some a =>
    obtain ⟨-, -, -, -, -, hid, -⟩ := announced_le ha
    exact hid

/-- Held arguments are delivered if there are none, or if nothing follows. -/
theorem input_eq_iff (held rest : JsString) :
    (if held ++ rest = held then held else (held ++ rest).drop held.length) = held ++ rest ↔
      held = [] ∨ held = held ++ rest := by
  rw [List.drop_left]
  by_cases hrest : rest = []
  · simp [hrest]
  · simp [hrest]

/-- A call is delivered as it is just when it is announced in full. -/
theorem delivered_eq_iff (responseId : JsString) (htool : (foldTools seen).get? key = some tool)
    (hfields : callFields tool' = callFields tool) :
    delivered responseId tool' (announced key seen) = callFields tool ↔
      tool.id ≠ [] ∧ ∀ a ∈ announced key seen, a.id = tool.id ∧ a.name = tool.name ∧
        (a.held = [] ∨ a.held = tool.arguments) := by
  simp only [callFields, Prod.mk.injEq] at hfields
  cases ha : announced key seen with
  | none =>
    simp only [delivered, callFields, hfields.2.1, hfields.2.2, Prod.mk.injEq, and_true]
    constructor
    · intro hid
      exact ⟨hid ▸ blockId_ne_nil responseId tool', fun a h => (by cases h)⟩
    · rintro ⟨hid, -⟩
      rw [blockId, hfields.1, if_neg hid]
  | some a =>
    obtain ⟨found, hfound, -, -, ⟨rest, hrest⟩, hne, -⟩ := announced_le ha
    obtain rfl : found = tool := Option.some.inj (hfound.symm.trans htool)
    simp only [delivered, callFields, hfields.2.2, Prod.mk.injEq, Option.mem_def,
      Option.some.injEq, forall_eq']
    rw [← hrest, input_eq_iff]
    constructor
    · rintro ⟨hida, hnamea, hheld⟩
      exact ⟨hida ▸ hne, hida, hnamea, hheld⟩
    · exact fun h => h.2

/-- The length of a call. -/
def callLength (call : JsString × JsString × JsString) : Nat :=
  call.1.length + call.2.1.length + call.2.2.length

/-- Nothing is delivered that is not part of the call, unless an id has to be made up. -/
theorem delivered_le (responseId : JsString) (htool : (foldTools seen).get? key = some tool)
    (hfields : callFields tool' = callFields tool) (hid : tool.id ≠ []) :
    callLength (delivered responseId tool' (announced key seen)) ≤ callLength (callFields tool) ∧
      (callLength (delivered responseId tool' (announced key seen)) =
          callLength (callFields tool) →
        delivered responseId tool' (announced key seen) = callFields tool) := by
  simp only [callFields, Prod.mk.injEq] at hfields
  cases ha : announced key seen with
  | none =>
    have hsame : delivered responseId tool' none = callFields tool := by
      simp only [delivered, blockId, hfields.1, if_neg hid, hfields.2.1, hfields.2.2, callFields]
    rw [hsame]
    exact ⟨le_rfl, fun _ => rfl⟩
  | some a =>
    obtain ⟨found, hfound, hidle, hnamele, ⟨rest, hrest⟩, -⟩ := announced_le ha
    obtain rfl : found = tool := Option.some.inj (hfound.symm.trans htool)
    have hinput : (if a.held ++ rest = a.held then a.held
        else (a.held ++ rest).drop a.held.length).length ≤ (a.held ++ rest).length := by
      split
      · simp
      · simp
    have hidlength := hidle.length_le
    have hnamelength := hnamele.length_le
    simp only [delivered, callFields, callLength, hfields.2.2, ← hrest]
    refine ⟨by omega, fun hsum => ?_⟩
    rw [hidle.eq_of_length (by omega), hnamele.eq_of_length (by omega)]
    have hlength : (if a.held ++ rest = a.held then a.held
        else (a.held ++ rest).drop a.held.length).length = (a.held ++ rest).length := by omega
    have hsuffix : (if a.held ++ rest = a.held then a.held
        else (a.held ++ rest).drop a.held.length) = a.held ++ rest := by
      split at hlength
      · next heq => rw [if_pos heq, heq]
      · next hne =>
        rw [if_neg hne]
        exact (List.drop_suffix _ _).eq_of_length hlength
    rw [hsuffix]

/-! ## Sums -/

def itemLength : BlockItem → Nat
  | .text => 0
  | .toolUse id name => id.length + name.length

theorem sum_calls_le (blocks : List ContentBlock) :
    ((blocks.filterMap toolUse?).map callLength).sum ≤ ((blocks.map Block.item).map itemLength).sum +
      (blocks.map fun b => (inputJson b.pieces).length).sum := by
  induction blocks with
  | nil => simp
  | cons b blocks ih =>
    simp only [List.map_cons, List.sum_cons, List.filterMap_cons]
    cases hitem : b.item with
    | text =>
      simp only [toolUse?, hitem, itemLength]
      omega
    | toolUse id name =>
      simp only [toolUse?, hitem, itemLength, callLength, List.map_cons, List.sum_cons]
      omega

theorem sum_calls_eq (hplain : ∀ b ∈ blocks, b.item = .text → inputJson b.pieces = []) :
    ((blocks.filterMap toolUse?).map callLength).sum = ((blocks.map Block.item).map itemLength).sum +
      (blocks.map fun b => (inputJson b.pieces).length).sum := by
  induction blocks with
  | nil => simp
  | cons b blocks ih =>
    rw [List.forall_mem_cons] at hplain
    have ih := ih hplain.2
    simp only [List.map_cons, List.sum_cons, List.filterMap_cons]
    cases hitem : b.item with
    | text =>
      simp only [toolUse?, hitem, itemLength, hplain.1 hitem, List.length_nil]
      omega
    | toolUse id name =>
      simp only [toolUse?, hitem, itemLength, callLength, List.map_cons, List.sum_cons]
      omega

theorem eq_of_sum_le {α : Type} {as : List α} {f g : α → Nat} (hle : ∀ a ∈ as, f a ≤ g a)
    (hsum : (as.map g).sum ≤ (as.map f).sum) : ∀ a ∈ as, f a = g a := by
  induction as with
  | nil => simp
  | cons a as ih =>
    rw [List.forall_mem_cons] at hle ⊢
    simp only [List.map_cons, List.sum_cons] at hsum
    have hrest : (as.map f).sum ≤ (as.map g).sum := List.sum_le_sum hle.2
    exact ⟨by have := hle.1; omega, ih hle.2 (by have := hle.1; omega)⟩

/-- The ids of the calls are given by the items. -/
theorem map_fst_calls (blocks : List ContentBlock) :
    (blocks.filterMap toolUse?).map (fun call => call.1) = (blocks.map Block.item).filterMap fun
      | .text => none
      | .toolUse id _ => some id := by
  induction blocks with
  | nil => rfl
  | cons b blocks ih =>
    rw [List.map_cons, List.filterMap_cons, List.filterMap_cons, ← ih]
    cases hitem : b.item <;> simp [toolUse?, hitem]

/-! ## Streams -/

/-- The calls of the events and what is delivered for them. -/
theorem Finished.exists_delivered (h : Finished seen s frames log blocks)
    (he : e ∈ (foldTools seen).entries) :
    ∃ tool, Streaming.deliveredAt seen s e.1 = some (delivered s.id tool (announced e.1 seen)) ∧
      callFields tool = callFields e.2 := by
  have hget : (foldTools seen).get? e.1 = some e.2 := JsMap.get?_eq_some_iff.mpr he
  have hfields := h.same.fields e.1
  rw [hget, Option.map_some, Option.map_eq_some_iff] at hfields
  obtain ⟨tool, htool, hfields⟩ := hfields
  exact ⟨tool, by rw [Streaming.deliveredAt, htool]; rfl, hfields⟩

/-- What is delivered for the call of an entry. -/
def deliveredFor (seen : List StreamEvent) (s : EncoderState) (e : JsNumber × EncodedToolState) :
    JsString × JsString × JsString :=
  (Streaming.deliveredAt seen s e.1).getD ([], [], [])

theorem Finished.perm_entries (h : Finished seen s frames log blocks) :
    (blocks.filterMap toolUse?).Perm ((foldTools seen).entries.map (deliveredFor seen s)) := by
  refine h.perm.trans (List.Perm.of_eq ?_)
  rw [h.same.keys, JsMap.keys, List.filterMap_map, ← List.filterMap_eq_map]
  refine List.filterMap_congr fun e he => ?_
  obtain ⟨tool, htool, -⟩ := h.exists_delivered he
  simp only [Function.comp_apply, deliveredFor, htool, Option.getD_some]

theorem Finished.carries_iff {events : List StreamEvent}
    (h : Finished (untilDone events) s frames log blocks) :
    CarriesCalls events frames ↔ AnnouncedInFull events := by
  have hentry : ∀ e ∈ (foldTools (untilDone events)).entries,
      deliveredFor (untilDone events) s e = callFields e.2 ↔ e.2.id ≠ [] ∧
        ∀ a ∈ announced e.1 (untilDone events), a.id = e.2.id ∧ a.name = e.2.name ∧
          (a.held = [] ∨ a.held = e.2.arguments) := by
    intro e he
    obtain ⟨tool, htool, hfields⟩ := h.exists_delivered he
    rw [deliveredFor, htool, Option.getD_some]
    exact delivered_eq_iff s.id (JsMap.get?_eq_some_iff.mpr he) hfields
  have hvalues : (foldTools (untilDone events)).values.map callFields =
      (foldTools (untilDone events)).entries.map fun e => callFields e.2 := by
    rw [JsMap.values, List.map_map]
    rfl
  constructor
  · rintro ⟨log', blocks', hframes, hdisciplined, hperm⟩
    have hitems : blocks'.map Block.item = blocks.map Block.item := by
      rw [map_item_of_frames hdisciplined.reads, map_item_of_frames h.writing.reads, ← hframes,
        ← h.writing.written]
    have hpieces : (blocks'.map fun b => (inputJson b.pieces).length).sum =
        (blocks.map fun b => (inputJson b.pieces).length).sum := by
      rw [sum_json_of_frames hdisciplined.reads, sum_json_of_frames h.writing.reads, ← hframes,
        ← h.writing.written]
    have hplain : ∀ b ∈ blocks, b.item = .text → inputJson b.pieces = [] := by
      intro b hb hitem
      obtain ⟨i, hi⟩ := List.getElem?_of_mem hb
      exact h.writing.plain hi hitem
    rw [hvalues] at hperm
    -- the ids are the same whoever reads the frames, and none is empty
    have hids : ∀ e ∈ (foldTools (untilDone events)).entries, e.2.id ≠ [] := by
      intro e he
      have hmem : e.2.id ∈ (blocks'.filterMap toolUse?).map fun call => call.1 :=
        List.mem_map.mpr ⟨callFields e.2, hperm.mem_iff.mpr (List.mem_map.mpr ⟨e, he, rfl⟩), rfl⟩
      rw [map_fst_calls, hitems, ← map_fst_calls, List.mem_map] at hmem
      obtain ⟨call, hcall, hid⟩ := hmem
      obtain ⟨e', he', rfl⟩ := List.mem_map.mp (h.perm_entries.mem_iff.mp hcall)
      obtain ⟨tool, htool, -⟩ := h.exists_delivered he'
      rw [← hid, deliveredFor, htool, Option.getD_some]
      exact delivered_id_ne_nil s.id tool
    have hsum : ((foldTools (untilDone events)).entries.map fun e =>
          callLength (callFields e.2)).sum ≤
        ((foldTools (untilDone events)).entries.map fun e =>
          callLength (deliveredFor (untilDone events) s e)).sum := by
      have hleft := (hperm.map callLength).sum_eq
      have hright := (h.perm_entries.map callLength).sum_eq
      rw [List.map_map] at hleft hright
      have hle := sum_calls_le blocks'
      have heq := sum_calls_eq hplain
      rw [hitems, hpieces, ← heq, hleft, hright] at hle
      exact hle
    have hle : ∀ e ∈ (foldTools (untilDone events)).entries,
        callLength (deliveredFor (untilDone events) s e) ≤ callLength (callFields e.2) ∧
          (callLength (deliveredFor (untilDone events) s e) = callLength (callFields e.2) →
            deliveredFor (untilDone events) s e = callFields e.2) := by
      intro e he
      obtain ⟨tool, htool, hfields⟩ := h.exists_delivered he
      rw [deliveredFor, htool, Option.getD_some]
      exact delivered_le s.id (JsMap.get?_eq_some_iff.mpr he) hfields (hids e he)
    intro e he
    exact (hentry e he).mp ((hle e he).2 (eq_of_sum_le (fun e he => (hle e he).1) hsum e he))
  · intro hfull
    refine ⟨log, blocks, h.writing.written, h.disciplined, h.perm_entries.trans (.of_eq ?_)⟩
    rw [hvalues]
    exact List.map_congr_left fun e he => (hentry e he).mpr (hfull e he)

theorem encodeAll_append (protocol : Protocol) (options : EncodingOptions) (s : EncoderState)
    (events more : List StreamEvent) :
    encodeAll protocol options s (events ++ more) =
      ((encodeAll protocol options s events).1 ++
          (encodeAll protocol options (encodeAll protocol options s events).2 more).1,
        (encodeAll protocol options (encodeAll protocol options s events).2 more).2) := by
  induction events generalizing s with
  | nil => simp [encodeAll]
  | cons event events ih => simp [encodeAll, ih]

theorem encodeAll_of_done (protocol : Protocol) (options : EncodingOptions)
    (hdone : s.done = true) (events : List StreamEvent) :
    encodeAll protocol options s events = ([], s) := by
  induction events with
  | nil => rfl
  | cons event events ih => simp [encodeAll, encode, hdone, ih]

/-- `done` closes the stream. -/
theorem Ongoing.encodeDone (h : Ongoing seen s frames) (options : EncodingOptions) :
    (encode .anthropicMessages options s .done).2.done = true ∧ ∃ log blocks,
      Finished seen (encode .anthropicMessages options s .done).2
        (frames ++ (encode .anthropicMessages options s .done).1) log blocks := by
  have hreaches : Reaches (Streaming.encodeAnthropic .done) s frames fun _ s' frames' =>
      s'.done = true ∧ ∃ log blocks, Finished seen s' frames' log blocks := by
    simp only [Streaming.encodeAnthropic, anthropicDone, reaches_bind, reaches_get, h.failed,
      Bool.false_eq_true, if_false]
    refine reaches_whenever (fun _ => ?_) fun hstopped => absurd h.stopped (by simpa using hstopped)
    refine (h.finalize _).mono ?_
    rintro _ s' frames' ⟨log, blocks, hfinished⟩
    simp only [reaches_modify, reaches_emit]
    have hstop := hfinished.writing.other hfinished.started (e := .messageStop) (by simp) rfl
    exact ⟨trivial, _, blocks, hstop.congr rfl rfl rfl rfl rfl rfl, hfinished.started,
      hfinished.text, hfinished.same⟩
  obtain ⟨_, -, hpost⟩ := hreaches.run
  unfold encode
  rw [h.undone]
  exact hpost

/-- The first `done` closes the stream, whether `finish` or an event brings it. -/
theorem encodeStream_eq (protocol : Protocol) (options : EncodingOptions)
    (events : List StreamEvent)
    (hundone : (encodeAll protocol options (.init protocol options) (untilDone events)).2.done =
      false)
    (hdone : (encode protocol options
      (encodeAll protocol options (.init protocol options) (untilDone events)).2 .done).2.done =
        true) :
    encodeStream protocol options events =
      (encodeAll protocol options (.init protocol options) (untilDone events)).1 ++
        (encode protocol options
          (encodeAll protocol options (.init protocol options) (untilDone events)).2 .done).1 := by
  have hevents : untilDone events ++ events.dropWhile (fun e => !isDone e) = events :=
    List.takeWhile_append_dropWhile
  cases hrest : events.dropWhile fun e => !isDone e with
  | nil =>
    rw [hrest, List.append_nil] at hevents
    rw [hevents] at hundone ⊢
    simp only [encodeStream, finishEncoding, hundone, Bool.false_eq_true, if_false]
  | cons event more =>
    have hevent : event = .done := by
      have hne : events.dropWhile (fun e => !isDone e) ≠ [] := by simp [hrest]
      have hnot := List.head_dropWhile_not _ hne
      simp only [hrest, List.head_cons, Bool.not_eq_eq_eq_not, Bool.not_false] at hnot
      cases event with
      | done => rfl
      | _ => cases hnot
    subst hevent
    rw [hrest] at hevents
    have hall : encodeAll protocol options (.init protocol options) events =
        ((encodeAll protocol options (.init protocol options) (untilDone events)).1 ++
          (encode protocol options
            (encodeAll protocol options (.init protocol options) (untilDone events)).2 .done).1,
          (encode protocol options
            (encodeAll protocol options (.init protocol options) (untilDone events)).2 .done).2) := by
      conv_lhs => rw [← hevents, encodeAll_append, encodeAll]
      rw [encodeAll_of_done protocol options hdone, List.append_nil]
    simp only [encodeStream, hall, finishEncoding, hdone, if_true, List.append_nil]

/-- A whole stream. -/
theorem finished_encodeStream (options : EncodingOptions) {events : List StreamEvent}
    (herror : ∀ e ∈ events, isError e = false) : ∃ s log blocks,
      Finished (untilDone events) s (encodeStream .anthropicMessages options events) log blocks := by
  have hlive : ∀ e ∈ untilDone events, isDone e = false := fun e he => by
    simpa using List.mem_takeWhile_imp he
  have hongoing := (ongoing_init options).encodeAll options
    (fun e he => herror e (List.takeWhile_subset _ he)) hlive
  rw [List.nil_append, List.nil_append] at hongoing
  obtain ⟨hdone, log, blocks, hfinished⟩ := hongoing.encodeDone options
  rw [encodeStream_eq .anthropicMessages options events hongoing.undone hdone]
  exact ⟨_, log, blocks, hfinished⟩

/-- The blocks of an encoded stream carry its calls if and only if these are announced in full. -/
theorem carriesCalls_iff (options : EncodingOptions) {events : List StreamEvent}
    (herror : ∀ e ∈ events, isError e = false) :
    CarriesCalls events (encodeStream .anthropicMessages options events) ↔
      AnnouncedInFull events := by
  obtain ⟨s, log, blocks, hfinished⟩ := finished_encodeStream options herror
  exact hfinished.carries_iff

/-- A call whose id and name come at once, and its arguments in two parts. -/
def oneCall : List StreamEvent :=
  [.toolCallDelta (.ofNat 0) (some (js "call_1")) (some (js "search")) (some (js "\x7b")) none none,
    .toolCallDelta (.ofNat 0) none none (some (js "\x7d")) none none, .done]

theorem carriesCalls_oneCall :
    CarriesCalls oneCall (encodeStream .anthropicMessages { now := .ofNat 0 } oneCall) :=
  (carriesCalls_iff { now := .ofNat 0 } (by decide)).mpr (by decide +kernel)

/-- A call whose name comes in two parts, the first one together with its id. -/
def splitName : List StreamEvent :=
  [.toolCallDelta (.ofNat 0) (some (js "call_1")) (some (js "get_")) none none none,
    .toolCallDelta (.ofNat 0) none (some (js "weather")) none none none, .done]

theorem carriesCalls_fails : ¬∀ options events, (∀ e ∈ events, isError e = false) →
    CarriesCalls events (encodeStream .anthropicMessages options events) := by
  intro hall
  have hcalls := hall { now := .ofNat 0 } splitName (by decide)
  obtain ⟨s, log, blocks, hfinished⟩ := @finished_encodeStream { now := .ofNat 0 } splitName
    (by decide)
  exact absurd (hfinished.carries_iff.mp hcalls) (by decide +kernel)

end StonePlus.Streaming
