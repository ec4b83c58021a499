import StonePlus.Streaming.ResponsesOpen

/-!
# StonePlus.Streaming.ResponsesClosing

Closing a Responses stream: the text and every tool call are finished in turn,
and the items are collected under their output indices.
-/

namespace StonePlus.Streaming

open Lib Effect

/-! ## Binding the tools -/

/-- A tool before and after the bridge bound it: one that was announced is as it
was. -/
structure Binds (tool bound : EncodedToolState) : Prop where
  index : bound.index = tool.index
  outputIndex : bound.outputIndex = tool.outputIndex
  started : bound.started = tool.started
  emittedArguments : bound.emittedArguments = tool.emittedArguments
  announced : tool.started = true → bound = tool

theorem binds_refl (tool : EncodedToolState) : Binds tool tool :=
  ⟨rfl, rfl, rfl, rfl, fun _ => rfl⟩

theorem binds_authorizeTool (h : authorizeTool tool binding = .ok bound)
    (hquiet : tool.started = false) : Binds tool bound := by
  have hstarted : tool.started ≠ true := by simp [hquiet]
  unfold authorizeTool at h
  split at h
  · split at h
    · cases h
    · cases h
      exact ⟨rfl, rfl, rfl, rfl, fun hs => absurd hs hstarted⟩
  · split at h
    · cases h
    · cases h
      exact ⟨rfl, rfl, rfl, rfl, fun hs => absurd hs hstarted⟩
  · cases h
    exact ⟨rfl, rfl, rfl, rfl, fun hs => absurd hs hstarted⟩

theorem binds_authorizeTools (h : authorizeTools plan aliases used tools = .ok bound)
    (hquiet : ∀ tool ∈ tools, tool.started = false) : List.Forall₂ Binds tools bound := by
  induction tools generalizing used bound with
  | nil =>
      cases h
      exact .nil
  | cons tool tools ih =>
      simp only [authorizeTools] at h
      split at h
      · cases h
      · split at h
        · cases h
        · split at h
          · cases h
          · split at h
            · cases h
            · next htool =>
              split at h
              · cases h
              · next htools =>
                cases h
                exact .cons (binds_authorizeTool htool (hquiet tool List.mem_cons_self))
                  (ih htools fun tool' htool' => hquiet tool' (List.mem_cons_of_mem _ htool'))

/-- Without a plan the tools are what they were; with one they have not been
announced. -/
theorem binds_prepareTools (h : prepareTools plan tools = .ok bound)
    (hquiet : plan.isSome = true → ∀ tool ∈ tools, tool.started = false) :
    List.Forall₂ Binds tools bound := by
  cases plan with
  | none =>
      cases h
      exact List.forall₂_same.mpr fun tool _ => binds_refl tool
  | some plan =>
      simp only [prepareTools] at h
      split at h
      · cases h
      · split at h
        · cases h
        · exact binds_authorizeTools h (hquiet rfl)

/-! ## Closing streams -/

variable {options : EncodingOptions} {s : EncoderState} {events : List ResponsesEvent}
  {output : List (Option OutputItem)} {pending : List OutputSlot} {tool : EncodedToolState}

/-- What the tools of a closing encoder keep. -/
structure Ready (s : EncoderState) : Prop where
  keyed : ∀ {key tool}, s.tools.get? key = some tool → mapKey tool.index = key
  reserved : Reserved s
  unsent : ∀ {key tool}, s.tools.get? key = some tool → tool.started = false →
    tool.emittedArguments = 0

/-- The stream is closing: every slot but the pending ones is done, and its item
is in the output. -/
structure Closing (options : EncodingOptions) (s : EncoderState) (events : List ResponsesEvent)
    (output : List (Option OutputItem)) (pending : List OutputSlot) : Prop extends Ready s where
  agrees : Agrees (outputSlots options s) (slotLog events)
  indexed : Indexed events
  quiet : ∀ e ∈ events, e.isTerminal = false
  doneOnce : (doneIndices events).Nodup
  doneSlot : ∀ n ∈ doneIndices events, ∃ a i, n = some i ∧ a ∉ pending ∧
    (outputSlots options s).index a = some i
  snapshot : ∀ {a i}, a ∉ pending → (outputSlots options s).index a = some i →
    ∃ item status, (outputSlots options s).item a = some item ∧
      output[i]? = some (some (item.finish ((outputSlots options s).text a) status))
  length : output.length ≤ s.responsesNextOutputIndex

theorem Ready.withTool (h : Ready s) (hi : tool.outputIndex = some i)
    (hunsent : tool.started = false → tool.emittedArguments = 0) : Ready (withTool s tool) where
  keyed {key found} hfound := by
    rw [Streaming.withTool, JsMap.get?_set] at hfound
    split at hfound
    · next hkey =>
      cases hfound
      exact hkey.symm
    · exact h.keyed hfound
  reserved := h.reserved.withTool hi
  unsent {key found} hfound := by
    rw [Streaming.withTool, JsMap.get?_set] at hfound
    split at hfound
    · cases hfound
      exact hunsent
    · exact h.unsent hfound

/-- A tool of another key stays where it is. -/
theorem Stored.withTool (h : Stored s other) (hne : mapKey other.index ≠ mapKey tool.index) :
    Stored (withTool s tool) other :=
  (JsMap.get?_set_of_ne _ _ hne).trans h

/-- Binding a tool that is stored keeps the slots. -/
theorem agrees_bind (h : Agrees (outputSlots options s) (slotLog events)) (hready : Ready s)
    (hstored : Stored s tool) (hbinds : Binds tool bound) :
    Agrees (outputSlots options (withTool s bound)) (slotLog events) ∧ Ready (withTool s bound) := by
  by_cases hstarted : tool.started = true
  · obtain rfl := hbinds.announced hstarted
    obtain ⟨i, hi⟩ := hready.reserved _ _ hstored
    exact ⟨agrees_withTool h hstored.index.symm hstored.item.symm hstored.text.symm,
      hready.withTool hi (hready.unsent hstored)⟩
  · have hquiet : tool.started = false := by simpa using hstarted
    have hemitted := hready.unsent hstored hquiet
    obtain ⟨i, hi⟩ := hready.reserved _ _ hstored
    constructor
    · apply agrees_withTool h
      · rw [hbinds.index, hstored.index, hbinds.outputIndex]
      · rw [hbinds.index, hstored.item, announcedTool, announcedTool, hbinds.started, hquiet]
        rfl
      · rw [hbinds.index, hstored.text, streamedPart, streamedPart, hbinds.emittedArguments,
          hemitted, List.take_zero, List.take_zero]
    · exact hready.withTool (hbinds.outputIndex.trans hi) fun _ => hbinds.emittedArguments.trans
        hemitted

/-- Two tools are stored under different keys. -/
def DistinctKeys (tools : List EncodedToolState) : Prop :=
  (tools.map fun tool => mapKey tool.index).Nodup

theorem agrees_bindAll {tools bound : List EncodedToolState} (hbinds : List.Forall₂ Binds tools bound)
    (h : Agrees (outputSlots options s) (slotLog events)) (hready : Ready s)
    (hstored : ∀ tool ∈ tools, Stored s tool) (hkeys : DistinctKeys tools) :
    Reaches (bound.forM putTool) s events fun _ s' events' =>
      events' = events ∧ Ready s' ∧ Agrees (outputSlots options s') (slotLog events) ∧
        ∃ tools', s' = { s with tools := tools' } := by
  induction hbinds generalizing s with
  | nil =>
      rw [List.forM, reaches_pure]
      exact ⟨rfl, hready, h, s.tools, rfl⟩
  | @cons tool bound tools bounds htool htools ih =>
      rw [List.forM, reaches_bind, reaches_putTool]
      obtain ⟨hnot, hkeys⟩ := List.nodup_cons.mp hkeys
      obtain ⟨hagrees, hready'⟩ := agrees_bind h hready (hstored tool List.mem_cons_self) htool
      have hothers : ∀ other ∈ tools, Stored (withTool s bound) other := by
        intro other hother
        refine (hstored other (List.mem_cons_of_mem _ hother)).withTool ?_
        rw [htool.index]
        intro heq
        exact hnot (List.mem_map.mpr ⟨other, hother, heq⟩)
      refine (ih hagrees hready' hothers hkeys).mono ?_
      rintro _ s' events' ⟨hevents, hr, ha, tools', hs'⟩
      exact ⟨hevents, hr, ha, tools', by rw [hs', withTool]⟩

/-! ## The collected items -/

theorem length_assignIndex_le (item : OutputItem) (houtput : output.length ≤ n) (hi : i < n) :
    (assignIndex output i item).length ≤ n := by
  unfold assignIndex
  split
  · simpa using houtput
  · simp only [List.length_append, List.length_replicate, List.length_singleton]
    omega

theorem getElem?_assignIndex_self (i : Nat) (item : OutputItem) :
    (assignIndex output i item)[i]? = some (some item) := by
  unfold assignIndex
  split
  · next h => simp [h]
  · next h =>
    have hlength : (output ++ List.replicate (i - output.length) none).length = i := by
      simp only [List.length_append, List.length_replicate]
      omega
    rw [List.getElem?_append_right (by omega), hlength, Nat.sub_self]
    rfl

theorem getElem?_assignIndex_of_some (hfound : output[j]? = some found) (hne : j ≠ i) :
    (assignIndex output i item)[j]? = some found := by
  have hj : j < output.length := (List.getElem?_eq_some_iff.mp hfound).1
  unfold assignIndex
  split
  · rw [List.getElem?_set_ne hne.symm, hfound]
  · rw [List.append_assoc, List.getElem?_append_left hj, hfound]

/-! ## One slot after the other -/

/-- An event that neither is an entry of the log nor ends an item or the stream. -/
theorem Closing.emit (h : Closing options s events output pending) (he : e.Ongoing)
    (hentry : e.slotEntry? = none) : Closing options s (events ++ [e]) output pending where
  toReady := h.toReady
  agrees := by
    have : slotLog [e] = [] := by simp [slotLog, hentry]
    rw [slotLog_append, this, List.append_nil]
    exact h.agrees
  indexed := by
    intro e' he'
    rcases List.mem_append.mp he' with he' | he'
    · exact h.indexed e' he'
    · exact List.mem_singleton.mp he' ▸ he.2.2
  quiet := by
    intro e' he'
    rcases List.mem_append.mp he' with he' | he'
    · exact h.quiet e' he'
    · exact List.mem_singleton.mp he' ▸ he.1
  doneOnce := by
    have : doneIndices [e] = [] := by simp [doneIndices, he.2.1]
    rw [doneIndices, List.filterMap_append, ← doneIndices, ← doneIndices, this, List.append_nil]
    exact h.doneOnce
  doneSlot := by
    have : doneIndices [e] = [] := by simp [doneIndices, he.2.1]
    rw [doneIndices, List.filterMap_append, ← doneIndices, ← doneIndices, this, List.append_nil]
    exact h.doneSlot
  snapshot := h.snapshot
  length := h.length

/-- A slot without an index has nothing to close. -/
theorem Closing.skip (h : Closing options s events output (a :: pending))
    (hnone : (outputSlots options s).index a = none) : Closing options s events output pending where
  toReady := h.toReady
  agrees := h.agrees
  indexed := h.indexed
  quiet := h.quiet
  doneOnce := h.doneOnce
  doneSlot n hn := by
    obtain ⟨b, i, hni, hb, hbi⟩ := h.doneSlot n hn
    exact ⟨b, i, hni, fun hmem => hb (List.mem_cons_of_mem a hmem), hbi⟩
  snapshot {b i} hb hbi := by
    refine h.snapshot (fun hmem => ?_) hbi
    rcases List.mem_cons.mp hmem with rfl | hmem
    · rw [hnone] at hbi
      cases hbi
    · exact hb hmem
  length := h.length

/-- An announced slot is done: its finished item goes under its index. -/
theorem Closing.itemDone (h : Closing options s events output (a :: pending)) (ha : a ∉ pending)
    (hi : (outputSlots options s).index a = some i)
    (hitem : (outputSlots options s).item a = some item) (responseId status : JsString) :
    Closing options s
      (events ++ [.itemDone responseId (some i)
        (item.finish ((outputSlots options s).text a) status)])
      (assignIndex output i (item.finish ((outputSlots options s).text a) status)) pending where
  toReady := h.toReady
  agrees := by
    rw [slotLog_append]
    exact (List.append_nil (slotLog events)).symm ▸ h.agrees
  indexed := by
    intro e he
    rcases List.mem_append.mp he with he | he
    · exact h.indexed e he
    · rw [List.mem_singleton.mp he]
      simp [ResponsesEvent.added?]
  quiet := by
    intro e he
    rcases List.mem_append.mp he with he | he
    · exact h.quiet e he
    · rw [List.mem_singleton.mp he]
      rfl
  doneOnce := by
    rw [doneIndices, List.filterMap_append, ← doneIndices, List.nodup_append]
    refine ⟨h.doneOnce, by simp [ResponsesEvent.done?], ?_⟩
    rintro n hn m hm rfl
    obtain ⟨b, j, rfl, hb, hbj⟩ := h.doneSlot n hn
    have hij : some j = some i := List.mem_singleton.mp hm
    cases hij
    exact hb (h.agrees.unique hbj hi ▸ List.mem_cons_self)
  doneSlot n hn := by
    rw [doneIndices, List.filterMap_append, ← doneIndices] at hn
    rcases List.mem_append.mp hn with hn | hn
    · obtain ⟨b, j, hnj, hb, hbj⟩ := h.doneSlot n hn
      exact ⟨b, j, hnj, fun hmem => hb (List.mem_cons_of_mem a hmem), hbj⟩
    · have hni : n = some i := by simpa [ResponsesEvent.done?] using hn
      exact ⟨a, i, hni, ha, hi⟩
  snapshot {b j} hb hbj := by
    by_cases hba : b = a
    · subst hba
      obtain rfl : i = j := Option.some.inj (hi.symm.trans hbj)
      exact ⟨item, status, hitem, getElem?_assignIndex_self i _⟩
    · have hne : j ≠ i := by
        rintro rfl
        exact hba (h.agrees.unique hbj hi)
      have hnot : b ∉ a :: pending := by simp [hba, hb]
      obtain ⟨found, st, hfound, hout⟩ := h.snapshot hnot hbj
      exact ⟨found, st, hfound, getElem?_assignIndex_of_some hout hne⟩
  length := length_assignIndex_le _ h.length (h.agrees.below hi)

/-- A change of the tool of a pending slot. -/
theorem Closing.withTool (h : Closing options s events output pending)
    (hpending : .tool (mapKey tool.index) ∈ pending) (hi : tool.outputIndex = some i)
    (hindex : (outputSlots options s).index (.tool (mapKey tool.index)) = some i)
    (hunsent : tool.started = false → tool.emittedArguments = 0)
    (hagrees : Agrees (outputSlots options (withTool s tool)) (slotLog events'))
    (hmore : ∃ more, events' = events ++ more ∧ ∀ e ∈ more, e.Ongoing) :
    Closing options (withTool s tool) events' output pending := by
  obtain ⟨more, rfl, hmore⟩ := hmore
  have hsame (a : OutputSlot) :
      (outputSlots options (Streaming.withTool s tool)).index a = (outputSlots options s).index a := by
    rw [index_withTool]
    split
    · next ha => rw [ha, hindex, hi]
    · rfl
  have hdone : doneIndices (events ++ more) = doneIndices events := by
    rw [doneIndices, List.filterMap_append, ← doneIndices, ← doneIndices,
      doneIndices_of_ongoing hmore, List.append_nil]
  constructor
  · exact h.toReady.withTool hi hunsent
  · exact hagrees
  · intro e he
    rcases List.mem_append.mp he with he | he
    · exact h.indexed e he
    · exact (hmore e he).2.2
  · intro e he
    rcases List.mem_append.mp he with he | he
    · exact h.quiet e he
    · exact (hmore e he).1
  · rw [hdone]
    exact h.doneOnce
  · intro n hn
    rw [hdone] at hn
    obtain ⟨b, j, hnj, hb, hbj⟩ := h.doneSlot n hn
    exact ⟨b, j, hnj, hb, (hsame b).trans hbj⟩
  · intro a j ha haj
    have hne : a ≠ .tool (mapKey tool.index) := by
      rintro rfl
      exact ha hpending
    rw [hsame] at haj
    rw [item_withTool, text_withTool, if_neg hne, if_neg hne]
    exact h.snapshot ha haj
  · exact h.length

/-! ## The methods -/

/-- The tools that are stored in the state, but for one. -/
def KeepsOthers (s s' : EncoderState) (tool : EncodedToolState) : Prop :=
  ∀ other, mapKey other.index ≠ mapKey tool.index → Stored s other → Stored s' other

theorem Closing.ensureResponsesToolStarted (h : Closing options s events output pending)
    (hstored : Stored s tool) (hpending : .tool (mapKey tool.index) ∈ pending) :
    Reaches (ensureResponsesToolStarted tool true) s events fun tool' s' events' =>
      tool'.index = tool.index ∧ tool'.started = true ∧ Stored s' tool' ∧ KeepsOthers s s' tool ∧
        Closing options s' events' output pending := by
  unfold Streaming.ensureResponsesToolStarted
  split
  · next hstarted =>
    have hstarted : tool.started = true := by simpa using hstarted
    rw [reaches_pure]
    exact ⟨rfl, hstarted, hstored, fun _ _ => id, h⟩
  · next hquiet =>
    have hquiet : tool.started = false := by simpa using hquiet
    obtain ⟨i, hi⟩ := h.reserved _ _ hstored
    have hreserve : reserveResponsesToolOutputIndex tool = pure tool := by
      rw [reserveResponsesToolOutputIndex, hi]
      rfl
    simp only [hreserve, reaches_bind, reaches_pure, reaches_get, reaches_putTool, reaches_emit]
    have hagrees := agrees_announceTool h.agrees hstored hquiet hi
    have hentry : slotLog [.itemAdded s.id tool.outputIndex
        (toolItem (announceTool s tool) (js "in_progress") [])] =
        [.announce i (toolItem (announceTool s tool) (js "in_progress") [])] := by
      simp [slotLog, ResponsesEvent.slotEntry?, hi]
    refine ⟨trivial, trivial, stored_withTool s (announceTool s tool), ?_, ?_⟩
    · intro other hne hother
      exact hother.withTool hne
    · change Closing options (Streaming.withTool s (announceTool s tool)) _ output pending
      refine h.withTool hpending hi (hstored.index.trans hi) ?_ ?_ ?_
      · simp [announceTool]
      · rw [slotLog_append]
        exact hentry ▸ hagrees
      · refine ⟨_, rfl, ?_⟩
        simp [ResponsesEvent.Ongoing, ResponsesEvent.isTerminal, ResponsesEvent.done?,
          ResponsesEvent.added?, hi]

/-- Nothing of a tool search is streamed. -/
theorem finish_toolSearch (h : isToolSearch tool = true) (text value status : JsString) :
    (toolItem tool (js "in_progress") []).finish text status = toolItem tool status value := by
  simp [OutputItem.finish, toolItem, toolContent, h, ItemContent.extend]

theorem Closing.flushToolValue (h : Closing options s events output pending)
    (hstored : Stored s tool) (hpending : .tool (mapKey tool.index) ∈ pending)
    (hstarted : tool.started = true) :
    Reaches (flushToolValue tool (streamedValue options tool)) s events fun _ s' events' =>
      KeepsOthers s s' tool ∧ Closing options s' events' output pending ∧
        (outputSlots options s').index (.tool (mapKey tool.index)) = tool.outputIndex ∧
        (outputSlots options s').item (.tool (mapKey tool.index)) = announcedTool tool ∧
        ∀ status, (toolItem tool (js "in_progress") []).finish
          ((outputSlots options s').text (.tool (mapKey tool.index))) status =
            toolItem tool status (streamedValue options tool) := by
  unfold Streaming.flushToolValue
  simp only [reaches_bind, reaches_get]
  obtain ⟨i, hi⟩ := h.reserved _ _ hstored
  refine reaches_whenever (fun hflush => ?_) fun hflush => ?_
  · simp only [reaches_bind, reaches_emit, reaches_putTool]
    set value := streamedValue options tool with hvalue
    let flushed : EncodedToolState := { tool with emittedArguments := value.length }
    have hpart : streamedPart options flushed = value := List.take_length
    have hagrees := agrees_streamTool (n := value.length) h.agrees hstored hi
      (hpart.trans (List.take_append_drop tool.emittedArguments value).symm)
    have hentry : slotLog [.toolDelta (isCustom tool) s.id tool.itemId tool.outputIndex
        (value.drop tool.emittedArguments)] = [.extend i (value.drop tool.emittedArguments)] := by
      simp [slotLog, ResponsesEvent.slotEntry?, hi]
    have hstored' : Stored (Streaming.withTool s flushed) flushed := stored_withTool s flushed
    refine ⟨fun other hne hother => hother.withTool hne, ?_, hstored'.index, hstored'.item,
      fun status => ?_⟩
    · change Closing options (Streaming.withTool s flushed) _ output pending
      refine h.withTool hpending hi (hstored.index.trans hi) ?_ ?_ ?_
      · simp [flushed, hstarted]
      · rw [slotLog_append]
        exact hentry ▸ hagrees
      · refine ⟨_, rfl, ?_⟩
        simp [ResponsesEvent.Ongoing, ResponsesEvent.isTerminal, ResponsesEvent.done?,
          ResponsesEvent.added?]
    · have htext : (outputSlots options (Streaming.withTool s flushed)).text
          (.tool (mapKey tool.index)) = value := hstored'.text.trans hpart
      rw [htext, finish_toolItem]
  · refine ⟨fun _ _ => id, h, hstored.index, hstored.item, fun status => ?_⟩
    by_cases hsearch : isToolSearch tool = true
    · exact finish_toolSearch hsearch _ _ status
    · have hall : (streamedValue options tool).length ≤ tool.emittedArguments := by
        simpa [hsearch] using hflush
      rw [hstored.text, streamedPart, List.take_of_length_le hall, finish_toolItem]

theorem Closing.closeTool
    (h : Closing options s events output (.tool (mapKey tool.index) :: pending))
    (hstored : Stored s tool) (hnot : .tool (mapKey tool.index) ∉ pending) :
    Reaches (closeTool options reason output tool) s events fun output' s' events' =>
      KeepsOthers s s' tool ∧ Closing options s' events' output' pending := by
  unfold Streaming.closeTool
  refine (h.ensureResponsesToolStarted hstored List.mem_cons_self).bind ?_
  rintro tool' s₁ events₁ ⟨hindex, hstarted, hstored₁, hothers₁, h₁⟩
  rw [← hindex] at h₁ hnot
  obtain ⟨i, hi⟩ := h₁.reserved _ _ hstored₁
  refine (h₁.flushToolValue hstored₁ List.mem_cons_self hstarted).bind ?_
  rintro _ s₂ events₂ ⟨hothers₂, h₂, hslot, hitem, hfinish⟩
  rw [announcedTool, if_pos hstarted] at hitem
  rw [hi] at hslot
  rw [reaches_bind, reaches_get]
  dsimp only
  have hothers : KeepsOthers s s₂ tool := by
    intro other hne hother
    exact hothers₂ other (hindex ▸ hne) (hothers₁ other hne hother)
  rw [reaches_bind]
  -- the end of the streamed value is told first, if there is one
  let valueDone : Encoding ResponsesEvent Unit := Effect.emit
    (.toolDone (isCustom tool') s₂.id tool'.itemId tool'.outputIndex (streamedValue options tool'))
  have hvalue : Reaches (whenever (!isToolSearch tool') valueDone) s₂ events₂
      fun _ s' events' => s' = s₂ ∧
        Closing options s₂ events' output (.tool (mapKey tool'.index) :: pending) := by
    refine reaches_whenever (fun _ => ?_) fun _ => ⟨rfl, h₂⟩
    rw [reaches_emit]
    exact ⟨rfl, h₂.emit ⟨rfl, rfl, by simp [ResponsesEvent.added?]⟩ rfl⟩
  refine hvalue.mono ?_
  rintro _ s₃ events₃ ⟨hs₃, h₃⟩
  simp only [hs₃, reaches_bind, reaches_emit, reaches_pure, hi, Option.getD_some]
  refine ⟨hothers, ?_⟩
  have hdone := h₃.itemDone hnot hslot hitem s₂.id
    (if tool'.completed then js "completed" else itemStatus reason)
  rwa [hfinish] at hdone

theorem Closing.closeTools (tools : List EncodedToolState)
    (h : Closing options s events output (tools.map fun tool => .tool (mapKey tool.index)))
    (hstored : ∀ tool ∈ tools, Stored s tool) (hkeys : DistinctKeys tools) :
    Reaches (closeTools options reason output tools) s events fun output' s' events' =>
      Closing options s' events' output' [] := by
  induction tools generalizing s events output with
  | nil =>
      rw [Streaming.closeTools, reaches_pure]
      exact h
  | cons tool tools ih =>
      rw [Streaming.closeTools]
      obtain ⟨hnot, hkeys⟩ := List.nodup_cons.mp hkeys
      have hslot : OutputSlot.tool (mapKey tool.index) ∉
          tools.map fun tool => OutputSlot.tool (mapKey tool.index) := by
        simpa using hnot
      refine (h.closeTool (hstored tool List.mem_cons_self) hslot).bind
        fun output₁ s₁ events₁ ⟨hothers, h₁⟩ => ih h₁ (fun other hother => ?_) hkeys
      refine hothers other (fun heq => ?_) (hstored other (List.mem_cons_of_mem _ hother))
      exact hnot (List.mem_map.mpr ⟨other, hother, heq⟩)

theorem Closing.closeText (h : Closing options s events output (.text :: pending))
    (hnot : .text ∉ pending)
    (htext : s.responsesTextStarted = false → s.responsesTextOutputIndex = none) :
    Reaches (closeText reason output) s events fun output' s' events' =>
      s' = s ∧ Closing options s events' output' pending := by
  unfold Streaming.closeText
  rw [reaches_bind, reaches_get]
  dsimp only
  split
  · next hstarted =>
    have hitem : (outputSlots options s).item .text =
        some (messageItem s (js "in_progress") none) := by
      simp [outputSlots, hstarted]
    obtain ⟨i, hi⟩ := h.agrees.indexed hitem
    have hindex : s.responsesTextOutputIndex = some i := hi
    simp only [reaches_bind, reaches_emit, reaches_pure, hindex, Option.getD_some, true_and]
    have hemit := h.emit (e := .textDone s.id (messageId s) (some i) s.responsesText)
      ⟨rfl, rfl, by simp [ResponsesEvent.added?]⟩ rfl
    exact hemit.itemDone hnot hi hitem s.id (messageStatus s reason)
  · next hstarted =>
    rw [reaches_pure]
    exact ⟨rfl, h.skip (htext (by simpa using hstarted))⟩

/-- The slots of the tools of an encoder. -/
def toolSlots (s : EncoderState) : List OutputSlot :=
  s.tools.values.map fun tool => .tool (mapKey tool.index)

theorem Ready.stored (h : Ready s) (hmem : tool ∈ s.tools.values) : Stored s tool := by
  obtain ⟨key, hkey⟩ := JsMap.mem_values_iff.mp hmem
  rw [Stored, h.keyed hkey]
  exact hkey

theorem Ready.keys (h : Ready s) : s.tools.values.map (fun tool => mapKey tool.index) = s.tools.keys := by
  rw [JsMap.values, JsMap.keys, List.map_map]
  refine List.map_congr_left fun e he => ?_
  exact h.keyed (JsMap.get?_eq_some_iff.mpr he)

theorem Ready.distinct (h : Ready s) : DistinctKeys s.tools.values := by
  rw [DistinctKeys, h.keys]
  exact s.tools.nodup_keys

/-- Every slot with an index is the text or one of the tools. -/
theorem Ready.mem_slots (h : Ready s) (hi : (outputSlots options s).index a = some i) :
    a ∈ .text :: toolSlots s := by
  cases a with
  | text => exact List.mem_cons_self
  | tool key =>
      obtain ⟨tool, htool, -⟩ := Option.bind_eq_some_iff.mp hi
      refine List.mem_cons_of_mem _ (List.mem_map.mpr ⟨tool, ?_, ?_⟩)
      · exact JsMap.mem_values_iff.mpr ⟨key, htool⟩
      · rw [h.keyed htool]

/-- Nothing is closed at first. -/
theorem closing_of_ready (hready : Ready s) (hagrees : Agrees (outputSlots options s) (slotLog events))
    (hongoing : ∀ e ∈ events, e.Ongoing) : Closing options s events [] (.text :: toolSlots s) where
  toReady := hready
  agrees := hagrees
  indexed := indexed_of_ongoing hongoing
  quiet e he := (hongoing e he).1
  doneOnce := by
    rw [doneIndices_of_ongoing hongoing]
    exact List.nodup_nil
  doneSlot n hn := by
    rw [doneIndices_of_ongoing hongoing] at hn
    cases hn
  snapshot ha hi := absurd (hready.mem_slots hi) ha
  length := Nat.zero_le _

/-- A closed stream ends properly. -/
theorem Closing.terminates (h : Closing options s events output [])
    (hterminal : e.isTerminal = true)
    (hclosed : ∀ response, e.closed? = some response → response.output = output) :
    TerminatesProperly (events ++ [e]) := by
  have hnotadded : ∀ n item, e.added? ≠ some (n, item) := by
    intro n item
    cases e <;> simp_all [ResponsesEvent.added?, ResponsesEvent.isTerminal]
  have hlog : slotLog [e] = [] := by
    cases e <;> simp_all [slotLog, ResponsesEvent.slotEntry?, ResponsesEvent.isTerminal]
  have hdone : doneIndices [e] = [] := by
    cases e <;> simp_all [doneIndices, ResponsesEvent.done?, ResponsesEvent.isTerminal]
  have hindexed : Indexed (events ++ [e]) := by
    intro e' he'
    rcases List.mem_append.mp he' with he' | he'
    · exact h.indexed e' he'
    · exact List.mem_singleton.mp he' ▸ hnotadded none
  have hall {a : OutputSlot} {i : Nat} (hi : (outputSlots options s).index a = some i) :
      (outputSlots options s).item a ≠ none := by
    obtain ⟨item, -, hitem, -⟩ := h.snapshot List.not_mem_nil hi
    rw [hitem]
    exact Option.some_ne_none item
  have hadded : addedItems (events ++ [e]) =
      (announcements (slotLog events)).map fun p => (some p.1, p.2) := by
    rw [addedItems_eq hindexed, slotLog_append, hlog, List.append_nil]
  have hdoneIndices : doneIndices (events ++ [e]) = doneIndices events := by
    rw [doneIndices, List.filterMap_append, ← doneIndices, ← doneIndices, hdone, List.append_nil]
  have hlength : (announcements (slotLog events)).length = s.responsesNextOutputIndex :=
    h.agrees.length_announcements hall
  constructor
  · exact ⟨events, e, [], rfl, hterminal, h.quiet, by simp⟩
  · refine ⟨(announcements (slotLog events)).length, ?_⟩
    rw [hadded, List.map_map]
    have hperm := (h.agrees.perm_range fun ha hquiet _ _ => absurd hquiet (hall ha)).map some
    rwa [List.map_map] at hperm
  · rw [hdoneIndices]
    exact h.doneOnce
  · intro n hn
    rw [hdoneIndices] at hn
    obtain ⟨a, i, rfl, -, hi⟩ := h.doneSlot n hn
    obtain ⟨item, hitem⟩ := Option.ne_none_iff_exists'.mp (hall hi)
    rw [hadded, List.map_map]
    exact List.mem_map.mpr ⟨(i, item), h.agrees.announced.mpr ⟨a, hi, hitem⟩, rfl⟩
  · intro e' he' response hresponse
    rcases List.mem_append.mp he' with he' | he'
    · have hquiet := h.quiet e' he'
      cases e' <;> simp_all [ResponsesEvent.closed?, ResponsesEvent.isTerminal]
    · rw [List.mem_singleton.mp he'] at hresponse
      rw [hclosed response hresponse, hadded]
      constructor
      · rw [List.length_map, hlength]
        -- the last index is in the output
        refine Nat.le_antisymm h.length ?_
        by_contra hlt
        obtain ⟨a, ha⟩ := h.agrees.covered
          (show s.responsesNextOutputIndex - 1 < s.responsesNextOutputIndex by omega)
        obtain ⟨item, status, -, hout⟩ := h.snapshot List.not_mem_nil ha
        have := (List.getElem?_eq_some_iff.mp hout).1
        omega
      · intro i item hmem
        obtain ⟨⟨j, found⟩, hfound, heq⟩ := List.mem_map.mp hmem
        cases heq
        obtain ⟨a, ha, haitem⟩ := h.agrees.announced.mp hfound
        obtain ⟨item', status, hitem', hout⟩ := h.snapshot List.not_mem_nil ha
        rw [haitem] at hitem'
        cases hitem'
        refine ⟨status, ?_⟩
        rw [hout, deltasOf_eq, slotLog_append, hlog, List.append_nil, h.agrees.text_eq ha]

theorem closeResponsesOutput_terminates {reason : CanonicalStopReason} (hready : Ready s)
    (hagrees : Agrees (outputSlots options s) (slotLog events)) (hongoing : ∀ e ∈ events, e.Ongoing)
    (htext : s.responsesTextStarted = false → s.responsesTextOutputIndex = none) :
    Reaches (closeResponsesOutput options reason) s events fun _ _ events' =>
      TerminatesProperly events' := by
  unfold closeResponsesOutput
  have hnot : OutputSlot.text ∉ toolSlots s := by simp [toolSlots]
  refine ((closing_of_ready hready hagrees hongoing).closeText hnot htext).bind ?_
  rintro output _ events₁ ⟨rfl, h₁⟩
  rw [reaches_bind, reaches_get]
  refine (h₁.closeTools _ (fun tool => hready.stored) hready.distinct).bind
    fun output' s₂ events₂ h₂ => ?_
  rw [reaches_bind, reaches_get, reaches_emit]
  unfold closingEvent
  split
  · refine h₂.terminates rfl ?_
    rintro response ⟨⟩
    rfl
  · refine h₂.terminates rfl ?_
    rintro response ⟨⟩
    rfl

end StonePlus.Streaming
