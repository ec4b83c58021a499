import StonePlus.Streaming.AnthropicEncoding

/-!
# StonePlus.Streaming.AnthropicClosing

The end of Anthropic streams: all blocks are stopped, and what is in those of the tool calls.
-/

namespace StonePlus.Streaming

open Lib Effect

variable {s : EncoderState} {frames : List Frame} {log : List AnthropicEvent}
  {blocks : List ContentBlock} {seen : List StreamEvent}

/-! ## Closing the calls -/

/-- What the block of a call has in the end: id, name and input. -/
def delivered (responseId : JsString) (tool : EncodedToolState) :
    Option Announcement → JsString × JsString × JsString
  | none => (blockId responseId tool, tool.name, tool.arguments)
  | some a => (a.id, a.name,
      if tool.arguments = a.held then a.held else tool.arguments.drop a.held.length)

/-- The block is open, and what is missing in it is what has not been sent. -/
def ReadyTool (tool : EncodedToolState) (block : Option ContentBlock)
    (final : JsString × JsString × JsString) : Prop :=
  ∃ pieces, block = some ⟨.toolUse final.1 final.2.1, pieces, false⟩ ∧
    inputJson pieces ++ tool.arguments.drop tool.emittedArguments = final.2.2

def ClosedTool (block : Option ContentBlock) (final : JsString × JsString × JsString) : Prop :=
  ∃ pieces, block = some ⟨.toolUse final.1 final.2.1, pieces, true⟩ ∧
    inputJson pieces = final.2.2

/-- The calls under the keys are closed, the others go on. -/
def closing (seen : List StreamEvent) (responseId : JsString) (closed : List JsNumber)
    (key : JsNumber) (tool : EncodedToolState) (block : Option ContentBlock) : Prop :=
  (key ∈ closed → ClosedTool block (delivered responseId tool (announced key seen))) ∧
    (key ∉ closed → ongoing seen key tool block)

theorem readyTool_of_ongoing (h : OngoingTool tool block (some a)) (responseId : JsString) :
    tool.started = true ∧ ReadyTool tool block (delivered responseId tool (some a)) := by
  obtain ⟨hrun, pieces, rest, hblock, hrest, hinput, hsent⟩ := h
  refine ⟨hrun, pieces, hblock, ?_⟩
  show inputJson pieces ++ _ = if tool.arguments = a.held then a.held else _
  by_cases hnil : rest = []
  · subst hnil
    rw [if_pos rfl] at hsent
    rw [List.append_nil] at hrest
    rw [hinput, hsent, hrest]
    simp
  · rw [if_neg hnil] at hsent
    have hne : tool.arguments ≠ a.held := by
      intro heq
      rw [heq] at hrest
      exact hnil (List.self_eq_append_right.mp hrest)
    rw [if_neg hne, hsent, hinput, List.drop_length, List.append_nil, hrest, List.drop_left]

/-- Closing a call leaves the others alone. -/
structure Closes (s s' : EncoderState) (key : JsNumber) : Prop extends Kept s s' where
  id : s'.id = s.id
  started : s'.started = s.started
  keys : s'.tools.keys = s.tools.keys
  others : ∀ key', key' ≠ key → s'.tools.get? key' = s.tools.get? key'

theorem Closes.refl (s : EncoderState) (key : JsNumber) : Closes s s key :=
  ⟨Kept.refl s, rfl, rfl, rfl, fun _ _ => rfl⟩

theorem Closes.trans (h : Closes s s' key) (h' : Closes s' s'' key) : Closes s s'' key :=
  ⟨h.toKept.trans h'.toKept, h'.id.trans h.id, h'.started.trans h.started, h'.keys.trans h.keys,
    fun key' hne => (h'.others key' hne).trans (h.others key' hne)⟩

theorem FiledTool.closes (h : FiledTool s s' key tool) (hold : s.tools.get? key = some old)
    (htool : callFields tool = callFields old) : Closes s s' key where
  toKept := h.kept hold htool
  id := h.id
  started := h.started
  keys := by rw [h.tools, keys_set, if_pos (JsMap.mem_keys_iff.mpr ⟨old, hold⟩)]
  others key' hne := by rw [h.tools, JsMap.get?_set_of_ne _ _ hne]

/-- What the encoder notes of its output does not matter for what is delivered. -/
theorem delivered_congr (hindex : tool'.index = tool.index)
    (hfields : callFields tool' = callFields tool) :
    delivered responseId tool' a = delivered responseId tool a := by
  simp only [callFields, Prod.mk.injEq] at hfields
  cases a <;> simp only [delivered, blockId, hindex, hfields.1, hfields.2.1, hfields.2.2]

/-- The block of a tool is there, before it is closed. -/
theorem Writing.makeReady (h : Writing (closing seen s.id closed) s frames log blocks)
    (hstarted : s.started = true) (hclosed : TextClosed s) (htool : s.tools.get? key = some tool)
    (hopen : key ∉ closed) :
    Reaches (ensureAnthropicToolStarted tool true) s frames fun tool' s' frames' =>
      s'.tools.get? key = some tool' ∧ callFields tool' = callFields tool ∧
        Closes s s' key ∧ TextClosed s' ∧ ∃ log' blocks',
          Writing (focused (closing seen s.id closed) key fun t b => t = tool' ∧
            ReadyTool t b (delivered s.id t (announced key seen))) s' frames' log' blocks' := by
  have hongoing := (h.status htool).2 hopen
  rw [ongoing] at hongoing
  cases ha : announced key seen with
  | some a =>
    rw [ha] at hongoing
    obtain ⟨hrun, hready⟩ := readyTool_of_ongoing hongoing s.id
    rw [ensureAnthropicToolStarted, if_pos (by simp [hrun]), reaches_pure]
    refine ⟨htool, rfl, Closes.refl s key, hclosed, log, blocks, h.mono fun {key' t} ht b hb => ?_⟩
    by_cases hne : key' = key
    · subst hne
      rw [htool] at ht
      cases ht
      have hb := hb.2 hopen
      rw [ongoing, ha] at hb
      exact focused_self.mpr ⟨rfl, (readyTool_of_ongoing hb s.id).2⟩
    · exact (focused_other hne).mpr hb
  | none =>
    rw [ha] at hongoing
    obtain ⟨hwaiting, hfree, hemitted, -⟩ := hongoing
    have hindex : contentIndexOf s.tools key = none := by rw [contentIndexOf, htool]; exact hfree
    refine (@Writing.ensureToolStarted _ (focused (closing seen s.id closed) key fun t b =>
        (∃ i, t = { tool with started := true, contentIndex := some i }) ∧
          ReadyTool t b (delivered s.id t none)) _ _ _ _ h hstarted key tool
      (h.keyed htool) hindex hwaiting true (.inl rfl) (fun i => ?_)
      fun key' hkey' t b => (focused_other hkey').mpr).mono ?_
    · rw [focused_self]
      refine ⟨⟨i, rfl⟩, [], rfl, ?_⟩
      show inputJson [] ++ tool.arguments.drop tool.emittedArguments = tool.arguments
      rw [hemitted]
      rfl
    · rintro tool' s' frames' ⟨⟨i, rfl⟩, hfiled, htext, log', blocks', hwriting⟩
      have hget : s'.tools.get? key = some { tool with started := true, contentIndex := some i } := by
        rw [hfiled.tools, JsMap.get?_set_self]
      refine ⟨hget, rfl, hfiled.closes htool rfl, htext, log', blocks',
        hwriting.mono fun {key' t} ht b hb => ?_⟩
      by_cases hne : key' = key
      · subst hne
        rw [hget] at ht
        cases ht
        exact focused_self.mpr ⟨rfl, (focused_self.mp hb).2⟩
      · exact (focused_other hne).mpr ((focused_other hne).mp hb)

/-- Filing a tool that is there changes nothing. -/
theorem setEntries_of_lookup {κ ν : Type} [DecidableEq κ] {k : κ} {v : ν} {es : List (κ × ν)}
    (h : JsMap.lookup k es = some v) : JsMap.setEntries k v es = es := by
  induction es with
  | nil => cases h
  | cons e es ih =>
    unfold JsMap.setEntries
    unfold JsMap.lookup at h
    split at h
    · next heq =>
      rw [if_pos heq, ← Option.some.inj h, ← heq]
    · next hne => rw [if_neg hne, ih h]

theorem set_of_get? {κ ν : Type} [DecidableEq κ] {m : JsMap κ ν} {k : κ} {v : ν}
    (h : m.get? k = some v) : m.set k v = m :=
  JsMap.ext (setEntries_of_lookup h)

variable {closed : List JsNumber}

/-- The block of a call that has been delivered is stopped. -/
theorem Writing.stopTool {id : JsString}
    (h : Writing (focused (closing seen id closed) key fun t b => t = tool ∧ ∃ pieces,
      b = some ⟨.toolUse final.1 final.2.1, pieces, false⟩ ∧ inputJson pieces = final.2.2)
      s frames log blocks) (hstarted : s.started = true) (htool : s.tools.get? key = some tool)
    (hfinal : delivered id tool (announced key seen) = final) :
    ∃ log' blocks', Writing (closing seen id (key :: closed)) s
      (frames ++ [blockStop tool.contentIndex]) log' blocks' := by
  obtain ⟨-, pieces, hblock, hinput⟩ := focused_self.mp (h.status htool)
  obtain ⟨i, hi, hb⟩ := Option.bind_eq_some_iff.mp hblock
  have hset := @Writing.setTool _ (closing seen id (key :: closed)) _ _ _ _ h hstarted key tool
    (h.keyed htool) i hi (contentIndexOf_eq htool hi) _ _ (.stop i) hb rfl nofun
    ⟨.toolUse final.1 final.2.1, pieces, true⟩ rfl (readBlocks_stop h.reads hb)
    ⟨fun _ => by rw [hfinal]; exact ⟨pieces, rfl, hinput⟩, fun hnot => absurd List.mem_cons_self hnot⟩
    fun key' hne t b hb => by
      have hb := (focused_other hne).mp hb
      refine ⟨fun hmem => hb.1 ?_, fun hnot => hb.2 fun hmem => hnot (List.mem_cons_of_mem _ hmem)⟩
      exact (List.mem_cons.mp hmem).resolve_left hne
  have hsame : { s with tools := s.tools.set key tool } = s := by rw [set_of_get? htool]
  rw [hsame] at hset
  rw [hi]
  exact ⟨_, _, hset⟩

/-- One turn of the loop of `closeAnthropicBlocks`. -/
theorem Writing.closeTool (h : Writing (closing seen s.id closed) s frames log blocks)
    (hstarted : s.started = true) (hclosed : TextClosed s) {key : JsNumber}
    {tool : EncodedToolState} (htool : s.tools.get? key = some tool) (hopen : key ∉ closed) :
    Reaches (closeAnthropicTool tool) s frames fun _ s' frames' =>
      Closes s s' key ∧ TextClosed s' ∧ ∃ log' blocks',
        Writing (closing seen s.id (key :: closed)) s' frames' log' blocks' := by
  unfold closeAnthropicTool
  refine (h.makeReady hstarted hclosed htool hopen).bind ?_
  rintro tool₁ s₁ frames₁ ⟨htool₁, hfields₁, hcloses₁, htext₁, log₁, blocks₁, h₁⟩
  have hstarted₁ : s₁.started = true := hcloses₁.started.trans hstarted
  obtain ⟨-, pieces, hblock, hrest⟩ := focused_self.mp (h₁.status htool₁)
  obtain ⟨i, hi, hb⟩ := Option.bind_eq_some_iff.mp hblock
  generalize hfinal : delivered s.id tool₁ (announced key seen) = final at *
  refine (reaches_whenever (fun hmore => ?_) fun hdone => ?_ :
    Reaches _ s₁ frames₁ fun _ s₂ frames₂ => Closes s₁ s₂ key ∧ TextClosed s₂ ∧
      ∃ tool₂, s₂.tools.get? key = some tool₂ ∧ tool₂.contentIndex = tool₁.contentIndex ∧
        delivered s.id tool₂ (announced key seen) = final ∧ ∃ log₂ blocks₂,
          Writing (focused (closing seen s.id closed) key fun t b => t = tool₂ ∧ ∃ pieces,
            b = some ⟨.toolUse final.1 final.2.1, pieces, false⟩ ∧
              inputJson pieces = final.2.2) s₂ frames₂ log₂ blocks₂).bind ?_
  · have hothers : ∀ key', key' ≠ key → ∀ t b,
        focused (closing seen s.id closed) key (fun t b => t = tool₁ ∧
          ReadyTool t b (delivered s.id t (announced key seen))) key' t b →
        focused (closing seen s.id closed) key (fun t b =>
          t = { tool₁ with emittedArguments := tool₁.arguments.length } ∧ ∃ pieces,
            b = some ⟨.toolUse final.1 final.2.1, pieces, false⟩ ∧
              inputJson pieces = final.2.2) key' t b :=
      fun key' hne t b hb => (focused_other hne).mpr ((focused_other hne).mp hb)
    refine (@Writing.sendArguments _ _ _ _ _ _ h₁ hstarted₁ key tool₁ (h₁.keyed htool₁) i hi
      (contentIndexOf_eq htool₁ hi) _ _ pieces hb (tool₁.arguments.drop tool₁.emittedArguments)
      ?_ hothers).mono fun _ s₂ frames₂ ⟨hfiled, hwriting⟩ => ?_
    · rw [focused_self]
      exact ⟨rfl, _, rfl, by simpa [inputJson] using hrest⟩
    · refine ⟨hfiled.closes htool₁ rfl, hfiled.text htext₁,
        { tool₁ with emittedArguments := tool₁.arguments.length }, by
          rw [hfiled.tools, JsMap.get?_set_self], rfl, ?_, hwriting⟩
      rw [← hfinal]
      exact delivered_congr rfl rfl
  · have hnone : tool₁.arguments.drop tool₁.emittedArguments = [] :=
      List.drop_eq_nil_of_le (Nat.le_of_not_lt hdone)
    refine ⟨Closes.refl s₁ key, htext₁, tool₁, htool₁, rfl, hfinal, log₁, blocks₁,
      h₁.mono fun {key' t} ht b hb' => ?_⟩
    by_cases hne : key' = key
    · subst hne
      obtain ⟨rfl, pieces', hblock', hrest'⟩ := focused_self.mp hb'
      rw [hnone, List.append_nil, hfinal] at hrest'
      rw [hfinal] at hblock'
      exact focused_self.mpr ⟨rfl, pieces', hblock', hrest'⟩
    · exact (focused_other hne).mpr ((focused_other hne).mp hb')
  · rintro - s₂ frames₂ ⟨hcloses₂, htext₂, tool₂, htool₂, hindex₂, hfinal₂, log₂, blocks₂, h₂⟩
    rw [reaches_emit, ← hindex₂]
    exact ⟨hcloses₁.trans hcloses₂, htext₂,
      h₂.stopTool (hcloses₂.started.trans hstarted₁) htool₂ hfinal₂⟩

/-- The loop of `closeAnthropicBlocks` over tools that are open. -/
theorem Writing.closeTools {entries : List (JsNumber × EncodedToolState)}
    (h : Writing (closing seen s.id closed) s frames log blocks) (hstarted : s.started = true)
    (hclosed : TextClosed s) (hentries : ∀ e ∈ entries, s.tools.get? e.1 = some e.2)
    (hnodup : (entries.map Prod.fst).Nodup) (hopen : ∀ e ∈ entries, e.1 ∉ closed) :
    Reaches ((entries.map Prod.snd).forM closeAnthropicTool) s frames fun _ s' frames' =>
      Kept s s' ∧ s'.id = s.id ∧ s'.started = true ∧ s'.tools.keys = s.tools.keys ∧
        TextClosed s' ∧ ∃ closed' log' blocks', (∀ e ∈ entries, e.1 ∈ closed') ∧
          (∀ key ∈ closed, key ∈ closed') ∧
          Writing (closing seen s.id closed') s' frames' log' blocks' := by
  induction entries generalizing s frames log blocks closed with
  | nil =>
    exact (reaches_pure ()).mpr ⟨Kept.refl s, rfl, hstarted, rfl, hclosed, closed, log, blocks,
      by simp, fun _ hkey => hkey, h⟩
  | cons e entries ih =>
    rw [List.map_cons, List.nodup_cons] at hnodup
    rw [List.forall_mem_cons] at hentries hopen
    rw [List.map_cons]
    refine (h.closeTool hstarted hclosed hentries.1 hopen.1).bind ?_
    rintro _ s₁ frames₁ ⟨hcloses, htext, log₁, blocks₁, h₁⟩
    have hne : ∀ e' ∈ entries, e'.1 ≠ e.1 := fun e' he' heq =>
      hnodup.1 (List.mem_map.mpr ⟨e', he', heq⟩)
    rw [← hcloses.id] at h₁
    refine (ih h₁ (hcloses.started.trans hstarted) htext
      (fun e' he' => (hcloses.others e'.1 (hne e' he')).trans (hentries.2 e' he')) hnodup.2
      fun e' he' hmem => ?_).mono fun _ s' frames'
        ⟨hkept, hid, hstarted', hkeys, htext', closed', log', blocks', hall, hsub, hwriting⟩ => ?_
    · rcases List.mem_cons.mp hmem with heq | hmem
      · exact hne e' he' heq
      · exact hopen.2 e' he' hmem
    · refine ⟨hcloses.toKept.trans hkept, hid.trans hcloses.id, hstarted',
        hkeys.trans hcloses.keys, htext', closed', log', blocks', ?_,
        fun key hkey => hsub key (List.mem_cons_of_mem _ hkey), hcloses.id ▸ hwriting⟩
      rw [List.forall_mem_cons]
      exact ⟨hsub e.1 List.mem_cons_self, hall⟩

/-- An event that is no block entry is written. -/
theorem Writing.other {status : JsNumber → EncodedToolState → Option ContentBlock → Prop}
    (h : Writing status s frames log blocks) (hstarted : s.started = true)
    (hstart : ∀ m, e ≠ .messageStart m) (hentry : blockEntries [e] = []) :
    Writing status s (frames ++ [e.frame]) (log ++ [e]) blocks := by
  obtain ⟨hlogged, hnext, hkeyed, hstatus, hapart, howned, hown, hopen, hblock, hplain⟩ := h
  rw [hstarted] at hlogged
  refine ⟨?_, hnext, hkeyed, hstatus, hapart, howned, hown, hopen, hblock, hplain⟩
  rw [hstarted]
  exact hlogged.other hstart hentry

/-- What is in the blocks of a closed stream. -/
structure Finished (seen : List StreamEvent) (s : EncoderState) (frames : List Frame)
    (log : List AnthropicEvent) (blocks : List ContentBlock) : Prop where
  writing : Writing (fun key tool block =>
    ClosedTool block (delivered s.id tool (announced key seen))) s frames log blocks
  started : s.started = true
  text : TextClosed s
  same : SameTools s.tools (foldTools seen)

theorem Ongoing.finalize (h : Ongoing seen s frames) (reason : CanonicalStopReason) :
    Reaches (finalizeAnthropic reason) s frames fun _ s' frames' =>
      ∃ log blocks, Finished seen s' frames' log blocks := by
  obtain ⟨log, blocks, hwriting⟩ := h.writing
  unfold finalizeAnthropic closeAnthropicBlocks
  refine hwriting.ensureStart.bind ?_
  rintro _ s₁ frames₁ ⟨hs₁, log₁, h₁⟩
  have hstarted₁ : s₁.started = true := by rw [hs₁]
  simp only [reaches_bind]
  refine (h₁.closeText hstarted₁).mono ?_
  rintro _ s₂ frames₂ ⟨⟨closed, hs₂⟩, htext₂, log₂, blocks₂, h₂⟩
  simp only [reaches_get]
  have hstarted₂ : s₂.started = true := by rw [hs₂]; exact hstarted₁
  have hsame₂ : SameTools s₂.tools (foldTools seen) := by rw [hs₂, hs₁]; exact h.same
  have hready : Writing (closing seen s₂.id []) s₂ frames₂ log₂ blocks₂ :=
    h₂.mono fun _ b hb => ⟨fun hmem => absurd hmem List.not_mem_nil, fun _ => hb⟩
  refine (hready.closeTools hstarted₂ htext₂
    (fun e he => JsMap.get?_eq_some_iff.mpr he) s₂.tools.nodup (by simp)).mono ?_
  rintro - s₃ frames₃
    ⟨hkept, hid, hstarted₃, hkeys, htext₃, closed₃, log₃, blocks₃, hall, -, h₃⟩
  simp only [reaches_modify, reaches_emit]
  have hdone : ∀ {key tool}, s₃.tools.get? key = some tool → key ∈ closed₃ := by
    intro key tool htool
    have hkey : key ∈ s₂.tools.keys := hkeys ▸ JsMap.mem_keys_iff.mpr ⟨tool, htool⟩
    obtain ⟨e, he, rfl⟩ := List.mem_map.mp hkey
    exact hall e he
  have hfinal := (h₃.mono fun {key tool} htool b hb => hb.1 (hdone htool)).other hstarted₃
    (e := .messageDelta [(js "delta", .object
      [(js "stop_reason", .string (canonicalToAnthropicStop reason)), (js "stop_sequence", .null)]),
      (js "usage", .object (anthropicUsage s₃.usage))]) (by simp) rfl
  rw [← hid] at hfinal
  exact ⟨_, blocks₃, hfinal.congr rfl rfl rfl rfl rfl rfl, hstarted₃, htext₃, hkept.same hsame₂⟩

end StonePlus.Streaming
