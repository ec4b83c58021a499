import StonePlus.Lib.Respects
import StonePlus.Streaming.Encoder

/-!
# StonePlus.Streaming.Terminals

The success terminals of the encoders: they come with `done` only, and never
after an error.
-/

namespace StonePlus.Streaming

open Lib Lib.Effect

/-- A frame that tells a client that the stream succeeded. -/
def Frame.isSuccess : Frame → Bool
  | .doneMarker => true
  | .event name _ =>
    [js "response.completed", js "response.incomplete", js "message_stop"].contains name
  | .data payload =>
    (arrayOfObjects (payload.prop "candidates")).any fun candidate => candidate.hasOwn "finishReason"

/-- What an encoder writes: frames, or the events of a Responses stream. -/
class Terminal (ω : Type) where
  isSuccess : ω → Bool

instance : Terminal Frame := ⟨Frame.isSuccess⟩

instance : Terminal ResponsesEvent := ⟨fun e => e.frame.isSuccess⟩

/-! ## What a method does before the end -/

variable {ω : Type} [Terminal ω]

/-- The encoder goes on as it was, and nothing tells of success. -/
structure Steady (s : EncoderState) (out : List ω) (s' : EncoderState) : Prop where
  failed : s'.failed = s.failed
  done : s'.done = s.done
  modest : ∀ f ∈ out, Terminal.isSuccess f = false

theorem steady : Composes (Steady (ω := ω)) where
  refl s := ⟨rfl, rfl, by simp⟩
  trans h h' :=
    { failed := h'.failed.trans h.failed
      done := h'.done.trans h.done
      modest := List.forall_mem_append.mpr ⟨h.modest, h'.modest⟩ }

/-- The encoder may fail, and nothing tells of success. -/
structure Modest (s : EncoderState) (out : List ω) (s' : EncoderState) : Prop where
  failed : s.failed = true → s'.failed = true
  done : s'.done = s.done
  modest : ∀ f ∈ out, Terminal.isSuccess f = false

theorem modest : Composes (Modest (ω := ω)) where
  refl s := ⟨id, rfl, by simp⟩
  trans h h' :=
    { failed := h'.failed ∘ h.failed
      done := h'.done.trans h.done
      modest := List.forall_mem_append.mpr ⟨h.modest, h'.modest⟩ }

theorem Steady.modest' {out : List ω} (h : Steady s out s') : Modest s out s' :=
  ⟨fun hs => h.failed.trans hs, h.done, h.modest⟩

theorem modest_of_steady {α : Type} {m : Encoding ω α} (h : Respects Steady m) : Respects Modest m :=
  h.mono Steady.modest'

theorem steady_emit {f : ω} (h : Terminal.isSuccess f = false) :
    Respects (ε := Empty) Steady (emit f) :=
  .emit fun s => ⟨rfl, rfl, by simpa using h⟩

theorem steady_modify {f : EncoderState → EncoderState}
    (h : ∀ s, (f s).failed = s.failed ∧ (f s).done = s.done) :
    Respects (ε := Empty) (Steady (ω := ω)) (modify f) :=
  .modify fun s => ⟨(h s).1, (h s).2, by simp⟩

/-! ## Shared methods -/

theorem steady_getTool (index : JsNumber) : Respects (Steady (ω := ω)) (getTool index) :=
  steady.bind steady.get fun _ => steady.pure _

theorem steady_putTool (tool : EncodedToolState) : Respects (Steady (ω := ω)) (putTool tool) :=
  steady_modify fun _ => ⟨rfl, rfl⟩

theorem steady_updateTool (index : JsNumber) (id name arguments : Option JsString)
    (toolType : Option ToolCallType) :
    Respects (Steady (ω := ω)) (updateTool index id name arguments toolType) :=
  steady.bind (steady_getTool _) fun _ => steady.bind (steady_putTool _) fun _ => steady.pure _

theorem steady_completeEncodedTool (index : JsNumber) :
    Respects (Steady (ω := ω)) (completeEncodedTool index) := by
  refine steady.bind (steady_getTool _) fun tool => ?_
  cases tool with
  | none => exact steady.pure _
  | some tool => exact steady_putTool _

theorem steady_mergeEncodedUsage (usage : CanonicalUsage) :
    Respects (Steady (ω := ω)) (mergeEncodedUsage usage) := steady_modify fun _ => ⟨rfl, rfl⟩

theorem steady_notePendingStop (reason : CanonicalStopReason) :
    Respects (Steady (ω := ω)) (notePendingStop reason) := steady_modify fun _ => ⟨rfl, rfl⟩

/-! ## OpenAI Chat -/

theorem steady_chatChoice (delta : JsonObject) (finishReason : Json) :
    Respects Steady (chatChoice delta finishReason) := by
  refine steady.bind steady.get fun s => steady_emit ?_
  show Frame.isSuccess _ = false
  simp +decide [Frame.isSuccess, openAiChatEnvelope, omitUndefined, literal, JsonObject.prop,
    Json.property?, arrayOfObjects, arrayValue]

theorem steady_ensureOpenAiChatStart : Respects Steady ensureOpenAiChatStart := by
  refine steady.bind steady.get fun s => .ite (fun _ => steady.pure _) fun _ => ?_
  exact steady.bind (steady_modify fun _ => ⟨rfl, rfl⟩) fun _ => steady_chatChoice _ _

theorem steady_emitHarnessTool (tool : EncodedToolState) : Respects Steady (emitHarnessTool tool) := by
  refine .ite (fun _ => steady.pure _) fun _ => steady.bind steady.get fun s => ?_
  refine steady.bind (steady_modify fun _ => ⟨rfl, rfl⟩) fun _ => ?_
  exact steady.bind (steady_putTool _) fun _ => steady_chatChoice _ _

theorem steady_chatToolCallDelta (index : JsNumber) (id name arguments : Option JsString) :
    Respects Steady (chatToolCallDelta index id name arguments) := by
  refine steady.bind steady.get fun s => ?_
  refine steady.bind (steady.whenever fun _ => steady_modify fun _ => ⟨rfl, rfl⟩) fun _ => ?_
  exact steady_chatChoice _ _

theorem steady_chatStop (options : EncodingOptions) (reason : CanonicalStopReason) :
    Respects Steady (chatStop options reason) := by
  refine steady.bind steady.get fun s => .ite (fun _ => steady.pure _) fun _ => ?_
  refine steady.bind steady_ensureOpenAiChatStart fun _ =>
    steady.bind (steady.whenever fun _ => ?_) fun _ =>
    steady.bind (steady_modify fun _ => ⟨rfl, rfl⟩) fun _ => steady_chatChoice _ _
  refine steady.bind (steady.whenever fun _ =>
    steady.forM (fun _ => steady_completeEncodedTool _) _) fun _ => ?_
  exact steady.bind steady.get fun s => steady.forM steady_emitHarnessTool _

variable {event : StreamEvent}

/-- Before an error and before the end a Chat stream goes on. -/
theorem steady_encodeOpenAiChat (options : EncodingOptions) (herror : isError event = false)
    (hdone : event ≠ .done) : Respects Steady (encodeOpenAiChat options event) := by
  cases event with
  | start => exact steady_ensureOpenAiChatStart
  | textDelta => exact steady.bind steady_ensureOpenAiChatStart fun _ => steady_chatChoice _ _
  | reasoningProgress => exact steady.pure _
  | toolCallDelta =>
      refine steady.bind steady_ensureOpenAiChatStart fun _ => .ite (fun _ => ?_) fun _ =>
        steady_chatToolCallDelta _ _ _ _
      exact steady.bind (steady_updateTool _ _ _ _ _) fun _ => steady.pure _
  | toolCallComplete => exact steady_completeEncodedTool _
  | messageComplete => exact steady.pure _
  | usage => exact steady_mergeEncodedUsage _
  | stop => exact steady_chatStop _ _
  | error => simp [isError] at herror
  | done => exact absurd rfl hdone

/-! ## Anthropic Messages -/

theorem steady_ensureAnthropicStart : Respects Steady ensureAnthropicStart := by
  refine steady.bind steady.get fun s => .ite (fun _ => steady.pure _) fun _ => ?_
  refine steady.bind (steady_modify fun _ => ⟨rfl, rfl⟩) fun _ => steady.bind steady.get fun s => ?_
  exact steady_emit rfl

theorem steady_closeAnthropicText : Respects Steady closeAnthropicText := by
  refine steady.bind steady.get fun s => steady.whenever fun _ => ?_
  exact steady.bind (steady_modify fun _ => ⟨rfl, rfl⟩) fun _ => steady_emit rfl

theorem steady_nextContentIndex : Respects Steady nextContentIndex :=
  steady.bind steady.get fun _ => steady.bind (steady_modify fun _ => ⟨rfl, rfl⟩) fun _ =>
    steady.pure _

theorem steady_ensureAnthropicToolStarted (tool : EncodedToolState) (force : Bool) :
    Respects Steady (ensureAnthropicToolStarted tool force) := by
  refine .ite (fun _ => steady.pure _) fun _ => steady.bind steady_closeAnthropicText fun _ =>
    steady.bind steady_nextContentIndex fun _ => steady.bind (steady_putTool _) fun _ =>
    steady.bind steady.get fun s => ?_
  exact steady.bind (steady_emit rfl) fun _ => steady.pure _

theorem steady_anthropicTextDelta (text : JsString) : Respects Steady (anthropicTextDelta text) := by
  refine steady.bind steady_ensureAnthropicStart fun _ => steady.bind steady.get fun s =>
    steady.bind (steady.whenever fun _ => ?_) fun _ => steady.bind steady.get fun s =>
    steady_emit rfl
  refine steady.bind steady_nextContentIndex fun index => ?_
  exact steady.bind (steady_modify fun _ => ⟨rfl, rfl⟩) fun _ => steady_emit rfl

theorem steady_anthropicToolCallDelta (index : JsNumber) (id name arguments : Option JsString)
    (toolType : Option ToolCallType) :
    Respects Steady (anthropicToolCallDelta index id name arguments toolType) := by
  refine steady.bind steady_ensureAnthropicStart fun _ => steady.bind (steady_updateTool _ _ _ _ _)
    fun tool => steady.bind (steady_ensureAnthropicToolStarted _ _) fun started => ?_
  cases arguments with
  | none => exact steady.pure _
  | some arguments =>
      refine steady.whenever fun _ => ?_
      exact steady.bind (steady_emit rfl) fun _ => steady_putTool _

/-- Before an error and before the end an Anthropic stream goes on. -/
theorem steady_encodeAnthropic (herror : isError event = false) (hdone : event ≠ .done) :
    Respects Steady (encodeAnthropic event) := by
  cases event with
  | start => exact steady.pure _
  | textDelta => exact steady_anthropicTextDelta _
  | reasoningProgress => exact steady.pure _
  | toolCallDelta => exact steady_anthropicToolCallDelta _ _ _ _ _
  | toolCallComplete => exact steady.pure _
  | messageComplete => exact steady.pure _
  | usage =>
      refine steady.bind (steady_mergeEncodedUsage _) fun _ => steady.bind steady.get fun s => ?_
      exact steady.whenever fun _ => steady_emit rfl
  | stop => exact steady_notePendingStop _
  | error => simp [isError] at herror
  | done => exact absurd rfl hdone

/-! ## Gemini -/

theorem isSuccess_geminiContent (s : EncoderState) (parts : List Json) :
    (Frame.data (geminiChunk s (omitUndefined [("content", modelContent parts)]))).isSuccess =
      false := by
  simp +decide [Frame.isSuccess, geminiChunk, modelContent, omitUndefined, JsonObject.prop,
    Json.property?, arrayOfObjects, arrayValue, JsonObject.hasOwn, objectValue]

/-- A tool whose arguments are no object fails the stream. -/
theorem modest_emitGeminiTool (tool : EncodedToolState) : Respects Modest (emitGeminiTool tool) := by
  refine .ite (fun _ => modest.pure _) fun _ => ?_
  split
  · refine modest.bind (.modify fun s => ⟨fun _ => rfl, rfl, by simp⟩) fun _ => ?_
    exact modest.bind (modest_of_steady (steady_emit rfl)) fun _ => modest.pure _
  · refine modest.bind (modest_of_steady (steady_putTool _)) fun _ => modest.bind modest.get fun s => ?_
    exact modest.bind (modest_of_steady (steady_emit (isSuccess_geminiContent _ _))) fun _ =>
      modest.pure _

/-- Before the end a Gemini stream tells of no success. -/
theorem modest_encodeGemini (hdone : event ≠ .done) : Respects Modest (encodeGemini event) := by
  cases event with
  | start => exact modest_of_steady (steady_modify fun _ => ⟨rfl, rfl⟩)
  | textDelta =>
      exact modest.bind modest.get fun s =>
        modest_of_steady (steady_emit (isSuccess_geminiContent _ _))
  | reasoningProgress => exact modest.pure _
  | toolCallDelta =>
      exact modest_of_steady (steady.bind (steady_updateTool _ _ _ _ _) fun _ => steady.pure _)
  | toolCallComplete =>
      refine modest.bind (modest_of_steady (steady_getTool _)) fun tool => ?_
      cases tool with
      | none => exact modest.pure _
      | some tool => exact modest.bind (modest_emitGeminiTool tool) fun _ => modest.pure _
  | messageComplete => exact modest.pure _
  | usage =>
      refine modest_of_steady (steady.bind (steady_mergeEncodedUsage _) fun _ =>
        steady.bind steady.get fun s => ?_)
      exact steady.whenever fun _ => steady_emit rfl
  | stop => exact modest_of_steady (steady_notePendingStop _)
  | error =>
      refine modest.bind (.modify fun s => ⟨fun _ => rfl, rfl, by simp⟩) fun _ => ?_
      exact modest_of_steady (steady_emit rfl)
  | done => exact absurd rfl hdone

/-! ## OpenAI Responses -/

theorem steady_ensureResponsesStart : Respects Steady ensureResponsesStart := by
  refine steady.bind steady.get fun s => .ite (fun _ => steady.pure _) fun _ => ?_
  refine steady.bind (steady_modify fun _ => ⟨rfl, rfl⟩) fun _ => steady.bind steady.get fun s => ?_
  exact steady_emit rfl

theorem steady_nextOutputIndex : Respects Steady nextOutputIndex :=
  steady.bind steady.get fun _ => steady.bind (steady_modify fun _ => ⟨rfl, rfl⟩) fun _ =>
    steady.pure _

theorem steady_ensureResponsesTextStarted : Respects Steady ensureResponsesTextStarted := by
  refine steady.bind steady.get fun s => .ite (fun _ => steady.pure _) fun _ =>
    steady.bind steady_nextOutputIndex fun index =>
    steady.bind (steady_modify fun _ => ⟨rfl, rfl⟩) fun _ => steady.bind steady.get fun s => ?_
  exact steady.bind (steady_emit rfl) fun _ => steady_emit rfl

theorem steady_reserveResponsesToolOutputIndex (tool : EncodedToolState) :
    Respects Steady (reserveResponsesToolOutputIndex tool) := by
  refine .ite (fun _ => steady.pure _) fun _ => steady.bind steady_nextOutputIndex fun index => ?_
  exact steady.bind (steady_putTool _) fun _ => steady.pure _

theorem steady_ensureResponsesToolStarted (tool : EncodedToolState) (force : Bool) :
    Respects Steady (ensureResponsesToolStarted tool force) := by
  refine .ite (fun _ => steady.pure _) fun _ =>
    steady.bind (steady_reserveResponsesToolOutputIndex _) fun reserved =>
    steady.bind steady.get fun s => steady.bind (steady_putTool _) fun _ => ?_
  exact steady.bind (steady_emit rfl) fun _ => steady.pure _

theorem isSuccess_toolDelta (custom : Bool) (responseId : JsString) (itemId : Option JsString)
    (outputIndex : Option Nat) (delta : JsString) :
    Terminal.isSuccess (ResponsesEvent.toolDelta custom responseId itemId outputIndex delta) =
      false := by
  cases custom <;> rfl

theorem steady_streamArguments (tool : EncodedToolState) (wasStarted : Bool)
    (arguments : Option JsString) :
    Respects Steady (streamArguments tool wasStarted arguments) := by
  cases arguments with
  | none => exact steady.pure _
  | some arguments =>
      refine steady.whenever fun _ => steady.bind steady.get fun s => ?_
      exact steady.bind (steady_emit (isSuccess_toolDelta _ _ _ _ _)) fun _ => steady_putTool _

theorem steady_responsesTextDelta (text : JsString) (index : Option JsNumber) :
    Respects Steady (responsesTextDelta text index) := by
  refine steady.bind steady_ensureResponsesStart fun _ =>
    steady.bind steady_ensureResponsesTextStarted fun _ =>
    steady.bind (steady_modify fun _ => ⟨rfl, rfl⟩) fun _ => steady.bind steady.get fun s => ?_
  exact steady_emit rfl

theorem steady_responsesToolCallDelta (options : EncodingOptions) (index : JsNumber)
    (id name arguments : Option JsString) (toolType : Option ToolCallType) :
    Respects Steady (responsesToolCallDelta options index id name arguments toolType) := by
  refine steady.bind steady_ensureResponsesStart fun _ =>
    steady.bind (steady_updateTool _ _ _ _ _) fun tool =>
    steady.bind (steady_reserveResponsesToolOutputIndex _) fun tool =>
    .ite (fun _ => steady.pure _) fun _ => ?_
  exact steady.bind (steady_ensureResponsesToolStarted _ _) fun started =>
    steady_streamArguments _ _ _

/-- The program fails the encoder and then goes on. -/
structure Failing (m : Encoding ω Unit) : Prop where
  modest : Respects Modest m
  failed : ∀ s, wp m s (fun _ s' _ => s'.failed = true) fun _ s' _ => s'.failed = true

theorem failing_bind {m : Encoding ω Unit} (h : Respects Steady m) :
    Failing (Effect.modify (fun s : EncoderState => { s with failed := true }) >>= fun _ => m) where
  modest := modest.bind (.modify fun s => ⟨fun _ => rfl, rfl, by simp⟩) fun _ => modest_of_steady h
  failed s := by
    rw [wp_bind, wp_modify]
    exact wp_mono (h _) (fun _ _ _ h => h.failed) fun _ _ _ h => h.failed

/-- The frames of an error. -/
theorem failing_encodeResponsesError (message : JsString) (code errorType : Option JsString) :
    Failing (encodeResponsesError message code errorType) := by
  refine failing_bind (steady.bind steady.get fun s => ?_)
  refine steady.bind (steady.whenever fun _ => steady_ensureResponsesStart) fun _ =>
    steady.bind (steady_emit rfl) fun _ => steady.whenever fun _ => steady.bind steady.get fun s => ?_
  exact steady.bind (steady_emit rfl) fun _ => steady_modify fun _ => ⟨rfl, rfl⟩

/-- Programs that write events do what they do when they write the frames. -/
theorem modest_mapOutput {α : Type} {m : Encoding ResponsesEvent α} (h : Respects Modest m) :
    Respects Modest (mapOutput ResponsesEvent.frame m) := by
  have hframes {s s' : EncoderState} {out : List ResponsesEvent} (h : Modest s out s') :
      Modest s (out.map ResponsesEvent.frame) s' :=
    ⟨h.failed, h.done, List.forall_mem_map.mpr h.modest⟩
  intro s
  rw [wp_mapOutput]
  exact wp_mono (h s) (fun _ _ _ => hframes) fun _ _ _ => hframes

theorem failing_mapOutput {m : Encoding ResponsesEvent Unit} (h : Failing m) :
    Failing (mapOutput ResponsesEvent.frame m) where
  modest := modest_mapOutput h.modest
  failed s := by
    rw [wp_mapOutput]
    exact h.failed s

/-- Before the end a Responses stream tells of no success. -/
theorem modest_encodeOpenAiResponses (options : EncodingOptions) (hdone : event ≠ .done) :
    Respects Modest (encodeOpenAiResponses options event) := by
  cases event with
  | start => exact modest_of_steady steady_ensureResponsesStart
  | textDelta => exact modest_of_steady (steady_responsesTextDelta _ _)
  | reasoningProgress => exact modest.pure _
  | toolCallDelta => exact modest_of_steady (steady_responsesToolCallDelta _ _ _ _ _ _)
  | toolCallComplete => exact modest_of_steady (steady_completeEncodedTool _)
  | messageComplete => exact modest_of_steady (steady_modify fun _ => ⟨rfl, rfl⟩)
  | usage => exact modest_of_steady (steady_mergeEncodedUsage _)
  | stop => exact modest_of_steady (steady_notePendingStop _)
  | error => exact (failing_encodeResponsesError _ _ _).modest
  | done => exact absurd rfl hdone

/-! ## Events -/

variable (protocol : Protocol) (options : EncodingOptions)

/-- An error fails every encoder. -/
theorem failing_encodeEvent (h : isError event = true) :
    Failing (encodeEvent protocol options event) := by
  cases event with
  | error message code errorType =>
      cases protocol with
      | openaiChat => exact failing_bind (steady_emit rfl)
      | openaiResponses => exact failing_mapOutput (failing_encodeResponsesError _ _ _)
      | anthropicMessages => exact failing_bind (steady_emit rfl)
      | gemini => exact failing_bind (steady_emit rfl)
  | _ => simp [isError] at h

/-- Only `done` may tell of success. -/
theorem modest_encodeEvent (hdone : event ≠ .done) :
    Respects Modest (encodeEvent protocol options event) := by
  by_cases herror : isError event = true
  · exact (failing_encodeEvent protocol options herror).modest
  · rw [Bool.not_eq_true] at herror
    cases protocol with
    | openaiChat => exact modest_of_steady (steady_encodeOpenAiChat options herror hdone)
    | openaiResponses => exact modest_mapOutput (modest_encodeOpenAiResponses options hdone)
    | anthropicMessages => exact modest_of_steady (steady_encodeAnthropic herror hdone)
    | gemini => exact modest_encodeGemini hdone

/-- A failed encoder ends without a word. -/
theorem encodeEvent_done {s : EncoderState} (h : s.failed = true) :
    encodeEvent protocol options .done s = (.ok (), { s with done := true }, []) := by
  have hended {ω : Type} (m : Encoding ω Unit) :
      (if s.failed = true then Effect.modify fun s : EncoderState => { s with done := true }
        else m) s = (.ok (), { s with done := true }, []) := by
    rw [if_pos h]
    rfl
  cases protocol with
  | openaiChat => exact hended _
  | openaiResponses =>
      have hdone : responsesDone options s = (.ok (), { s with done := true }, []) := hended _
      show mapOutput ResponsesEvent.frame (responsesDone options) s = _
      rw [mapOutput, hdone]
      rfl
  | anthropicMessages => exact hended _
  | gemini => exact hended _

/-! ## Streams -/

/-- The encoder has failed or is done: nothing tells of success any more. -/
def Blocked (s : EncoderState) : Prop := s.failed = true ∨ s.done = true

theorem noteStart_flags (event : StreamEvent) (s : EncoderState) :
    (noteStart event s).failed = s.failed ∧ (noteStart event s).done = s.done := by
  unfold noteStart
  split <;> exact ⟨rfl, rfl⟩

/-- One event that does not end an encoder that has not failed. -/
theorem encode_modest (h : event = .done → Blocked s) :
    (∀ f ∈ (encode protocol options s event).1, f.isSuccess = false) ∧
      (Blocked s ∨ isError event = true → Blocked (encode protocol options s event).2) := by
  obtain ⟨hfailed, hdone⟩ := noteStart_flags event s
  unfold encode
  split
  · next hs => exact ⟨by simp, fun _ => .inr hs⟩
  · next hs =>
      dsimp only
      by_cases hend : event = .done
      · subst hend
        have hblocked : s.failed = true := (h rfl).resolve_right hs
        rw [encodeEvent_done protocol options (hfailed.trans hblocked)]
        exact ⟨by simp, fun _ => .inr rfl⟩
      · have hmodest := of_wp (modest_encodeEvent protocol options hend (noteStart event s))
        refine ⟨hmodest.modest, fun hblocked => .inl ?_⟩
        rcases hblocked with (hblocked | hblocked) | herror
        · exact hmodest.failed (hfailed.trans hblocked)
        · exact absurd hblocked hs
        · exact of_wp ((failing_encodeEvent protocol options herror).failed _)

/-- Every `done` comes after an error. -/
def DoneAfterError : Bool → List StreamEvent → Prop
  | _, [] => True
  | failed, e :: es => (e = .done → failed = true) ∧ DoneAfterError (failed || isError e) es

theorem encodeAll_modest (hs : failed = true → Blocked s) (h : DoneAfterError failed events) :
    (∀ f ∈ (encodeAll protocol options s events).1, f.isSuccess = false) ∧
      ((failed || events.any isError) = true →
        Blocked (encodeAll protocol options s events).2) := by
  induction events generalizing s failed with
  | nil => exact ⟨by simp [encodeAll], by simpa [encodeAll] using hs⟩
  | cons event events ih =>
      obtain ⟨hframes, hblocked⟩ := encode_modest protocol options fun hend => hs (h.1 hend)
      have hstep : (failed || isError event) = true →
          Blocked (encode protocol options s event).2 := by
        intro hor
        rcases Bool.or_eq_true _ _ ▸ hor with hfailed | herror
        · exact hblocked (.inl (hs hfailed))
        · exact hblocked (.inr herror)
      obtain ⟨hrest, hend⟩ := ih hstep h.2
      refine ⟨List.forall_mem_append.mpr ⟨hframes, hrest⟩, fun hor => hend ?_⟩
      simpa [Bool.or_assoc] using hor

/-- Events that end only after an error tell no client of success. -/
theorem encodeStream_modest {events : List StreamEvent} (h : DoneAfterError false events)
    (herror : events.any isError = true) :
    ∀ f ∈ encodeStream protocol options events, f.isSuccess = false := by
  have hstart : false = true → Blocked (.init protocol options) := fun hfalse => by cases hfalse
  obtain ⟨hframes, hblocked⟩ := encodeAll_modest protocol options hstart h
  have hend := hblocked (by rw [Bool.false_or, herror])
  refine List.forall_mem_append.mpr ⟨hframes, ?_⟩
  unfold finishEncoding
  split
  · simp
  · exact (encode_modest protocol options fun _ => hend).1

/-- A Chat encoder that is told of the end before it is told of an error tells
of success. -/
theorem chat_isSuccess (hfailed : s.failed = false) (hdone : s.done = false)
    (hbefore : ∀ e ∈ before, isError e = false) (after : List StreamEvent) :
    ∃ f ∈ (encodeAll .openaiChat options s (before ++ .done :: after)).1, f.isSuccess = true := by
  have hend (s : EncoderState) (hfailed : s.failed = false) (hdone : s.done = false) :
      Frame.doneMarker ∈ (encode .openaiChat options s .done).1 := by
    have hencode : encode .openaiChat options s .done = ((chatDone s).2.2, (chatDone s).2.1) := by
      rw [encode, if_neg (by simp [hdone])]
      rfl
    rw [hencode]
    refine of_wp (P := fun _ out => Frame.doneMarker ∈ out) ?_
    simp only [chatDone, wp_bind, wp_get, hfailed, Bool.false_eq_true, if_false]
    refine wp_mono (wp_true _ s) ?_ fun e => e.elim
    intro _ s' out _
    simp
  induction before generalizing s with
  | nil =>
      exact ⟨.doneMarker, List.mem_append_left _ (hend s hfailed hdone), rfl⟩
  | cons event before ih =>
      obtain ⟨herror, hrest⟩ := List.forall_mem_cons.mp hbefore
      by_cases hevent : event = .done
      · subst hevent
        exact ⟨.doneMarker, List.mem_append_left _ (hend s hfailed hdone), rfl⟩
      · obtain ⟨hfailed', hdone'⟩ := noteStart_flags event s
        have hsteady := of_wp (steady_encodeOpenAiChat options herror hevent (noteStart event s))
        have hencode : encode .openaiChat options s event =
            ((encodeOpenAiChat options event (noteStart event s)).2.2,
              (encodeOpenAiChat options event (noteStart event s)).2.1) := by
          rw [encode, if_neg (by simp [hdone])]
          rfl
        obtain ⟨f, hf, hsuccess⟩ := ih
          (hsteady.failed.trans (hfailed'.trans hfailed))
          (hsteady.done.trans (hdone'.trans hdone)) hrest
        refine ⟨f, ?_, hsuccess⟩
        rw [List.cons_append, encodeAll, hencode]
        exact List.mem_append_right _ hf

end StonePlus.Streaming
