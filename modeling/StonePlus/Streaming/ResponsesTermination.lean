import StonePlus.Streaming.ResponsesClosing

/-!
# StonePlus.Streaming.ResponsesTermination

When a Responses stream terminates properly.

A stream is open until it fails or is done.  `ResponsesStepOk` names what may
not happen to it: output after a failure, a change of an announced item,
arguments that were skipped, a failure that leaves a gap, and a bridge that
rejects the tool calls.
-/

namespace StonePlus.Streaming

open Lib Effect

/-! ## Streams -/

/-- `encode` of the Responses encoder, before its events are written as frames. -/
def encodeResponses (options : EncodingOptions) (s : EncoderState) (event : StreamEvent) :
    List ResponsesEvent × EncoderState :=
  if s.done then ([], s)
  else
    let encoded := encodeOpenAiResponses options event (noteStart event s)
    (encoded.2.2, encoded.2.1)

/-- One more event: the state and all events that have been written. -/
def responsesStep (options : EncodingOptions) (p : EncoderState × List ResponsesEvent)
    (event : StreamEvent) : EncoderState × List ResponsesEvent :=
  let encoded := encodeResponses options p.1 event
  (encoded.2, p.2 ++ encoded.1)

/-- A stream: a new encoder is fed events and finished. -/
def responsesStream (options : EncodingOptions) (events : List StreamEvent) : List ResponsesEvent :=
  (run (responsesStep options) (.init .openaiResponses options, []) (events ++ [.done])).2

theorem encode_responses (options : EncodingOptions) (s : EncoderState) (event : StreamEvent) :
    encode .openaiResponses options s event =
      ((encodeResponses options s event).1.map ResponsesEvent.frame,
        (encodeResponses options s event).2) := by
  unfold encode encodeResponses
  split
  · rfl
  · rfl

theorem encodeAll_responses (options : EncodingOptions) (s : EncoderState)
    (written : List ResponsesEvent) (events : List StreamEvent) :
    let p := run (responsesStep options) (s, written) events
    (encodeAll .openaiResponses options s events).2 = p.1 ∧
      written.map ResponsesEvent.frame ++ (encodeAll .openaiResponses options s events).1 =
        p.2.map ResponsesEvent.frame := by
  induction events generalizing s written with
  | nil => simp [encodeAll]
  | cons event events ih =>
      simp only [encodeAll, encode_responses, run_cons, responsesStep]
      obtain ⟨hstate, hout⟩ := ih (encodeResponses options s event).2
        (written ++ (encodeResponses options s event).1)
      exact ⟨hstate, by rw [← hout, List.map_append, List.append_assoc]⟩

/-- The frames of a stream are those of its events. -/
theorem encodeStream_responses (options : EncodingOptions) (events : List StreamEvent) :
    encodeStream .openaiResponses options events =
      (responsesStream options events).map ResponsesEvent.frame := by
  obtain ⟨hstate, hout⟩ := encodeAll_responses options (.init .openaiResponses options) [] events
  unfold encodeStream responsesStream
  rw [run_append, run_cons, run_nil, responsesStep, List.map_append, ← hout, ← hstate, List.map_nil,
    List.nil_append]
  dsimp only
  congr 1
  unfold finishEncoding
  split
  · next hdone => simp [encodeResponses, hdone]
  · rw [encode_responses]

/-! ## What may not happen -/

/-- The indices of the announced items. -/
def announcedIndices (s : EncoderState) : List Nat :=
  (if s.responsesTextStarted then s.responsesTextOutputIndex.toList else []) ++
    (s.tools.values.filter EncodedToolState.started).filterMap EncodedToolState.outputIndex

/-- No item has been announced above the index of a tool that has not. -/
def leavesNoGap (s : EncoderState) : Bool :=
  (s.tools.values.filter fun tool => !tool.started).all fun tool =>
    tool.outputIndex.all fun i => (announcedIndices s).all fun j => decide (j < i)

/-- The bridge authorizes the tool calls. -/
def authorizesTools (options : EncodingOptions) (s : EncoderState) : Bool :=
  match prepareTools options.toolBridgePlan s.tools.values with
  | .ok _ => true
  | .error _ => false

/-- A delta for a tool call of a failed stream that has nothing to announce and
nothing to stream. -/
def SilentDelta (options : EncodingOptions) (tool merged : EncodedToolState)
    (arguments : Option JsString) : Prop :=
  withholdsTools options = true ∨
    if tool.started then arguments.getD [] = [] else merged.name = []

instance (options : EncodingOptions) (tool merged : EncodedToolState)
    (arguments : Option JsString) : Decidable (SilentDelta options tool merged arguments) :=
  inferInstanceAs (Decidable (_ ∨ ite _ _ _))

/-- A delta for a tool call of an open stream that keeps the announced item and
skips no arguments. -/
def SteadyDelta (tool merged : EncodedToolState) (arguments : Option JsString) : Prop :=
  KeepsItem tool merged ∧ KeepsUp tool arguments

instance (tool merged : EncodedToolState) (arguments : Option JsString) :
    Decidable (SteadyDelta tool merged arguments) :=
  inferInstanceAs (Decidable (_ ∧ _))

/-- An event that the stream survives. -/
def Survives (options : EncodingOptions) (s : EncoderState) : StreamEvent → Prop
  | .start id model createdAt => s.failed = true ∨ KeepsId s (.start id model createdAt)
  | .textDelta .. => s.failed = false
  | .toolCallDelta index id name arguments toolType _ =>
    let tool := toolAt s index
    let merged := mergeToolDelta tool id name arguments toolType
    if s.failed then SilentDelta options tool merged arguments
    else SteadyDelta tool merged arguments
  | .error .. => s.failed = true ∨ leavesNoGap s = true
  | .done => s.failed = true ∨ authorizesTools options s = true
  | .toolCallComplete _ | .messageComplete _ | .usage _ | .stop .. | .reasoningProgress => True

instance (options : EncodingOptions) (s : EncoderState) :
    (event : StreamEvent) → Decidable (Survives options s event)
  | .start id model createdAt =>
    inferInstanceAs (Decidable (_ ∨ KeepsId s (.start id model createdAt)))
  | .textDelta .. => inferInstanceAs (Decidable (_ = _))
  | .toolCallDelta .. => inferInstanceAs (Decidable (ite _ _ _))
  | .error .. => inferInstanceAs (Decidable (_ ∨ _))
  | .done => inferInstanceAs (Decidable (_ ∨ _))
  | .toolCallComplete _ | .messageComplete _ | .usage _ | .stop .. | .reasoningProgress =>
    inferInstanceAs (Decidable True)

/-- Nothing is written once the stream is done. -/
def ResponsesStepOk (options : EncodingOptions) (p : EncoderState × List ResponsesEvent)
    (event : StreamEvent) : Prop :=
  p.1.done = true ∨ Survives options p.1 event

instance (options : EncodingOptions) (p : EncoderState × List ResponsesEvent) (event : StreamEvent) :
    Decidable (ResponsesStepOk options p event) :=
  inferInstanceAs (Decidable (_ ∨ _))

/-! ## Failed streams -/

/-- A failure has been reported: the stream has ended. -/
structure Reported (s : EncoderState) (events : List ResponsesEvent) : Prop where
  failed : s.failed = true
  reported : s.responsesFailureEmitted = true
  terminates : TerminatesProperly events

variable {options : EncodingOptions} {s : EncoderState} {events : List ResponsesEvent}

theorem Reported.emit (h : Reported s events) (hterminal : e.isTerminal = false)
    (hout : e.isOutput = false) : Reported s (events ++ [e]) where
  failed := h.failed
  reported := h.reported
  terminates := h.terminates.append fun _ he => List.mem_singleton.mp he ▸ ⟨hterminal, hout⟩

theorem Reported.congr (h : Reported s events) (hfailed : s'.failed = s.failed)
    (hreported : s'.responsesFailureEmitted = s.responsesFailureEmitted) : Reported s' events :=
  ⟨hfailed.trans h.failed, hreported.trans h.reported, h.terminates⟩

theorem Reported.ensureResponsesStart (h : Reported s events) :
    Reaches ensureResponsesStart s events fun _ s' events' =>
      Reported s' events' ∧ s'.tools = s.tools := by
  unfold Streaming.ensureResponsesStart
  rw [reaches_bind, reaches_get]
  split
  · rw [reaches_pure]
    exact ⟨h, rfl⟩
  · simp only [reaches_bind, reaches_modify, reaches_get, reaches_emit]
    have hs : Reported { s with started := true } events := h.congr rfl rfl
    exact ⟨hs.emit rfl rfl, trivial⟩

theorem Reported.reserve (h : Reported s events) (tool : EncodedToolState) :
    Reaches (reserveResponsesToolOutputIndex tool) s events fun tool' s' events' =>
      Reported s' events' ∧ tool'.started = tool.started ∧ tool'.name = tool.name := by
  unfold reserveResponsesToolOutputIndex nextOutputIndex
  split
  · rw [reaches_pure]
    exact ⟨h, rfl, rfl⟩
  · simp only [reaches_bind, reaches_get, reaches_modify, reaches_pure, reaches_putTool]
    exact ⟨h.congr rfl rfl, trivial, trivial⟩

theorem Reported.toolCallDelta (h : Reported s events) {index : JsNumber}
    {id name arguments : Option JsString} {toolType : Option ToolCallType}
    (hsilent : SilentDelta options (toolAt s index)
      (mergeToolDelta (toolAt s index) id name arguments toolType) arguments) :
    Reaches (responsesToolCallDelta options index id name arguments toolType) s events
      fun _ s' events' => Reported s' events' := by
  unfold responsesToolCallDelta updateTool getTool
  refine h.ensureResponsesStart.bind ?_
  rintro _ s₁ events₁ ⟨h₁, htools⟩
  simp only [reaches_bind, reaches_get, reaches_pure, reaches_putTool, htools]
  rw [show (s.tools.get? (mapKey index)).getD { index } = toolAt s index from rfl]
  set merged := mergeToolDelta (toolAt s index) id name arguments toolType
  have h₂ : Reported (withTool s₁ merged) events₁ := h₁.congr rfl rfl
  refine (h₂.reserve merged).mono ?_
  rintro tool s₃ events₃ ⟨h₃, hstarted, hname⟩
  split
  · rw [reaches_pure]
    exact h₃
  · next hopen =>
    rcases hsilent with hwithheld | hsilent
    · exact absurd hwithheld hopen
    -- nothing is announced, and nothing is left to stream
    have hsame : ensureResponsesToolStarted tool false = pure tool := by
      unfold ensureResponsesToolStarted
      rw [if_pos]
      by_cases hannounced : (toolAt s index).started = true
      · rw [hstarted, show merged.started = true from hannounced]
        rfl
      · rw [if_neg hannounced] at hsilent
        rw [hname, hsilent]
        simp
    rw [hsame, reaches_bind, reaches_pure]
    unfold streamArguments
    cases arguments with
    | none =>
        rw [reaches_pure]
        exact h₃
    | some given =>
        refine reaches_whenever (fun hsome => ?_) fun _ => h₃
        simp only [Bool.and_eq_true] at hsome
        have hannounced : (toolAt s index).started = true :=
          (show merged.started = true by rw [← hstarted, hsome.1])
        rw [if_pos hannounced] at hsilent
        rw [hsome.1, if_pos rfl, show given = [] from hsilent] at hsome
        simp at hsome

theorem Reported.error (h : Reported s events) (message : JsString)
    (code errorType : Option JsString) :
    Reaches (encodeResponsesError message code errorType) s events fun _ s' events' =>
      Reported s' events' := by
  unfold encodeResponsesError
  simp only [reaches_bind, reaches_modify, reaches_get]
  have hs : Reported { s with failed := true } events := ⟨rfl, h.reported, h.terminates⟩
  refine reaches_whenever (fun hfirst => absurd hfirst (by simp [h.reported])) fun _ => ?_
  rw [reaches_emit]
  refine reaches_whenever (fun hfirst => absurd hfirst (by simp [h.reported])) fun _ => ?_
  exact hs.emit rfl rfl

/-! ## Failing -/

theorem Open.gapFree (h : Open options s events) (hgap : leavesNoGap s = true)
    (hi : (outputSlots options s).index a = some i)
    (hquiet : (outputSlots options s).item a = none)
    (hj : (outputSlots options s).index b = some j)
    (hannounced : (outputSlots options s).item b ≠ none) : j < i := by
  have hmem : j ∈ announcedIndices s := by
    rw [announcedIndices, List.mem_append]
    cases b with
    | text =>
        have hstarted : s.responsesTextStarted = true := by
          by_contra hnot
          exact hannounced (if_neg hnot)
        have hindex : s.responsesTextOutputIndex = some j := hj
        left
        rw [if_pos hstarted, hindex]
        exact List.mem_singleton_self j
    | tool key =>
        obtain ⟨tool, htool, hindex⟩ := Option.bind_eq_some_iff.mp hj
        have hstarted : tool.started = true := by
          by_contra hnot
          refine hannounced ?_
          simp only [outputSlots, htool, Option.bind_some, announcedTool, if_neg hnot]
        right
        refine List.mem_filterMap.mpr ⟨tool, List.mem_filter.mpr ⟨?_, hstarted⟩, hindex⟩
        exact JsMap.mem_values_iff.mpr ⟨key, htool⟩
  cases a with
  | text =>
      have hnot : s.responsesTextStarted = false := by
        by_contra hstarted
        simp [outputSlots, hstarted] at hquiet
      rw [show (outputSlots options s).index .text = s.responsesTextOutputIndex from rfl,
        h.textIndex hnot] at hi
      cases hi
  | tool key =>
      obtain ⟨tool, htool, hindex⟩ := Option.bind_eq_some_iff.mp hi
      have hnot : tool.started = false := by
        by_contra hstarted
        simp [outputSlots, htool, announcedTool, hstarted] at hquiet
      have htoolMem : tool ∈ s.tools.values.filter fun tool => !tool.started :=
        List.mem_filter.mpr ⟨JsMap.mem_values_iff.mpr ⟨key, htool⟩, by simp [hnot]⟩
      have hall := List.all_eq_true.mp hgap tool htoolMem
      rw [hindex, Option.all_some] at hall
      exact of_decide_eq_true (List.all_eq_true.mp hall j hmem)

/-- A failed response ends a stream without a gap. -/
theorem Open.fails (h : Open options s events) (hgap : leavesNoGap s = true) (he : e.Ongoing)
    (hentry : e.slotEntry? = none) :
    TerminatesProperly (events ++ [e] ++ [.failed response detail]) := by
  have hemit := h.emit he hentry
  have hfailed : ∀ item, (ResponsesEvent.failed response detail).added? ≠ some (none, item) := by
    simp [ResponsesEvent.added?]
  have hindexed : Indexed (events ++ [e] ++ [.failed response detail]) := by
    intro e' he'
    rcases List.mem_append.mp he' with he' | he'
    · exact (hemit.ongoing e' he').2.2
    · exact List.mem_singleton.mp he' ▸ hfailed
  have hlog : slotLog (events ++ [e] ++ [.failed response detail]) = slotLog events := by
    have : slotLog [e] = [] := by simp [slotLog, hentry]
    rw [slotLog_append, slotLog_append, this]
    simp [slotLog, ResponsesEvent.slotEntry?]
  have hdone : doneIndices (events ++ [e] ++ [.failed response detail]) = [] := by
    rw [doneIndices, List.filterMap_append, ← doneIndices, doneIndices_of_ongoing hemit.ongoing]
    rfl
  constructor
  · exact ⟨events ++ [e], _, [], rfl, rfl, fun e' he' => (hemit.ongoing e' he').1, by simp⟩
  · refine ⟨(announcements (slotLog events)).length, ?_⟩
    rw [addedItems_eq hindexed, hlog, List.map_map]
    have hperm := (h.agrees.perm_range fun hi hquiet hj hannounced =>
      h.gapFree hgap hi hquiet hj hannounced).map some
    rwa [List.map_map] at hperm
  · rw [hdone]
    exact List.nodup_nil
  · intro i hi
    rw [hdone] at hi
    cases hi
  · intro e' he' response' hresponse'
    rcases List.mem_append.mp he' with he' | he'
    · have hquiet := (hemit.ongoing e' he').1
      cases e' <;> simp_all [ResponsesEvent.closed?, ResponsesEvent.isTerminal]
    · rw [List.mem_singleton.mp he'] at hresponse'
      cases hresponse'

theorem Open.error (h : Open options s events) (hgap : leavesNoGap s = true) (message : JsString)
    (code errorType : Option JsString) :
    Reaches (encodeResponsesError message code errorType) s events fun _ s' events' =>
      Reported s' events' := by
  unfold encodeResponsesError
  simp only [reaches_bind, reaches_modify, reaches_get]
  have hfirst : (!s.responsesFailureEmitted) = true := by simp [h.unreported]
  let s₁ : EncoderState := { s with failed := true }
  have hstart : Reaches Streaming.ensureResponsesStart s₁ events fun _ s' events' =>
      s'.failed = true ∧ Open options s events' := by
    unfold Streaming.ensureResponsesStart
    rw [reaches_bind, reaches_get]
    split
    · rw [reaches_pure]
      exact ⟨rfl, h⟩
    · simp only [reaches_bind, reaches_modify, reaches_get, reaches_emit]
      exact ⟨rfl, h.emit ⟨rfl, rfl, by simp [ResponsesEvent.added?]⟩ rfl⟩
  refine reaches_whenever (fun _ => hstart.mono ?_) fun hnot => absurd hfirst hnot
  rintro _ s₂ events₂ ⟨hfailed, h₂⟩
  rw [reaches_emit]
  refine reaches_whenever (fun _ => ?_) fun hnot => absurd hfirst hnot
  simp only [reaches_bind, reaches_get, reaches_emit, reaches_modify]
  exact ⟨hfailed, rfl, h₂.fails hgap ⟨rfl, rfl, by simp [ResponsesEvent.added?]⟩ rfl⟩

/-! ## Done -/

/-- The bridge binds the tools of an open stream. -/
theorem Open.prepare (h : Open options s events) (hreserved : Reserved s)
    (hauthorized : authorizesTools options s = true) :
    Reaches (prepareResponsesToolBridge options) s events fun ok s' events' =>
      ok = true ∧ Ready s' ∧ Agrees (outputSlots options s') (slotLog events') ∧
        (∀ e ∈ events', e.Ongoing) ∧
        (s'.responsesTextStarted = false → s'.responsesTextOutputIndex = none) := by
  have hready : Ready s := ⟨h.keyed, hreserved, fun hfound => (h.tools hfound).unsent⟩
  unfold prepareResponsesToolBridge
  rw [reaches_bind, reaches_get]
  unfold authorizesTools at hauthorized
  cases hprepare : prepareTools options.toolBridgePlan s.tools.values with
  | error failure => simp [hprepare] at hauthorized
  | ok bound =>
      have hbinds := binds_prepareTools hprepare fun hplan tool htool =>
        (h.tools (hready.stored htool)).withheld (by simp [withholdsTools, hplan])
      refine (agrees_bindAll hbinds h.agrees hready (fun tool => hready.stored)
        hready.distinct).bind ?_
      rintro _ s' events' ⟨rfl, hready', hagrees, tools', hs'⟩
      rw [reaches_pure]
      refine ⟨rfl, hready', hagrees, h.ongoing, ?_⟩
      rw [hs']
      exact h.textIndex

theorem Open.responsesDone (h : Open options s events) (hreserved : Reserved s)
    (hauthorized : authorizesTools options s = true) :
    Reaches (responsesDone options) s events fun _ s' events' =>
      s'.done = true ∧ TerminatesProperly events' := by
  unfold Streaming.responsesDone
  rw [reaches_bind, reaches_get, h.failed, h.stopped]
  refine h.ensureResponsesStart.bind ?_
  rintro _ s₁ events₁ ⟨hs₁, h₁⟩
  have hauthorized₁ : authorizesTools options s₁ = true := by
    rw [hs₁]
    exact hauthorized
  have hreserved₁ : Reserved s₁ := by
    rw [hs₁]
    exact hreserved
  refine (h₁.prepare hreserved₁ hauthorized₁).bind ?_
  rintro ok s₂ events₂ ⟨rfl, hready, hagrees, hongoing, htext⟩
  refine (closeResponsesOutput_terminates hready hagrees hongoing htext).bind ?_
  intro _ s₃ events₃ h₃
  rw [reaches_modify]
  exact ⟨rfl, h₃⟩

/-! ## Runs -/

/-- A stream is open, or it has ended as it should. -/
def Proper (options : EncodingOptions) (p : EncoderState × List ResponsesEvent) : Prop :=
  (Open options p.1 p.2 ∧ Reserved p.1) ∨ Reported p.1 p.2 ∨
    p.1.done = true ∧ TerminatesProperly p.2

theorem proper_init (options : EncodingOptions) :
    Proper options (.init .openaiResponses options, []) := by
  left
  refine ⟨open_init options, fun key tool htool => ?_⟩
  cases htool

theorem Open.survives (h : Open options s events) (hreserved : Reserved s) {event : StreamEvent}
    (hok : Survives options s event) :
    Reaches (encodeOpenAiResponses options event) (Streaming.noteStart event s) events
      fun _ s' events' => Proper options (s', events') := by
  cases event with
  | start id model createdAt =>
      have hid : KeepsId s (.start id model createdAt) :=
        hok.resolve_left (by simp [h.failed])
      refine (h.noteStart hid).ensureResponsesStart.mono ?_
      rintro _ s' events' ⟨rfl, h'⟩
      exact .inl ⟨h', hreserved⟩
  | textDelta text index _ =>
      exact (h.textDelta hreserved text index).mono fun _ _ _ h' => .inl h'
  | toolCallDelta index id name arguments toolType _ =>
      simp only [Survives, h.failed] at hok
      exact (h.toolCallDelta hreserved hok.1 hok.2).mono fun _ _ _ h' => .inl h'
  | toolCallComplete index =>
      exact (h.completeEncodedTool hreserved index).mono fun _ _ _ h' => .inl h'
  | messageComplete index =>
      exact (reaches_modify _).mpr (.inl ⟨h.congr rfl rfl rfl rfl rfl rfl rfl, hreserved⟩)
  | usage usage =>
      exact (reaches_modify _).mpr (.inl ⟨h.congr rfl rfl rfl rfl rfl rfl rfl, hreserved⟩)
  | stop reason _ =>
      exact (reaches_modify _).mpr (.inl ⟨h.congr rfl rfl rfl rfl rfl rfl rfl, hreserved⟩)
  | error message code errorType =>
      have hgap : leavesNoGap s = true := hok.resolve_left (by simp [h.failed])
      exact (h.error hgap message code errorType).mono fun _ _ _ h' => .inr (.inl h')
  | done =>
      have hauthorized : authorizesTools options s = true := hok.resolve_left (by simp [h.failed])
      exact (h.responsesDone hreserved hauthorized).mono fun _ _ _ h' => .inr (.inr h')
  | reasoningProgress =>
      exact (reaches_pure ()).mpr (.inl ⟨h, hreserved⟩)

theorem Reported.noteStart (h : Reported s events) (event : StreamEvent) :
    Reported (noteStart event s) events := by
  cases event with
  | start => exact h.congr rfl rfl
  | _ => exact h

theorem Reported.survives (h : Reported s events) {event : StreamEvent}
    (hok : Survives options s event) :
    Reaches (encodeOpenAiResponses options event) (Streaming.noteStart event s) events
      fun _ s' events' => Reported s' events' := by
  cases event with
  | start id model createdAt =>
      exact (h.noteStart _).ensureResponsesStart.mono fun _ _ _ h' => h'.1
  | textDelta text index _ =>
      have hfailed : s.failed = false := hok
      rw [h.failed] at hfailed
      cases hfailed
  | toolCallDelta index id name arguments toolType _ =>
      simp only [Survives, h.failed] at hok
      exact h.toolCallDelta hok
  | toolCallComplete index =>
      change Reaches (completeEncodedTool index) s events _
      unfold completeEncodedTool getTool
      simp only [reaches_bind, reaches_get, reaches_pure]
      cases s.tools.get? (mapKey index) with
      | none => exact (reaches_pure ()).mpr h
      | some tool => exact (reaches_putTool _).mpr (h.congr rfl rfl)
  | messageComplete index => exact (reaches_modify _).mpr (h.congr rfl rfl)
  | usage usage => exact (reaches_modify _).mpr (h.congr rfl rfl)
  | stop reason _ => exact (reaches_modify _).mpr (h.congr rfl rfl)
  | error message code errorType => exact h.error message code errorType
  | done =>
      change Reaches (responsesDone options) s events _
      unfold responsesDone
      rw [reaches_bind, reaches_get, h.failed]
      exact (reaches_modify _).mpr (h.congr rfl rfl)
  | reasoningProgress => exact (reaches_pure ()).mpr h

/-- One event keeps a stream proper. -/
theorem proper_step (h : Proper options p) (hok : ResponsesStepOk options p event) :
    Proper options (responsesStep options p event) := by
  obtain ⟨s, events⟩ := p
  unfold responsesStep encodeResponses
  dsimp only
  split
  · next hdone => simpa using h
  · next hdone =>
    have hok : Survives options s event := hok.resolve_left hdone
    have hreaches : Reaches (encodeOpenAiResponses options event) (noteStart event s) events
        fun _ s' events' => Proper options (s', events') := by
      rcases h with ⟨h, hreserved⟩ | h | ⟨h, -⟩
      · exact h.survives hreserved hok
      · exact (h.survives hok).mono fun _ _ _ h' => .inr (.inl h')
      · exact absurd h hdone
    obtain ⟨_, -, hpost⟩ := hreaches.run
    exact hpost

/-- After `done` a proper stream has ended. -/
theorem terminates_of_done (h : Proper options p) (hok : ResponsesStepOk options p .done) :
    TerminatesProperly (responsesStep options p .done).2 := by
  obtain ⟨s, events⟩ := p
  unfold responsesStep encodeResponses
  dsimp only
  split
  · next hdone =>
    rw [List.append_nil]
    rcases h with ⟨h, -⟩ | h | ⟨-, h⟩
    · rw [h.undone] at hdone
      cases hdone
    · exact h.terminates
    · exact h
  · next hdone =>
    have hok : Survives options s .done := hok.resolve_left hdone
    have hreaches : Reaches (encodeOpenAiResponses options .done) (noteStart .done s) events
        fun _ _ events' => TerminatesProperly events' := by
      rcases h with ⟨h, hreserved⟩ | h | ⟨h, -⟩
      · have hauthorized : authorizesTools options s = true :=
          hok.resolve_left (Bool.eq_false_iff.mp h.failed)
        exact (h.responsesDone hreserved hauthorized).mono fun _ _ _ h' => h'.2
      · exact (h.survives hok).mono fun _ _ _ h' => h'.terminates
      · exact absurd h hdone
    obtain ⟨_, -, hpost⟩ := hreaches.run
    exact hpost

/-- A Responses stream whose every event is survived terminates properly. -/
theorem responses_terminate_properly (options : EncodingOptions) (events : List StreamEvent)
    (h : Along (responsesStep options) (ResponsesStepOk options) (.init .openaiResponses options, [])
      (events ++ [.done])) :
    encodeStream .openaiResponses options events =
        (responsesStream options events).map ResponsesEvent.frame ∧
      TerminatesProperly (responsesStream options events) := by
  obtain ⟨hevents, hdone, -⟩ := along_append.mp h
  have hproper := invariant_of_along (Proper options) (fun _ _ => proper_step) (proper_init options)
    hevents
  refine ⟨encodeStream_responses options events, ?_⟩
  rw [responsesStream, run_append]
  exact terminates_of_done hproper hdone

/-- Text, and a tool call that is announced once its name is known. -/
theorem text_and_tool_terminate_properly :
    let events : List StreamEvent := [.start (some (js "resp_1")) (some (js "m")) none,
      .textDelta (js "Hi") none none,
      .toolCallDelta (.ofInt 0) (some (js "call_1")) none none none none,
      .toolCallDelta (.ofInt 0) none (some (js "f")) (some (js "\x7b\"a\"")) none none,
      .toolCallDelta (.ofInt 0) none none (some (js ":1\x7d")) none none,
      .toolCallComplete (.ofInt 0), .stop .toolCalls none, .done]
    encodeStream .openaiResponses { now := .ofInt 0 } events =
        (responsesStream { now := .ofInt 0 } events).map ResponsesEvent.frame ∧
      TerminatesProperly (responsesStream { now := .ofInt 0 } events) :=
  responses_terminate_properly _ _ (by decide +kernel)

/-- A tool call under a name that the bridge did not declare: the stream has no
terminal event. -/
theorem rejected_tool_has_no_terminal :
    let plan : EncoderBridgePlan :=
      { dialect := .xaiGrok
        tools := [{ sourceType := .custom, sourceName := js "exec", wireName := js "sp_custom_exec",
                    declared := some true }] }
    let options : EncodingOptions := { now := .ofInt 0, toolBridgePlan := some plan }
    let events : List StreamEvent := [.toolCallDelta (.ofInt 0) (some (js "call_bad"))
      (some (js "server_side_web_search")) (some (js "\x7b\x7d")) none none, .stop .toolCalls none,
      .done]
    encodeStream .openaiResponses options events =
        (responsesStream options events).map ResponsesEvent.frame ∧
      ¬TerminatesProperly (responsesStream options events) := by
  intro plan options events
  refine ⟨encodeStream_responses options events, fun h => ?_⟩
  have hquiet : (responsesStream options events).any ResponsesEvent.isTerminal = false := by
    decide +kernel
  obtain ⟨before, terminal, after, heq, hterminal, -⟩ := h.terminal
  rw [heq] at hquiet
  simp [hterminal] at hquiet

end StonePlus.Streaming
