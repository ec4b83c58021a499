import StonePlus.Lib.Respects
import StonePlus.Streaming.Handlers
import StonePlus.Streaming.ResponsesHandler

/-!
# StonePlus.Streaming.Flags

The flags of the parser against its output.

`errored`, `stopped` and `done` say what has been emitted.  A handler that is
given no finish marker stops and ends a stream only after an error.
-/

namespace StonePlus.Streaming

open Lib Lib.Effect

def isStop : StreamEvent → Bool
  | .stop .. => true
  | _ => false

/-- An event that neither fails, stops nor ends the stream. -/
def isPlain (e : StreamEvent) : Bool := !isError e && !isStop e && !isDone e

/-! ## What a handler does to the flags -/

/-- The flags say what has been emitted. -/
structure Mirrors (s : ParserState) (out : List StreamEvent) (s' : ParserState) : Prop where
  errored : s'.errored = (s.errored || out.any isError)
  stopped : s'.stopped = (s.stopped || out.any isStop)
  done : s'.done = (s.done || out.any isDone)

theorem mirrors : Composes Mirrors where
  refl s := by constructor <;> simp
  trans h h' := by
    constructor
    · simp [h'.errored, h.errored, Bool.or_assoc]
    · simp [h'.stopped, h.stopped, Bool.or_assoc]
    · simp [h'.done, h.done, Bool.or_assoc]

/-- What may be emitted when the stream has or has not failed: a stop and
`done` only after an error, and the stop is one of an error. -/
def permitted (failed : Bool) : StreamEvent → Prop
  | .stop reason _ => reason = .error ∧ failed = true
  | .done => failed = true
  | _ => True

/-- Every event is permitted after the events before it. -/
def Orderly : Bool → List StreamEvent → Prop
  | _, [] => True
  | failed, e :: es => permitted failed e ∧ Orderly (failed || isError e) es

theorem orderly_append :
    Orderly failed (es ++ fs) ↔ Orderly failed es ∧ Orderly (failed || es.any isError) fs := by
  induction es generalizing failed with
  | nil => simp [Orderly]
  | cons e es ih => simp [Orderly, ih, and_assoc, Bool.or_assoc]

/-- Only plain events are emitted. -/
theorem orderly_of_plain (h : ∀ e ∈ es, isPlain e = true) : Orderly failed es := by
  induction es generalizing failed with
  | nil => trivial
  | cons e es ih =>
      obtain ⟨he, hes⟩ := List.forall_mem_cons.mp h
      refine ⟨?_, ih hes⟩
      cases e <;> simp_all [isPlain, isStop, isDone, permitted]

/-- A stop or `done` comes after an error. -/
theorem Orderly.failed {failed : Bool} (h : Orderly failed es) (he : e ∈ es)
    (hend : isStop e = true ∨ isDone e = true) : (failed || es.any isError) = true := by
  induction es generalizing failed with
  | nil => cases he
  | cons first es ih =>
      obtain ⟨hfirst, hes⟩ := h
      rcases List.mem_cons.mp he with rfl | he
      · have hfailed : failed = true := by
          cases e <;> simp_all [permitted, isStop, isDone]
        simp [hfailed]
      · have := ih hes he
        simp_all [or_assoc]

/-- A stop is one of an error. -/
theorem Orderly.reason {failed : Bool} (h : Orderly failed es) {reason : CanonicalStopReason}
    (he : (.stop reason raw : StreamEvent) ∈ es) : reason = .error := by
  induction es generalizing failed with
  | nil => cases he
  | cons first es ih =>
      rcases List.mem_cons.mp he with rfl | he
      · exact h.1.1
      · exact ih h.2 he

/-- A stream that stopped or ended has failed. -/
structure Settled (s : ParserState) : Prop where
  stopped : s.stopped = true → s.errored = true
  done : s.done = true → s.errored = true

/-- The flags say what has been emitted, and unless the stream stopped before
it failed it still has not. -/
structure Tame (s : ParserState) (out : List StreamEvent) (s' : ParserState) : Prop where
  mirrors : Mirrors s out s'
  orderly : Settled s → Orderly s.errored out

theorem Tame.settled (h : Tame s out s') (hs : Settled s) : Settled s' := by
  have horderly := h.orderly hs
  constructor
  · intro hstopped
    rw [h.mirrors.stopped, Bool.or_eq_true] at hstopped
    rw [h.mirrors.errored]
    rcases hstopped with hstopped | hstopped
    · simp [hs.stopped hstopped]
    · obtain ⟨e, he, hstop⟩ := List.any_eq_true.mp hstopped
      exact horderly.failed he (.inl hstop)
  · intro hdone
    rw [h.mirrors.done, Bool.or_eq_true] at hdone
    rw [h.mirrors.errored]
    rcases hdone with hdone | hdone
    · simp [hs.done hdone]
    · obtain ⟨e, he, hend⟩ := List.any_eq_true.mp hdone
      exact horderly.failed he (.inr hend)

theorem tame : Composes Tame where
  refl s := ⟨mirrors.refl s, fun _ => trivial⟩
  trans h h' := by
    constructor
    · exact mirrors.trans h.mirrors h'.mirrors
    · intro hs
      have hrest := h'.orderly (h.settled hs)
      rw [h.mirrors.errored] at hrest
      exact orderly_append.mpr ⟨h.orderly hs, hrest⟩

/-- The flags are left alone, and only plain events are emitted. -/
structure Plain (s : ParserState) (out : List StreamEvent) (s' : ParserState) : Prop where
  errored : s'.errored = s.errored
  stopped : s'.stopped = s.stopped
  done : s'.done = s.done
  plain : ∀ e ∈ out, isPlain e = true

theorem plain : Composes Plain where
  refl s := ⟨rfl, rfl, rfl, by simp⟩
  trans h h' :=
    { errored := h'.errored.trans h.errored
      stopped := h'.stopped.trans h.stopped
      done := h'.done.trans h.done
      plain := List.forall_mem_append.mpr ⟨h.plain, h'.plain⟩ }

theorem Plain.no_error (h : Plain s out s') : out.any isError = false := by
  have := h.plain
  simp_all [isPlain]

theorem Plain.tame (h : Plain s out s') : Tame s out s' := by
  have hplain := h.plain
  constructor
  · constructor
    · simp_all [h.errored, isPlain]
    · simp_all [h.stopped, isPlain]
    · simp_all [h.done, isPlain]
  · exact fun _ => orderly_of_plain hplain

theorem plain_emit {e : StreamEvent} (h : isPlain e = true) :
    Respects (ε := Empty) Plain (emit e) :=
  .emit fun s => ⟨rfl, rfl, rfl, by simpa using h⟩

theorem plain_modify {f : ParserState → ParserState}
    (h : ∀ s, (f s).errored = s.errored ∧ (f s).stopped = s.stopped ∧ (f s).done = s.done) :
    Respects (ε := Empty) Plain (modify f) :=
  .modify fun s => ⟨(h s).1, (h s).2.1, (h s).2.2, by simp⟩

theorem tame_of_plain {α : Type} {m : Handler α} (h : Respects Plain m) : Respects Tame m :=
  h.mono Plain.tame

/-! ## Emitting -/

theorem plain_emitStart (id model created : Option Json) :
    Respects Plain (emitStart id model created) := by
  refine plain.bind plain.get fun s => .ite (fun _ => plain.pure ()) fun _ => ?_
  exact plain.bind (plain_modify fun _ => ⟨rfl, rfl, rfl⟩) fun _ => plain_emit rfl

theorem tame_emitError (message : JsString) (code errorType : Option JsString) :
    Respects Tame (emitError message code errorType) := by
  intro s
  simp only [emitError, wp_bind, wp_modify, wp_emit, List.nil_append]
  constructor
  · constructor <;> simp [isError, isStop, isDone]
  · exact fun _ => ⟨trivial, trivial⟩

theorem mirrors_emitDone : Respects Mirrors emitDone := by
  intro s
  simp only [emitDone, wp_bind, wp_get, List.nil_append]
  split
  · exact mirrors.refl s
  · simp only [wp_bind, wp_modify, wp_emit, List.nil_append]
    constructor <;> simp [isError, isStop, isDone]

theorem tame_emitErrorObject (value : Option Json) : Respects Tame (emitErrorObject value) := by
  unfold emitErrorObject
  split
  · split
    · exact tame_emitError _ _ _
    · exact tame_emitError _ _ _
  · exact tame_emitError _ _ _

/-! ## After an error -/

/-- The program is tame when the stream has failed. -/
def TameAfterError {α : Type} (m : Handler α) : Prop :=
  ∀ s : ParserState, s.errored = true →
    wp m s (fun _ s' out => Tame s out s') fun _ s' out => Tame s out s'

theorem TameAfterError.bind {α β : Type} {m : Handler α} {f : α → Handler β}
    (hm : TameAfterError m) (hf : ∀ a, TameAfterError (f a)) : TameAfterError (m >>= f) := by
  intro s hs
  rw [wp_bind]
  refine wp_mono (hm s hs) ?_ fun _ _ _ h => h
  intro a s' out h
  have hs' : s'.errored = true := by simp [h.mirrors.errored, hs]
  exact wp_mono (hf a s' hs') (fun _ _ _ => tame.trans h) fun _ _ _ => tame.trans h

theorem afterError_emitStop (raw : Option JsString) : TameAfterError (emitStop .error raw) := by
  intro s hs
  simp only [emitStop, wp_bind, wp_get, List.nil_append]
  split
  · exact tame.refl s
  · simp only [wp_bind, wp_modify, wp_emit, List.nil_append]
    constructor
    · constructor <;> simp [isError, isStop, isDone]
    · exact fun _ => ⟨⟨rfl, hs⟩, trivial⟩

theorem afterError_emitDone : TameAfterError emitDone := by
  intro s hs
  simp only [emitDone, wp_bind, wp_get, List.nil_append]
  split
  · exact tame.refl s
  · simp only [wp_bind, wp_modify, wp_emit, List.nil_append]
    constructor
    · constructor <;> simp [isError, isStop, isDone]
    · exact fun _ => ⟨hs, trivial⟩

/-- What is tame after an error is tame behind one. -/
theorem tame_emitError_bind (message : JsString) (code errorType : Option JsString)
    {m : Handler Unit} (h : TameAfterError m) :
    Respects Tame (emitError message code errorType >>= fun _ => m) := by
  intro s
  rw [wp_bind]
  have herror (s' : ParserState) (out : List StreamEvent) (hout : Tame s out s')
      (hs' : s'.errored = true) :
      wp m s' (fun _ s'' out' => Tame s (out ++ out') s'') fun _ s'' out' =>
        Tame s (out ++ out') s'' :=
    wp_mono (h s' hs') (fun _ _ _ => tame.trans hout) fun _ _ _ => tame.trans hout
  have hfirst := tame_emitError message code errorType s
  simp only [emitError, wp_bind, wp_modify, wp_emit, List.nil_append] at hfirst ⊢
  exact herror _ _ hfirst rfl

theorem tame_emitIncompleteStream (message : JsString) :
    Respects Tame (emitIncompleteStream message) :=
  tame_emitError_bind _ _ _ (afterError_emitStop _)

/-- An error, its stop and the end. -/
theorem tame_failure (message : JsString) (code errorType : Option JsString)
    (raw : Option JsString) :
    Respects Tame (do
      emitError message code errorType
      emitStop .error raw
      emitDone) :=
  tame_emitError_bind _ _ _ ((afterError_emitStop _).bind fun _ => afterError_emitDone)

theorem tame_emitFramingError (message : JsString) : Respects Tame (emitFramingError message) :=
  .ite (fun _ => tame_emitIncompleteStream _) fun _ =>
    .ite (fun _ => tame_failure _ _ _ _) fun _ => tame_emitError _ _ _

theorem tame_emitResponsesProtocolError (message code : JsString) :
    Respects Tame (emitResponsesProtocolError message code) :=
  tame_failure _ _ _ _

/-! ## Usage -/

theorem plain_emitParsedUsage (parsed : CanonicalUsage) :
    Respects Plain (emitParsedUsage parsed) := by
  refine .ite (fun _ => plain.pure ()) fun _ => ?_
  refine plain.bind (plain_modify fun _ => ⟨rfl, rfl, rfl⟩) fun _ => plain.bind plain.get fun s => ?_
  refine .ite (fun _ => plain.pure ()) fun _ => ?_
  exact plain.bind (plain_modify fun _ => ⟨rfl, rfl, rfl⟩) fun _ => plain_emit rfl

theorem plain_emitUsage (usage : Option JsonObject) (inputKey outputKey : String)
    (totalKey : Option String) : Respects Plain (emitUsage usage inputKey outputKey totalKey) := by
  unfold emitUsage
  split
  · exact plain.pure ()
  · exact plain_emitParsedUsage _

theorem plain_emitAnthropicUsage (usage : Option JsonObject) :
    Respects Plain (emitAnthropicUsage usage) := by
  unfold emitAnthropicUsage
  split
  · exact plain.pure ()
  · exact plain_emitParsedUsage _

/-! ## OpenAI Chat -/

theorem plain_emitText (text : JsString) : Respects Plain (emitText text) :=
  .ite (fun _ => plain.pure ()) fun _ => plain_emit rfl

theorem plain_handleChatToolCall (toolCall : JsonObject) :
    Respects Plain (handleChatToolCall toolCall) :=
  plain.bind (plain_modify fun _ => ⟨rfl, rfl, rfl⟩) fun _ => plain_emit rfl

theorem plain_handleLegacyCall (call : Option JsonObject) : Respects Plain (handleLegacyCall call) := by
  unfold handleLegacyCall
  split
  · exact plain.pure ()
  · exact plain.bind (plain_modify fun _ => ⟨rfl, rfl, rfl⟩) fun _ => plain_emit rfl

/-- A choice with a finish reason. -/
def finishes (choice : JsonObject) : Bool := (optionalString (choice.prop "finish_reason")).isSome

theorem plain_handleChatChoice (options : ParserOptions) {choice : JsonObject}
    (h : finishes choice = false) : Respects Plain (handleChatChoice options choice) := by
  refine plain.bind (plain_emitText _) fun _ => plain.bind (plain.whenever fun _ => plain_emit rfl)
    fun _ => plain.bind (plain.forM plain_handleChatToolCall _) fun _ =>
    plain.bind (plain_handleLegacyCall _) fun _ => ?_
  split
  · exact plain.pure ()
  · next hreason => simp [finishes, hreason] at h

theorem plain_handleChatChoices (options : ParserOptions) {choices : List JsonObject}
    (h : ∀ choice ∈ choices, finishes choice = false) :
    Respects Plain (handleChatChoices options choices) := by
  induction choices with
  | nil => exact plain.pure ()
  | cons choice rest ih =>
      obtain ⟨hchoice, hrest⟩ := List.forall_mem_cons.mp h
      refine plain.bind plain.get fun s => .ite (fun _ => plain.pure ()) fun _ => ?_
      exact plain.bind (plain_handleChatChoice options hchoice) fun _ => ih hrest

theorem tame_handleChatError (payload : JsonObject) : Respects Tame (handleChatError payload) := by
  unfold handleChatError
  split
  · exact tame_emitError _ _ _
  · exact tame_emitErrorObject _

/-- The finish marker of Chat: a finish reason of choice 0. -/
def chatMarker (payload : JsonObject) : Bool :=
  (selectedChoices (arrayOfObjects (payload.prop "choices"))).any finishes

variable {payload : JsonObject}

theorem tame_handleOpenAiChat (options : ParserOptions) (eventName : Option JsString)
    (h : chatMarker payload = false) :
    Respects Tame (handleOpenAiChat options eventName payload) := by
  refine .ite (fun _ => tame_handleChatError payload) fun _ =>
    .ite (fun _ => tame_emitErrorObject _) fun _ => tame_of_plain ?_
  refine plain.bind (plain.whenever fun _ => plain_emitStart _ _ _) fun _ => ?_
  refine plain.bind (plain_handleChatChoices options ?_) fun _ => plain_emitUsage _ _ _ _
  simpa [chatMarker] using h

/-! ## Anthropic Messages -/

theorem plain_anthropicToolIndex (blockIndex : JsNumber) :
    Respects Plain (anthropicToolIndex blockIndex) := by
  refine plain.bind plain.get fun s => ?_
  split
  · exact plain.pure _
  · exact plain.bind (plain_modify fun _ => ⟨rfl, rfl, rfl⟩) fun _ => plain.pure _

theorem plain_handleBlockStart (payload : JsonObject) : Respects Plain (handleBlockStart payload) := by
  refine plain.bind (plain.whenever fun _ => plain_emitText _) fun _ => plain.whenever fun _ => ?_
  refine plain.bind (plain_anthropicToolIndex _) fun _ => ?_
  exact plain.bind (plain_modify fun _ => ⟨rfl, rfl, rfl⟩) fun _ => plain_emit rfl

theorem plain_handleBlockDelta (options : ParserOptions) (payload : JsonObject) :
    Respects Plain (handleBlockDelta options payload) := by
  refine plain.bind (plain.whenever fun _ => plain_emitText _) fun _ =>
    plain.bind (plain.whenever fun _ => plain_emit rfl) fun _ => plain.whenever fun _ => ?_
  refine plain.bind (plain_anthropicToolIndex _) fun _ => ?_
  exact plain.bind (plain_modify fun _ => ⟨rfl, rfl, rfl⟩) fun _ => plain_emit rfl

/-- A stream that has not stopped fails at `message_stop`. -/
theorem tame_handleMessageStop : Respects Tame handleMessageStop := by
  intro s
  by_cases hstopped : s.stopped = true
  · have hdone := mirrors_emitDone s
    simp only [handleMessageStop, wp_bind, wp_get, wp_whenever, List.nil_append, hstopped,
      Bool.not_true, Bool.false_eq_true, if_false]
    by_cases herrored : s.errored = true
    · exact afterError_emitDone s herrored
    · refine wp_mono hdone (fun _ _ _ h => ⟨h, fun hs => ?_⟩) fun _ _ _ h => ⟨h, fun hs => ?_⟩
      all_goals exact absurd (hs.stopped hstopped) herrored
  · have hfails := tame_failure (js "Anthropic message_stop arrived before a stop_reason")
      (some (js "incomplete_stream")) (some (js "incomplete_stream"))
      (some (js "incomplete_stream")) s
    simpa [handleMessageStop, wp_bind, hstopped] using hfails

/-- The finish marker of Anthropic: a stop reason. -/
def anthropicMarker (eventName : Option JsString) (payload : JsonObject) : Bool :=
  decide (stringValue (payload.prop "type") (eventName.getD []) = js "message_delta") &&
    (optionalString (((objectValue (payload.prop "delta")).getD []).prop "stop_reason")).isSome

/-- The payloads of Anthropic that fail a stream. -/
def anthropicFails (eventName : Option JsString) (payload : JsonObject) : Bool :=
  let type := stringValue (payload.prop "type") (eventName.getD [])
  decide (type = js "error" ∨ type = js "message_stop")

theorem plain_handleAnthropic (options : ParserOptions)
    (hmarker : anthropicMarker eventName payload = false)
    (hfails : anthropicFails eventName payload = false) :
    Respects Plain (handleAnthropic options eventName payload) := by
  simp only [anthropicFails, decide_eq_false_iff_not, not_or] at hfails
  refine .ite (fun h => absurd h hfails.1) fun _ => .ite (fun _ => ?_) fun _ =>
    .ite (fun _ => plain_handleBlockStart payload) fun _ =>
    .ite (fun _ => plain_handleBlockDelta options payload) fun _ =>
    .ite (fun htype => ?_) fun _ => .ite (fun h => absurd h hfails.2) fun _ => plain.pure ()
  · exact plain.bind (plain_emitStart _ _ _) fun _ => plain_emitAnthropicUsage _
  · refine plain.bind (plain_emitAnthropicUsage _) fun _ => ?_
    have hreason : optionalString (((objectValue (payload.prop "delta")).getD []).prop
        "stop_reason") = none := by simpa [anthropicMarker, htype] using hmarker
    rw [hreason]
    exact plain.pure ()

theorem tame_handleAnthropic (options : ParserOptions)
    (hmarker : anthropicMarker eventName payload = false) :
    Respects Tame (handleAnthropic options eventName payload) := by
  by_cases hfails : anthropicFails eventName payload = false
  · exact tame_of_plain (plain_handleAnthropic options hmarker hfails)
  · have htype : stringValue (payload.prop "type") (eventName.getD []) = js "error" ∨
        stringValue (payload.prop "type") (eventName.getD []) = js "message_stop" := by
      simp only [anthropicFails, decide_eq_false_iff_not, not_not] at hfails
      exact hfails
    rcases htype with htype | htype
    · exact .ite (fun _ => tame_emitErrorObject _) fun h => absurd htype h
    · have hhandler : handleAnthropic options eventName payload = handleMessageStop := by
        simp only [handleAnthropic, htype]
        rfl
      rw [hhandler]
      exact tame_handleMessageStop

/-! ## Gemini -/

theorem plain_geminiToolIndex (key : JsString) : Respects Plain (geminiToolIndex key) := by
  refine plain.bind plain.get fun s => ?_
  split
  · exact plain.pure _
  · exact plain.bind (plain_modify fun _ => ⟨rfl, rfl, rfl⟩) fun _ => plain.pure _

theorem plain_handleGeminiPart (options : ParserOptions) (candidateIndex : Nat)
    (part : JsonObject × Nat) : Respects Plain (handleGeminiPart options candidateIndex part) := by
  refine plain.bind (plain.whenever fun _ => .ite (fun _ => plain.whenever fun _ => plain_emit rfl)
    fun _ => plain_emit rfl) fun _ => ?_
  split
  · exact plain.pure ()
  · refine plain.bind (plain_geminiToolIndex _) fun _ => ?_
    exact plain.bind (plain_modify fun _ => ⟨rfl, rfl, rfl⟩) fun _ => plain_emit rfl

/-- The finish marker of Gemini: a finish reason. -/
def geminiMarker (payload : JsonObject) : Bool :=
  (geminiFinishReason (arrayOfObjects (payload.prop "candidates"))).isSome

theorem plain_handleGemini (options : ParserOptions) (hmarker : geminiMarker payload = false)
    (hfails : truthy (payload.prop "error") = false) :
    Respects Plain (handleGemini options payload) := by
  refine .ite (fun h => absurd h (by simp [hfails])) fun _ => ?_
  refine plain.bind (plain_emitStart _ _ _) fun _ => plain.bind
    (plain.forM (fun _ => plain.forM (plain_handleGeminiPart options _) _) _) fun _ =>
    plain.bind (plain_emitUsage _ _ _ _) fun _ => ?_
  have hreason : geminiFinishReason (arrayOfObjects (payload.prop "candidates")) = none := by
    simpa [geminiMarker] using hmarker
  rw [hreason]
  exact plain.pure ()

theorem tame_handleGemini (options : ParserOptions) (hmarker : geminiMarker payload = false) :
    Respects Tame (handleGemini options payload) := by
  by_cases hfails : truthy (payload.prop "error") = true
  · exact .ite (fun _ => tame_emitErrorObject _) fun h => absurd hfails h
  · exact tame_of_plain (plain_handleGemini options hmarker (by simpa using hfails))

/-! ## OpenAI Responses -/

theorem plain_responseToolIndex (outputIndex : Int) :
    Respects Plain (responseToolIndex outputIndex) := by
  refine plain.bind plain.get fun s => ?_
  split
  · exact plain.pure _
  · exact plain.bind (plain_modify fun _ => ⟨rfl, rfl, rfl⟩) fun _ => plain.pure _

theorem tame_rebindResponsesToolOutputIndex (synthetic explicit : Int) :
    Respects Tame (rebindResponsesToolOutputIndex synthetic explicit) := by
  have hrebind (s : ParserState) : Respects Tame
      (if argumentsConflict (s.responsesArguments.get? synthetic)
          (s.responsesArguments.get? explicit) then
        emitResponsesProtocolError
          (js "Responses tool arguments conflict while assigning a late output_index")
          (js "inconsistent_tool_arguments")
      else Effect.modify (rebind synthetic explicit)) :=
    .ite (fun _ => tame_emitResponsesProtocolError _ _) fun _ =>
      tame_of_plain (plain_modify fun _ => ⟨rfl, rfl, rfl⟩)
  refine tame.bind tame.get fun s => .ite (fun _ => tame_emitResponsesProtocolError _ _) fun _ => ?_
  dsimp only
  split
  · exact tame.bind (tame_of_plain (plain_modify fun _ => ⟨rfl, rfl, rfl⟩)) fun _ => hrebind s
  · exact hrebind s

theorem plain_fileIdentities (identities : List JsString) (outputIndex : Int) :
    Respects Plain (fileIdentities identities outputIndex) :=
  plain_modify fun _ => ⟨rfl, rfl, rfl⟩

theorem plain_fileNewIdentities (identities : List JsString) (outputIndex : Int) :
    Respects Plain (fileNewIdentities identities outputIndex) :=
  plain_modify fun _ => ⟨rfl, rfl, rfl⟩

theorem tame_explicitOutputIndex (identities : List JsString) (explicit : Int) :
    Respects Tame (explicitOutputIndex identities explicit) := by
  have hfile : Respects Tame (fileIdentities identities explicit >>= fun _ =>
      (pure explicit : Handler Int)) :=
    tame_of_plain (plain.bind (plain_fileIdentities _ _) fun _ => plain.pure _)
  refine tame.bind tame.get fun s => ?_
  dsimp only
  split
  · exact hfile
  · refine .ite (fun _ => tame.bind (tame_emitResponsesProtocolError _ _) fun _ => tame.pure _)
      fun _ => .ite (fun _ => hfile) fun _ => .ite (fun _ => ?_) fun _ => ?_
    · exact tame_of_plain (plain.bind (plain_fileNewIdentities _ _) fun _ => plain.pure _)
    · refine tame.bind (tame_rebindResponsesToolOutputIndex _ _) fun _ => tame.bind tame.get fun s => ?_
      exact .ite (fun _ => tame.pure _) fun _ => hfile

theorem plain_syntheticOutputIndex (identities : List JsString) :
    Respects Plain (syntheticOutputIndex identities) := by
  refine plain.bind plain.get fun s => ?_
  split
  · exact plain.pure _
  · exact plain.bind (plain_modify fun _ => ⟨rfl, rfl, rfl⟩) fun _ =>
      plain.bind (plain_fileIdentities _ _) fun _ => plain.pure _

theorem tame_responsesToolOutputIndex (payload : JsonObject) (item : Option JsonObject) :
    Respects Tame (responsesToolOutputIndex payload item) := by
  unfold responsesToolOutputIndex
  dsimp only
  split
  · exact tame_explicitOutputIndex _ _
  · exact tame_of_plain (plain_syntheticOutputIndex _)

theorem plain_appendResponsesToolArguments (outputIndex : Int) (delta : Option JsString) :
    Respects Plain (appendResponsesToolArguments outputIndex delta) := by
  unfold appendResponsesToolArguments
  split
  · exact plain.pure _
  · exact plain.bind (plain_modify fun _ => ⟨rfl, rfl, rfl⟩) fun _ => plain.pure _

theorem tame_reconcileResponsesToolArguments (outputIndex : Int) (snapshot : Option JsString) :
    Respects Tame (reconcileResponsesToolArguments outputIndex snapshot) := by
  unfold reconcileResponsesToolArguments
  split
  · exact tame.pure _
  · refine tame.bind tame.get fun s => .ite (fun _ => tame.pure _) fun _ => .ite (fun _ => ?_)
      fun _ => tame.bind (tame_emitResponsesProtocolError _ _) fun _ => tame.pure _
    exact tame_of_plain (plain.bind (plain_modify fun _ => ⟨rfl, rfl, rfl⟩) fun _ => plain.pure _)

theorem plain_emitArguments (outputIndex : Int) (index : Nat) (arguments : Option JsString)
    (toolType : Option ToolCallType) :
    Respects Plain (emitArguments outputIndex index arguments toolType) := plain_emit rfl

theorem plain_completeTool (outputIndex : Int) (index : Nat) :
    Respects Plain (completeTool outputIndex index) := by
  refine plain.bind plain.get fun s => .ite (fun _ => plain.pure _) fun _ => ?_
  exact plain.bind (plain_modify fun _ => ⟨rfl, rfl, rfl⟩) fun _ => plain_emit rfl

theorem plain_noteRefusal (contentType : ContentType) : Respects Plain (noteRefusal contentType) := by
  cases contentType with
  | text => exact plain.pure _
  | refusal => exact plain_modify fun _ => ⟨rfl, rfl, rfl⟩

theorem plain_handleTextDelta (contentType : ContentType) (payload : JsonObject) :
    Respects Plain (handleTextDelta contentType payload) := by
  refine plain.bind plain.get fun s => .ite (fun _ => plain.pure _) fun _ => ?_
  refine plain.bind (plain_noteRefusal _) fun _ => ?_
  exact plain.bind (plain_modify fun _ => ⟨rfl, rfl, rfl⟩) fun _ => plain_emit rfl

theorem plain_handleTextDone (contentType : ContentType) (field : String) (payload : JsonObject) :
    Respects Plain (handleTextDone contentType field payload) := by
  refine plain.bind plain.get fun s => ?_
  dsimp only
  split
  · exact plain_modify fun _ => ⟨rfl, rfl, rfl⟩
  · exact plain.bind (plain.whenever fun _ => plain_emit rfl) fun _ =>
      plain.bind (plain_noteRefusal _) fun _ => plain_modify fun _ => ⟨rfl, rfl, rfl⟩

theorem plain_emitToolItem (outputIndex : Int) (index : Nat) (type : ToolCallType)
    (item : JsonObject) (includeMetadata : Bool) (argumentSuffix : Option JsString) :
    Respects Plain (emitToolItem outputIndex index type item includeMetadata argumentSuffix) :=
  plain_emit rfl

theorem tame_handleItemAdded (payload : JsonObject) : Respects Tame (handleItemAdded payload) := by
  unfold handleItemAdded
  dsimp only
  split
  · exact tame.pure _
  · refine tame.bind (tame_responsesToolOutputIndex _ _) fun outputIndex =>
      tame.bind (tame_of_plain (plain_responseToolIndex _)) fun index =>
      tame.bind tame.get fun s =>
      tame.bind (tame_reconcileResponsesToolArguments _ _) fun suffix =>
      tame.bind tame.get fun s => .ite (fun _ => tame.pure _) fun _ => tame_of_plain ?_
    exact plain.bind (plain_modify fun _ => ⟨rfl, rfl, rfl⟩) fun _ =>
      plain.whenever fun _ => plain_emitToolItem _ _ _ _ _ _

theorem tame_handleArgumentsDelta (type : ToolCallType) (payload : JsonObject) :
    Respects Tame (handleArgumentsDelta type payload) := by
  refine tame.bind (tame_responsesToolOutputIndex _ _) fun outputIndex => tame_of_plain ?_
  refine plain.bind (plain_responseToolIndex _) fun index =>
    plain.bind (plain_modify fun _ => ⟨rfl, rfl, rfl⟩) fun _ => ?_
  exact plain.bind (plain_appendResponsesToolArguments _ _) fun _ => plain_emitArguments _ _ _ _

theorem tame_handleArgumentsDone (type : ToolCallType) (payload : JsonObject) :
    Respects Tame (handleArgumentsDone type payload) := by
  refine tame.bind (tame_responsesToolOutputIndex _ _) fun outputIndex =>
    tame.bind (tame_of_plain (plain_responseToolIndex _)) fun index =>
    tame.bind (tame_reconcileResponsesToolArguments _ _) fun arguments =>
    tame.bind tame.get fun s => .ite (fun _ => tame.pure _) fun _ => tame_of_plain ?_
  exact plain.bind (plain.whenever fun _ => plain_emitArguments _ _ _ _) fun _ =>
    plain_completeTool _ _

theorem tame_finishToolItem (type : ToolCallType) (item : JsonObject) (outputIndex : Int) :
    Respects Tame (finishToolItem type item outputIndex) := by
  refine tame.bind (tame_of_plain (plain_responseToolIndex _)) fun index =>
    tame.bind tame.get fun s =>
    tame.bind (tame_reconcileResponsesToolArguments _ _) fun suffix =>
    tame.bind tame.get fun s => .ite (fun _ => tame.pure _) fun _ => tame_of_plain ?_
  refine plain.bind (plain.whenever fun _ => ?_) fun _ => ?_
  · exact plain.bind (plain_modify fun _ => ⟨rfl, rfl, rfl⟩) fun _ =>
      plain_emitToolItem _ _ _ _ _ _
  · refine plain.bind (plain_modify fun _ => ⟨rfl, rfl, rfl⟩) fun _ => ?_
    exact plain.bind (plain.whenever fun _ => plain_completeTool _ _) fun _ => plain.pure _

theorem tame_handleItemDone (payload : JsonObject) : Respects Tame (handleItemDone payload) := by
  refine .ite (fun _ => tame_of_plain (plain.whenever fun _ => plain_emit rfl)) fun _ => ?_
  refine tame.bind (tame_responsesToolOutputIndex _ _) fun outputIndex => ?_
  split
  · exact tame.pure _
  · exact tame.bind (tame_finishToolItem _ _ _) fun _ => tame.pure _

theorem plain_responsesPayloadAdvancesProgress (type : JsString) (payload : JsonObject) :
    Respects Plain (responsesPayloadAdvancesProgress type payload) := by
  refine .ite (fun _ => plain.pure _) fun _ => .ite (fun _ => ?_) fun _ => plain.pure _
  refine plain.bind plain.get fun s => ?_
  split
  · exact plain.pure _
  · refine .ite (fun _ => plain.pure _) fun _ => ?_
    exact plain.bind (plain_modify fun _ => ⟨rfl, rfl, rfl⟩) fun _ => plain.pure _

theorem tame_sequenceEvent (type : JsString) (payload : JsonObject) :
    Respects Tame (sequenceEvent type payload) := by
  refine .ite (fun _ => tame.pure _) fun _ =>
    tame.bind (tame_of_plain (plain_modify fun _ => ⟨rfl, rfl, rfl⟩)) fun _ =>
    tame.bind (.ite (fun _ => tame.bind tame.get fun s => ?_) fun _ => tame.pure _) fun inSequence =>
    .ite (fun _ => tame_of_plain ?_) fun _ => tame.pure _
  · split
    · exact tame.bind (tame_emitResponsesProtocolError _ _) fun _ => tame.pure _
    · refine .ite (fun _ => tame.pure _) fun _ => tame_of_plain ?_
      exact plain.bind (plain_modify fun _ => ⟨rfl, rfl, rfl⟩) fun _ => plain.pure _
  · refine plain.bind (plain.whenever fun _ => ?_) fun _ => plain.pure _
    exact plain.bind (plain_responsesPayloadAdvancesProgress _ _) fun advances =>
      plain.whenever fun _ => plain_modify fun _ => ⟨rfl, rfl, rfl⟩

/-- The finish marker of Responses: a completed or incomplete event whose
response says so. -/
def responsesMarker (eventName : Option JsString) (payload : JsonObject) : Bool :=
  match terminalEvent? ((optionalString (payload.prop "type")).getD (eventName.getD [])) with
  | none | some .failed => false
  | some terminal =>
    (objectValue (payload.prop "response")).any fun response =>
      responseStatus response == terminal.status

theorem tame_checkTerminal (type : JsString) (payload : JsonObject) :
    Respects Tame (checkTerminal type payload) := by
  unfold checkTerminal
  split
  · exact tame.pure _
  · split
    · exact tame.bind (tame_emitResponsesProtocolError _ _) fun _ => tame.pure _
    · refine .ite (fun _ => tame.bind (tame_emitResponsesProtocolError _ _) fun _ => tame.pure _)
        fun _ => ?_
      intro s
      simp only [wp_bind, wp_get, List.nil_append]
      split
      · next herrored =>
          have hend : TameAfterError (emitStop .error (some (js "prior_stream_error")) >>= fun _ =>
              emitDone >>= fun _ => (pure false : Handler Bool)) :=
            (afterError_emitStop _).bind fun _ => afterError_emitDone.bind fun _ s _ => tame.pure _ s
          exact hend s herrored
      · refine tame_of_plain ?_ s
        exact plain.bind (plain_modify fun _ => ⟨rfl, rfl, rfl⟩) fun _ => plain.pure _

variable {type : JsString}

/-- Without a finish marker a terminal event is not accepted unless it reports
a failure. -/
theorem wp_checkTerminal_result {terminal : ResponsesTerminalEvent}
    (hterminal : terminalEvent? type = some terminal)
    (hmarker : (objectValue (payload.prop "response")).any (fun response =>
      responseStatus response == terminal.status) = false) (s : ParserState) :
    wp (checkTerminal type payload) s (fun continues _ _ => continues = false)
      fun _ _ _ => True := by
  have hfailure (message code : JsString) :
      wp (emitResponsesProtocolError message code >>= fun _ => (pure false : Handler Bool)) s
        (fun continues _ _ => continues = false) fun _ _ _ => True := by
    rw [wp_bind]
    exact wp_mono (tame_emitResponsesProtocolError message code s) (fun _ _ _ _ => rfl)
      fun _ _ _ _ => trivial
  unfold checkTerminal
  rw [hterminal]
  dsimp only
  split
  · exact hfailure _ _
  · next response hresponse =>
      have hstatus : responseStatus response ≠ terminal.status := by
        simpa [hresponse] using hmarker
      rw [if_pos hstatus]
      exact hfailure _ _

theorem terminalEvent?_eq_none (h : terminalEvent? type = none) :
    type ≠ js "response.completed" ∧ type ≠ js "response.incomplete" ∧
      type ≠ js "response.failed" := by
  unfold terminalEvent? at h
  grind

theorem terminalEvent?_eq_failed (h : terminalEvent? type = some .failed) :
    type = js "response.failed" := by
  unfold terminalEvent? at h
  grind

/-- The handlers other than those of the two successful terminal events. -/
theorem tame_dispatchResponses (payload : JsonObject) (response : Option JsonObject)
    (hcompleted : type ≠ js "response.completed") (hincomplete : type ≠ js "response.incomplete") :
    Respects Tame (dispatchResponses type payload response) := by
  have herror (value : Option Json) (raw : Option JsString) : Respects Tame (do
      emitErrorObject value
      emitStop .error raw
      emitDone) := by
    unfold emitErrorObject
    split
    · split
      · exact tame_failure _ _ _ _
      · exact tame_failure _ _ _ _
    · exact tame_failure _ _ _ _
  refine .ite (fun _ => herror _ _) fun _ =>
    .ite (fun _ => tame_of_plain (plain_emitStart _ _ _)) fun _ =>
    tame.bind (tame_of_plain (plain_emitStart _ _ _)) fun _ => ?_
  refine .ite (fun _ => tame_of_plain (plain_handleTextDelta _ _)) fun _ =>
    .ite (fun _ => tame_of_plain (plain_handleTextDone _ _ _)) fun _ =>
    .ite (fun _ => tame_of_plain (plain_handleTextDelta _ _)) fun _ =>
    .ite (fun _ => tame_of_plain (plain_handleTextDone _ _ _)) fun _ =>
    .ite (fun _ => tame_handleItemAdded _) fun _ =>
    .ite (fun _ => tame_handleArgumentsDelta _ _) fun _ =>
    .ite (fun _ => tame_handleArgumentsDelta _ _) fun _ =>
    .ite (fun _ => tame_handleArgumentsDone _ _) fun _ =>
    .ite (fun _ => tame_handleArgumentsDone _ _) fun _ =>
    .ite (fun _ => tame_handleItemDone _) fun _ =>
    .ite (fun h => absurd h hcompleted) fun _ =>
    .ite (fun h => absurd h hincomplete) fun _ =>
    .ite (fun _ => tame_of_plain (plain_emitUsage _ _ _ _)) fun _ =>
    .ite (fun _ => herror _ _) fun _ => tame.pure _

theorem tame_handleTyped
    (h : ∀ terminal, terminalEvent? type = some terminal → terminal ≠ .failed →
      (objectValue (payload.prop "response")).any (fun response =>
        responseStatus response == terminal.status) = false) :
    Respects Tame (handleOpenAiResponses.handleTyped type payload
      (objectValue (payload.prop "response"))) := by
  have hrest : Respects Tame (sequenceEvent type payload >>= fun goesOn =>
      if goesOn = true then
        checkTerminal type payload >>= fun goesOn =>
          if goesOn = true then
            dispatchResponses type payload (objectValue (payload.prop "response"))
          else pure ()
      else pure ()) := by
    refine tame.bind (tame_sequenceEvent _ _) fun _ => .ite (fun _ => ?_) fun _ => tame.pure _
    cases hterminal : terminalEvent? type with
    | none =>
        obtain ⟨hcompleted, hincomplete, -⟩ := terminalEvent?_eq_none hterminal
        exact tame.bind (tame_checkTerminal _ _) fun _ =>
          .ite (fun _ => tame_dispatchResponses _ _ hcompleted hincomplete) fun _ => tame.pure _
    | some terminal =>
        by_cases hfailed : terminal = .failed
        · rw [hfailed] at hterminal
          have htype := terminalEvent?_eq_failed hterminal
          refine tame.bind (tame_checkTerminal _ _) fun _ => .ite (fun _ => ?_) fun _ => tame.pure _
          exact tame_dispatchResponses _ _ (by rw [htype]; decide) (by rw [htype]; decide)
        · refine tame.bind_of (tame_checkTerminal _ _)
            (wp_checkTerminal_result hterminal (h terminal hterminal hfailed)) ?_
          rintro continues rfl
          exact tame.pure _
  unfold handleOpenAiResponses.handleTyped
  split
  · exact hrest
  · exact tame.bind (tame_of_plain (plain_modify fun _ => ⟨rfl, rfl, rfl⟩)) fun _ => hrest

theorem tame_handleOpenAiResponses (h : responsesMarker eventName payload = false) :
    Respects Tame (handleOpenAiResponses eventName payload) := by
  have htyped : Respects Tame (handleOpenAiResponses.handleTyped
      ((optionalString (payload.prop "type")).getD (eventName.getD [])) payload
      (objectValue (payload.prop "response"))) := by
    refine tame_handleTyped fun terminal hterminal hfailed => ?_
    unfold responsesMarker at h
    rw [hterminal] at h
    cases terminal with
    | completed => exact h
    | incomplete => exact h
    | failed => exact absurd rfl hfailed
  unfold handleOpenAiResponses
  dsimp only
  split
  · exact .ite (fun _ => tame_emitResponsesProtocolError _ _) fun _ => htyped
  · exact htyped

end StonePlus.Streaming
