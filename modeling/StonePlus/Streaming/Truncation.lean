import StonePlus.Streaming.Flags
import StonePlus.Streaming.Items
import StonePlus.Streaming.Terminals

/-!
# StonePlus.Streaming.Truncation

A source that never finishes is not made to look as if it did.

The one way out is an SSE event `[DONE]` in an Anthropic or a Gemini stream:
it ends the stream at once, and only Chat asks for a finish reason first.
-/

namespace StonePlus.Streaming

open Lib Lib.Effect

/-! ## Items -/

namespace FramedItem

/-- The SSE event `[DONE]`. -/
def isDoneEvent : FramedItem → Bool
  | .inl (.event _ data) => decide (data.trim = js "[DONE]")
  | _ => false

/-- The JSON value of an item, under the name of its event. -/
def value? : FramedItem → Option (Option JsString × Json)
  | .inl (.event eventName data) =>
    if data.trim = js "[DONE]" then none else (Json.parse data).map fun value => (eventName, value)
  | .inr (.value value) => some (none, value)
  | _ => none

/-- The payload of an item. -/
def payload? (item : FramedItem) : Option (Option JsString × JsonObject) :=
  item.value?.bind fun named => (objectValue (some named.2)).map fun payload => (named.1, payload)

end FramedItem

/-- A payload with the semantic finish marker of the protocol. -/
def finishMarker (protocol : Protocol) (eventName : Option JsString) (payload : JsonObject) : Bool :=
  match protocol with
  | .openaiChat => chatMarker payload
  | .openaiResponses => responsesMarker eventName payload
  | .anthropicMessages => anthropicMarker eventName payload
  | .gemini => geminiMarker payload

/-- A payload that reports a failure, of the protocols in which `[DONE]` ends
a stream unconditionally. -/
def failurePayload (protocol : Protocol) (eventName : Option JsString) (payload : JsonObject) : Bool :=
  match protocol with
  | .anthropicMessages => anthropicFails eventName payload
  | .gemini => truthy (payload.prop "error")
  | _ => false

namespace FramedItem

/-- The item has the semantic finish marker of the protocol. -/
def marksFinish (protocol : Protocol) (item : FramedItem) : Bool :=
  item.payload?.any fun named => finishMarker protocol named.1 named.2

/-- The item fails the stream: it cannot be read, or it reports a failure. -/
def fails (protocol : Protocol) (item : FramedItem) : Bool :=
  match item.payload? with
  | some (eventName, payload) => failurePayload protocol eventName payload
  | none => !item.isDoneEvent

end FramedItem

/-- The protocols in which `[DONE]` ends a stream unconditionally. -/
def endsUnconditionally : Protocol → Bool
  | .anthropicMessages | .gemini => true
  | _ => false

/-- Every `[DONE]` of a protocol in which it ends a stream unconditionally
comes after an item that fails the stream. -/
def DoneAfterFailure (protocol : Protocol) : Bool → List FramedItem → Prop
  | _, [] => True
  | failed, item :: items =>
    (endsUnconditionally protocol = true → item.isDoneEvent = true → failed = true) ∧
      DoneAfterFailure protocol (failed || item.fails protocol) items

instance decidableDoneAfterFailure (protocol : Protocol) :
    ∀ failed items, Decidable (DoneAfterFailure protocol failed items)
  | _, [] => .isTrue trivial
  | failed, item :: items =>
    have := decidableDoneAfterFailure protocol (failed || item.fails protocol) items
    inferInstanceAs (Decidable (_ ∧ _))

variable {syntaxError : JsString → JsString} {protocol : Protocol} {options : ParserOptions}

/-! ## One item -/

theorem tame_handlePayload
    (h : ∀ payload, objectValue (some value) = some payload →
      finishMarker protocol eventName payload = false) :
    Respects Tame (handlePayload protocol options eventName value) := by
  unfold handlePayload
  split
  · exact tame_emitError _ _ _
  · next payload hpayload =>
      have hmarker := h payload hpayload
      refine tame.bind (tame_of_plain (plain.whenever fun _ =>
        plain_modify fun _ => ⟨rfl, rfl, rfl⟩)) fun _ => ?_
      cases protocol with
      | openaiChat => exact tame_handleOpenAiChat options eventName hmarker
      | openaiResponses => exact tame_handleOpenAiResponses hmarker
      | anthropicMessages => exact tame_handleAnthropic options hmarker
      | gemini => exact tame_handleGemini options hmarker

/-- `[DONE]` in a Chat stream fails a stream without a finish reason. -/
theorem tame_handleDoneMarker (h : endsUnconditionally protocol = false) :
    Respects Tame (handleDoneMarker protocol) := by
  cases protocol with
  | anthropicMessages => simp [endsUnconditionally] at h
  | gemini => simp [endsUnconditionally] at h
  | openaiResponses =>
      exact tame_of_plain (plain.bind plain.get fun _ => plain_modify fun _ => ⟨rfl, rfl, rfl⟩)
  | openaiChat =>
      intro s
      by_cases herrored : s.errored = true
      · have hend := afterError_emitDone s herrored
        simpa [handleDoneMarker, wp_bind, herrored] using hend
      · by_cases hstopped : s.stopped = true
        · have hmirrors := mirrors_emitDone s
          have hdone : wp emitDone s (fun _ s' out => Tame s out s') fun _ s' out => Tame s out s' :=
            wp_mono hmirrors
              (fun _ _ _ h => ⟨h, fun hs => absurd (hs.stopped hstopped) herrored⟩)
              fun _ _ _ h => ⟨h, fun hs => absurd (hs.stopped hstopped) herrored⟩
          simpa [handleDoneMarker, wp_bind, hstopped] using hdone
        · have hfailure := tame_failure (js "Stream ended before a semantic finish reason") none
            (some (js "incomplete_stream")) (some (js "incomplete_stream")) s
          simpa [handleDoneMarker, emitIncompleteStream, wp_bind, herrored, hstopped] using hfailure

variable {item : FramedItem}

theorem payload?_of_value (h : item.value? = some (eventName, value)) :
    item.payload? = (objectValue (some value)).map fun payload => (eventName, payload) := by
  simp [FramedItem.payload?, h]

theorem tame_handleValue (hmarker : item.marksFinish protocol = false)
    (hvalue : item.value? = some (eventName, value)) :
    Respects Tame (handlePayload protocol options eventName value) :=
  tame_handlePayload fun payload hpayload => by
    simpa [FramedItem.marksFinish, payload?_of_value hvalue, hpayload] using hmarker

/-- An item without a finish marker. -/
theorem tame_onItem (hmarker : item.marksFinish protocol = false)
    (hdone : endsUnconditionally protocol = true → item.isDoneEvent = false) :
    Respects Tame (onItem syntaxError protocol options item) := by
  rcases item with (⟨eventName, data⟩ | message) | (value | message)
  · refine tame.bind tame.get fun s => .ite (fun _ => tame.pure _) fun _ => .ite (fun hdata => ?_)
      fun hdata => ?_
    · refine tame_handleDoneMarker ?_
      simpa [FramedItem.isDoneEvent, hdata] using hdone
    · split
      · next value hvalue =>
          exact tame_handleValue hmarker (by simp [FramedItem.value?, hdata, hvalue])
      · exact .ite (fun _ => tame_emitIncompleteStream _) fun _ => tame_emitError _ _ _
  · exact tame_emitFramingError message
  · exact tame_handleValue hmarker rfl
  · exact tame_emitFramingError message

/-- `[DONE]` after an error. -/
theorem afterError_onItem (hends : endsUnconditionally protocol = true)
    (hdone : item.isDoneEvent = true) :
    TameAfterError (onItem syntaxError protocol options item) := by
  rcases item with (⟨eventName, data⟩ | message) | (value | message)
  · intro s hs
    have hdata : data.trim = js "[DONE]" := by simpa [FramedItem.isDoneEvent] using hdone
    have hend := afterError_emitDone s hs
    cases protocol with
    | openaiChat => simp [endsUnconditionally] at hends
    | openaiResponses => simp [endsUnconditionally] at hends
    | anthropicMessages =>
        simpa [onItem, onSseItem, handleSse, handleDoneMarker, wp_bind, hdata] using hend
    | gemini => simpa [onItem, onSseItem, handleSse, handleDoneMarker, wp_bind, hdata] using hend
  · simp [FramedItem.isDoneEvent] at hdone
  · simp [FramedItem.isDoneEvent] at hdone
  · simp [FramedItem.isDoneEvent] at hdone

/-! ## Items that fail a stream -/

/-- The stream has failed when the program is over. -/
abbrev Errs (m : Handler Unit) (s : ParserState) : Prop :=
  wp m s (fun _ s' _ => s'.errored = true) fun _ s' _ => s'.errored = true

theorem errs_emitError_bind (message : JsString) (code errorType : Option JsString)
    {m : Handler Unit} (h : TameAfterError m) (s : ParserState) :
    Errs (emitError message code errorType >>= fun _ => m) s := by
  simp only [Errs, emitError, wp_bind, wp_modify, wp_emit]
  have herrored {s' : ParserState} {out : List StreamEvent}
      (htame : Tame { s with errored := true } out s') : s'.errored = true := by
    simp [htame.mirrors.errored]
  exact wp_mono (h _ rfl) (fun _ _ _ => herrored) fun _ _ _ => herrored

theorem errs_emitError (message : JsString) (code errorType : Option JsString) (s : ParserState) :
    Errs (emitError message code errorType) s := by
  simp [Errs, emitError, wp_bind]

theorem errs_emitIncompleteStream (message : JsString) (s : ParserState) :
    Errs (emitIncompleteStream message) s :=
  errs_emitError_bind _ _ _ (afterError_emitStop _) s

theorem errs_emitFramingError (message : JsString) (s : ParserState) :
    Errs (emitFramingError message) s := by
  unfold emitFramingError
  split
  · exact errs_emitIncompleteStream message s
  · split
    · exact errs_emitError_bind _ _ _ ((afterError_emitStop _).bind fun _ => afterError_emitDone) s
    · exact errs_emitError _ _ _ s

theorem errs_emitErrorObject (value : Option Json) (s : ParserState) :
    Errs (emitErrorObject value) s := by
  unfold emitErrorObject
  split
  · split
    · exact errs_emitError _ _ _ s
    · exact errs_emitError _ _ _ s
  · exact errs_emitError _ _ _ s

theorem errs_handleMessageStop (hs : Settled s) : Errs handleMessageStop s := by
  by_cases hstopped : s.stopped = true
  · have herrored := hs.stopped hstopped
    have hend : Errs emitDone s :=
      wp_mono (afterError_emitDone s herrored)
        (fun _ _ _ h => by simp [h.mirrors.errored, herrored])
        fun _ _ _ h => by simp [h.mirrors.errored, herrored]
    simpa [Errs, handleMessageStop, wp_bind, hstopped] using hend
  · have hfailure : Errs _ s := errs_emitError_bind
      (js "Anthropic message_stop arrived before a stop_reason")
      (some (js "incomplete_stream")) (some (js "incomplete_stream"))
      ((afterError_emitStop (some (js "incomplete_stream"))).bind fun _ => afterError_emitDone) s
    simpa [Errs, handleMessageStop, wp_bind, hstopped] using hfailure

/-- A payload that reports a failure. -/
theorem errs_handler (hs : Settled s) (h : failurePayload protocol eventName payload = true) :
    Errs (handlePayload protocol options eventName (.object payload)) s := by
  have hcount (m : Handler Unit) (hm : ∀ s, Settled s → Errs m s) :
      Errs (whenever (recognizedProtocolPayload protocol eventName payload = true)
        (Effect.modify fun s => { s with recognizedEventCount := s.recognizedEventCount + 1 }) >>=
          fun _ => m) s := by
    simp only [Errs, wp_bind, wp_whenever, wp_modify]
    split
    · exact hm _ ⟨hs.stopped, hs.done⟩
    · exact hm s hs
  cases protocol with
  | openaiChat => simp [failurePayload] at h
  | openaiResponses => simp [failurePayload] at h
  | gemini =>
      refine hcount _ fun s _ => ?_
      have herror : handleGemini options payload = emitErrorObject (payload.prop "error") := if_pos h
      dsimp only
      rw [herror]
      exact errs_emitErrorObject _ s
  | anthropicMessages =>
      refine hcount _ fun s hs => ?_
      simp only [failurePayload, anthropicFails, decide_eq_true_eq] at h
      rcases h with h | h
      · have herror : handleAnthropic options eventName payload =
            emitErrorObject (nullish (payload.prop "error") (some (.object payload))) := if_pos h
        dsimp only
        rw [herror]
        exact errs_emitErrorObject _ s
      · have hstop : handleAnthropic options eventName payload = handleMessageStop := by
          simp only [handleAnthropic, h]
          rfl
        dsimp only
        rw [hstop]
        exact errs_handleMessageStop hs

theorem errs_handleValue (hs : Settled s) (hfails : item.fails protocol = true)
    (hvalue : item.value? = some (eventName, value)) :
    Errs (handlePayload protocol options eventName value) s := by
  have hpayload := payload?_of_value hvalue
  cases hobject : objectValue (some value) with
  | none =>
      have herror : handlePayload protocol options eventName value =
          emitError (js "Stream payload must be a JSON object") (some (js "invalid_payload")) none := by
        unfold handlePayload
        rw [hobject]
      rw [herror]
      exact errs_emitError _ _ _ s
  | some payload =>
      have hvalue' : value = .object payload := by
        cases value <;> simp_all [objectValue]
      rw [hobject] at hpayload
      rw [hvalue']
      refine errs_handler hs ?_
      simpa [FramedItem.fails, hpayload] using hfails

theorem not_fails_of_isDoneEvent (protocol : Protocol) (h : item.isDoneEvent = true) :
    item.fails protocol = false := by
  rcases item with (⟨eventName, data⟩ | message) | (value | message)
  · have hdata : data.trim = js "[DONE]" := by simpa [FramedItem.isDoneEvent] using h
    simp [FramedItem.fails, FramedItem.payload?, FramedItem.value?, FramedItem.isDoneEvent, hdata]
  · simp [FramedItem.isDoneEvent] at h
  · simp [FramedItem.isDoneEvent] at h
  · simp [FramedItem.isDoneEvent] at h

/-- An item that fails the stream. -/
theorem errs_onItem {s : ParserState} (hs : Settled s)
    (hends : endsUnconditionally protocol = true) (hfails : item.fails protocol = true) :
    Errs (onItem syntaxError protocol options item) s := by
  rcases item with (⟨eventName, data⟩ | message) | (value | message)
  · have hdata : data.trim ≠ js "[DONE]" := fun hdata => by
      have hdone : FramedItem.isDoneEvent (.inl (.event eventName data)) = true := by
        simp [FramedItem.isDoneEvent, hdata]
      simp [not_fails_of_isDoneEvent protocol hdone] at hfails
    have hprotocol : protocol ≠ .openaiResponses := by rintro rfl; simp [endsUnconditionally] at hends
    simp only [onItem, Sum.elim_inl, onSseItem, handleSse, Errs, wp_bind, wp_get, hprotocol,
      false_and, if_false, hdata]
    split
    · next value hvalue =>
        exact errs_handleValue hs hfails (by simp [FramedItem.value?, hdata, hvalue])
    · split
      · exact errs_emitIncompleteStream _ s
      · exact errs_emitError _ _ _ s
  · exact errs_emitFramingError message s
  · exact errs_handleValue hs hfails rfl
  · exact errs_emitFramingError message s

/-! ## Items that do not -/

/-- A payload that neither finishes nor fails the stream. -/
theorem plain_handlePayload (hends : endsUnconditionally protocol = true)
    (hmarker : finishMarker protocol eventName payload = false)
    (hfails : failurePayload protocol eventName payload = false) :
    Respects Plain (handlePayload protocol options eventName (.object payload)) := by
  refine plain.bind (plain.whenever fun _ => plain_modify fun _ => ⟨rfl, rfl, rfl⟩) fun _ => ?_
  cases protocol with
  | openaiChat => simp [endsUnconditionally] at hends
  | openaiResponses => simp [endsUnconditionally] at hends
  | anthropicMessages => exact plain_handleAnthropic options hmarker hfails
  | gemini => exact plain_handleGemini options hmarker hfails

/-- An item that neither finishes, fails nor ends the stream. -/
theorem plain_onItem (hends : endsUnconditionally protocol = true)
    (hmarker : item.marksFinish protocol = false) (hfails : item.fails protocol = false)
    (hdone : item.isDoneEvent = false) :
    Respects Plain (onItem syntaxError protocol options item) := by
  cases hpayload : item.payload? with
  | none => simp [FramedItem.fails, hpayload, hdone] at hfails
  | some named =>
      obtain ⟨eventName, payload⟩ := named
      have hplain : Respects Plain (handlePayload protocol options eventName (.object payload)) :=
        plain_handlePayload hends (by simpa [FramedItem.marksFinish, hpayload] using hmarker)
          (by simpa [FramedItem.fails, hpayload] using hfails)
      rcases item with (⟨name, data⟩ | message) | (value | message)
      · have hdata : data.trim ≠ js "[DONE]" := by simpa [FramedItem.isDoneEvent] using hdone
        have hparsed : name = eventName ∧ Json.parse data = some (.object payload) := by
          simp only [FramedItem.payload?, FramedItem.value?, hdata, if_false] at hpayload
          cases hparse : Json.parse data with
          | none => simp [hparse] at hpayload
          | some value => cases value <;> simp_all [objectValue]
        obtain ⟨rfl, hparse⟩ := hparsed
        refine plain.bind plain.get fun s => .ite (fun _ => plain.pure _) fun _ =>
          .ite (fun h => absurd h hdata) fun _ => ?_
        rw [hparse]
        exact hplain
      · simp [FramedItem.payload?, FramedItem.value?] at hpayload
      · have hvalue : eventName = none ∧ value = .object payload := by
          cases value <;> simp_all [FramedItem.payload?, FramedItem.value?, objectValue]
        obtain ⟨rfl, rfl⟩ := hvalue
        exact hplain
      · simp [FramedItem.payload?, FramedItem.value?] at hpayload

/-! ## Runs of items -/

theorem doneAfterFailure_true (items : List FramedItem) : DoneAfterFailure protocol true items := by
  induction items with
  | nil => trivial
  | cons item items ih => exact ⟨fun _ _ => rfl, ih⟩

theorem doneAfterFailure_of_asks (h : endsUnconditionally protocol = false) (failed : Bool)
    (items : List FramedItem) : DoneAfterFailure protocol failed items := by
  induction items generalizing failed with
  | nil => trivial
  | cons item items ih => exact ⟨fun hends => by simp [hends] at h, ih _⟩

theorem doneAfterFailure_append : DoneAfterFailure protocol failed (items ++ more) ↔
      DoneAfterFailure protocol failed items ∧
        DoneAfterFailure protocol (failed || items.any fun item => item.fails protocol) more := by
  induction items generalizing failed with
  | nil => simp [DoneAfterFailure]
  | cons item items ih => simp [DoneAfterFailure, ih, and_assoc, Bool.or_assoc]

/-- The items of a stream without a finish marker. -/
theorem tame_items (syntaxError : JsString → JsString) (options : ParserOptions)
    (hmarker : ∀ item ∈ items, item.marksFinish protocol = false)
    (hdone : DoneAfterFailure protocol failed items) (hs : Settled s)
    (hfailed : endsUnconditionally protocol = true → failed = true → s.errored = true) :
    let handled := execAll (items.map (onItem syntaxError protocol options)) s
    Tame s handled.1 handled.2 ∧
      (endsUnconditionally protocol = true →
        (failed || items.any fun item => item.fails protocol) = true →
          handled.2.errored = true) := by
  induction items generalizing failed s with
  | nil => exact ⟨tame.refl s, fun hends hor => hfailed hends (by simpa using hor)⟩
  | cons item items ih =>
      obtain ⟨hitem, hitems⟩ := List.forall_mem_cons.mp hmarker
      have hfirst : Tame s (exec (onItem syntaxError protocol options item) s).1
          (exec (onItem syntaxError protocol options item) s).2 := by
        by_cases hend : endsUnconditionally protocol = true ∧ item.isDoneEvent = true
        · have herrored := hfailed hend.1 (hdone.1 hend.1 hend.2)
          exact of_wp (P := fun s' out => Tame s out s')
            (afterError_onItem hend.1 hend.2 s herrored)
        · have hnot : endsUnconditionally protocol = true → item.isDoneEvent = false := by
            simpa using hend
          exact of_wp (P := fun s' out => Tame s out s') (tame_onItem hitem hnot s)
      have herrored : endsUnconditionally protocol = true →
          (failed || item.fails protocol) = true →
            (exec (onItem syntaxError protocol options item) s).2.errored = true := by
        intro hends hor
        rcases Bool.or_eq_true _ _ ▸ hor with h | h
        · rw [hfirst.mirrors.errored, hfailed hends h, Bool.true_or]
        · exact of_wp (P := fun (s' : ParserState) _ => s'.errored = true) (errs_onItem hs hends h)
      obtain ⟨hrest, hall⟩ := ih hitems hdone.2 (hfirst.settled hs) herrored
      refine ⟨tame.trans hfirst hrest, fun hends hor => hall hends ?_⟩
      simpa [Bool.or_assoc] using hor

/-- Items that neither finish, fail nor end a stream. -/
theorem plain_items (syntaxError : JsString → JsString) (options : ParserOptions)
    (hends : endsUnconditionally protocol = true) {items : List FramedItem}
    (hmarker : ∀ item ∈ items, item.marksFinish protocol = false)
    (hfails : ∀ item ∈ items, item.fails protocol = false)
    (hdone : ∀ item ∈ items, item.isDoneEvent = false) (s : ParserState) :
    Plain s (execAll (items.map (onItem syntaxError protocol options)) s).1
      (execAll (items.map (onItem syntaxError protocol options)) s).2 := by
  induction items generalizing s with
  | nil => exact plain.refl s
  | cons item items ih =>
      simp only [List.forall_mem_cons] at hmarker hfails hdone
      have hfirst : Plain s (exec (onItem syntaxError protocol options item) s).1
          (exec (onItem syntaxError protocol options item) s).2 :=
        of_wp (P := fun s' out => Plain s out s')
          (plain_onItem hends hmarker.1 hfails.1 hdone.1 s)
      exact plain.trans hfirst (ih hmarker.2 hfails.2 hdone.2 _)

/-- `[DONE]` ends a stream that is not done. -/
theorem exec_onItem_done (hends : endsUnconditionally protocol = true)
    (hevent : item.isDoneEvent = true) (hs : s.done = false) :
    (exec (onItem syntaxError protocol options item) s).1 = [.done] := by
  rcases item with (⟨eventName, data⟩ | message) | (value | message)
  · have hdata : data.trim = js "[DONE]" := by simpa [FramedItem.isDoneEvent] using hevent
    refine of_wp (P := fun _ out => out = [(.done : StreamEvent)]) ?_
    cases protocol with
    | openaiChat => simp [endsUnconditionally] at hends
    | openaiResponses => simp [endsUnconditionally] at hends
    | anthropicMessages =>
        simp [onItem, onSseItem, handleSse, handleDoneMarker, emitDone, wp_bind, hdata, hs]
    | gemini => simp [onItem, onSseItem, handleSse, handleDoneMarker, emitDone, wp_bind, hdata, hs]
  · simp [FramedItem.isDoneEvent] at hevent
  · simp [FramedItem.isDoneEvent] at hevent
  · simp [FramedItem.isDoneEvent] at hevent

/-- A `[DONE]` that no failure precedes ends a stream that has not failed. -/
theorem done_before_error (syntaxError : JsString → JsString) (options : ParserOptions)
    (hends : endsUnconditionally protocol = true)
    (hmarker : ∀ item ∈ items, item.marksFinish protocol = false)
    (hdone : ¬DoneAfterFailure protocol false items) (hs : s.done = false) :
    ∃ before after, (∀ e ∈ before, isError e = false) ∧
      (execAll (items.map (onItem syntaxError protocol options)) s).1 =
        before ++ .done :: after := by
  induction items generalizing s with
  | nil => exact absurd trivial hdone
  | cons item items ih =>
      obtain ⟨hitem, hitems⟩ := List.forall_mem_cons.mp hmarker
      rw [List.map_cons, execAll]
      dsimp only
      by_cases hevent : item.isDoneEvent = true
      · rw [exec_onItem_done hends hevent hs]
        exact ⟨[], _, by simp, rfl⟩
      · rw [Bool.not_eq_true] at hevent
        have hfails : item.fails protocol = false := by
          by_contra hfails
          refine hdone ⟨fun _ h => by simp [hevent] at h, ?_⟩
          rw [Bool.not_eq_false] at hfails
          rw [hfails]
          exact doneAfterFailure_true items
        have hrest : ¬DoneAfterFailure protocol false items := fun h =>
          hdone ⟨fun _ h => by simp [hevent] at h, by rwa [hfails]⟩
        have hfirst : Plain s (exec (onItem syntaxError protocol options item) s).1
            (exec (onItem syntaxError protocol options item) s).2 :=
          of_wp (P := fun s' out => Plain s out s') (plain_onItem hends hitem hfails hevent s)
        obtain ⟨before, after, hbefore, hevents⟩ := ih hitems hrest (hfirst.done.trans hs)
        refine ⟨(exec (onItem syntaxError protocol options item) s).1 ++ before, after, ?_, ?_⟩
        · have hplain : ∀ e ∈ (exec (onItem syntaxError protocol options item) s).1,
              isError e = false := by
            simpa using hfirst.no_error
          exact List.forall_mem_append.mpr ⟨hplain, hbefore⟩
        · rw [hevents, List.append_assoc]

/-! ## Streams -/

/-- Closing a stream fails it unless it has failed. -/
theorem wp_closeStream {s : ParserState} (hs : Settled s) :
    wp ProtocolParser.closeStream s (fun _ s' out => Tame s out s' ∧ s'.errored = true)
      fun _ s' out => Tame s out s' ∧ s'.errored = true := by
  have hkeeps (h : s.errored = true) {s' : ParserState} {out : List StreamEvent}
      (htame : Tame s out s') : Tame s out s' ∧ s'.errored = true :=
    ⟨htame, by simp [htame.mirrors.errored, h]⟩
  by_cases hdone : s.done = true
  · have herrored := hs.done hdone
    simpa [ProtocolParser.closeStream, wp_bind, hdone, herrored] using tame.refl s
  · by_cases herrored : s.errored = true
    · have hend := wp_mono (afterError_emitDone s herrored) (fun _ _ _ => hkeeps herrored)
        fun _ _ _ => hkeeps herrored
      simpa [ProtocolParser.closeStream, wp_bind, hdone, herrored] using hend
    · have hstopped : s.stopped = false := by
        by_contra h
        exact herrored (hs.stopped (by simpa using h))
      have hend : TameAfterError (emitStop .error (some (js "incomplete_stream")) >>= fun _ =>
          emitDone) := (afterError_emitStop _).bind fun _ => afterError_emitDone
      have hfailure := wp_and
        (tame_emitError_bind (js "Stream ended before a stop or done event") none
          (some (js "incomplete_stream")) hend s)
        (errs_emitError_bind (js "Stream ended before a stop or done event") none
          (some (js "incomplete_stream")) hend s)
      simpa [ProtocolParser.closeStream, wp_bind, hdone, herrored, hstopped] using hfailure

/-- The items of a whole stream. -/
theorem tame_handleItems (syntaxError : JsString → JsString) (options : ParserOptions)
    (hmarker : ∀ item ∈ stream.items, item.marksFinish protocol = false)
    (hdone : DoneAfterFailure protocol false stream.items) :
    Tame {} (handleItems syntaxError protocol options stream).1
      (handleItems syntaxError protocol options stream).2 := by
  rw [FramedStream.items, List.forall_mem_append] at hmarker
  rw [FramedStream.items, doneAfterFailure_append] at hdone
  have hinit : Settled {} := ⟨fun h => by simp at h, fun h => by simp at h⟩
  obtain ⟨harrived, herrored⟩ := tame_items syntaxError options hmarker.1 hdone.1 hinit
    fun _ h => by simp at h
  have hsettled := harrived.settled hinit
  obtain ⟨hfinished, -⟩ := tame_items syntaxError options
    (s := { (execAll (stream.arriving.map (onItem syntaxError protocol options)) {}).2 with
      finishing := true }) hmarker.2 hdone.2 ⟨hsettled.stopped, hsettled.done⟩ herrored
  have hflag (s : ParserState) (finishing : Bool) :
      Tame s [] { s with finishing := finishing } :=
    Plain.tame ⟨rfl, rfl, rfl, by simp⟩
  have hall := tame.trans harrived (tame.trans (hflag _ true)
    (tame.trans hfinished (hflag _ false)))
  simpa [handleItems] using hall

/-- A stream without a finish marker whose `[DONE]`s all come after failures
stops and ends in order, and fails. -/
theorem run_orderly (syntaxError : JsString → JsString) (options : ParserOptions)
    {chunks : List Bytes}
    (hmarker : ∀ item ∈ (framedStream syntaxError protocol options chunks).items,
      item.marksFinish protocol = false)
    (hdone : DoneAfterFailure protocol false
      (framedStream syntaxError protocol options chunks).items) :
    Orderly false (ProtocolParser.run syntaxError protocol options chunks).1 ∧
      (ProtocolParser.run syntaxError protocol options chunks).1.any isError = true := by
  rw [ProtocolParser.run_eq_handleItems]
  have hitems := tame_handleItems syntaxError options hmarker hdone
  have hinit : Settled {} := ⟨fun h => by simp at h, fun h => by simp at h⟩
  obtain ⟨hclosed, herrored⟩ := of_wp (wp_closeStream (hitems.settled hinit))
  have hall := tame.trans hitems hclosed
  refine ⟨hall.orderly hinit, ?_⟩
  rw [hall.mirrors.errored] at herrored
  exact herrored

theorem doneAfterError_of_orderly (h : Orderly failed events) : DoneAfterError failed events := by
  induction events generalizing failed with
  | nil => trivial
  | cons event events ih =>
      refine ⟨?_, ih h.2⟩
      rintro rfl
      exact h.1

/-- Without a failure no `[DONE]` is allowed. -/
theorem not_isDoneEvent_of_quiet (hends : endsUnconditionally protocol = true)
    (hdone : DoneAfterFailure protocol false items)
    (hquiet : ∀ item ∈ items, item.fails protocol = false) :
    ∀ item ∈ items, item.isDoneEvent = false := by
  induction items with
  | nil => simp
  | cons item items ih =>
      obtain ⟨hfails, hrest⟩ := List.forall_mem_cons.mp hquiet
      have hitem : item.isDoneEvent = false := by
        by_contra h
        exact Bool.false_ne_true (hdone.1 hends (by simpa using h))
      have htail := hdone.2
      rw [hfails] at htail
      exact List.forall_mem_cons.mpr ⟨hitem, ih htail hrest⟩

/-- A `[DONE]` that no failure precedes: the events end before they fail. -/
theorem run_done_before_error (syntaxError : JsString → JsString) (options : ParserOptions)
    {chunks : List Bytes}
    (hmarker : ∀ item ∈ (framedStream syntaxError protocol options chunks).items,
      item.marksFinish protocol = false)
    (hdone : ¬DoneAfterFailure protocol false
      (framedStream syntaxError protocol options chunks).items) :
    ∃ before after, (∀ e ∈ before, isError e = false) ∧
      (ProtocolParser.run syntaxError protocol options chunks).1 = before ++ .done :: after := by
  have hends : endsUnconditionally protocol = true := by
    by_contra hasks
    exact hdone (doneAfterFailure_of_asks (by simpa using hasks) _ _)
  rw [ProtocolParser.run_eq_handleItems]
  generalize framedStream syntaxError protocol options chunks = stream at hmarker hdone
  rw [FramedStream.items, List.forall_mem_append] at hmarker
  rw [FramedStream.items, doneAfterFailure_append] at hdone
  dsimp only [handleItems]
  generalize (exec ProtocolParser.closeStream _).1 = closing
  by_cases harriving : DoneAfterFailure protocol false stream.arriving
  · have hquiet : ∀ item ∈ stream.arriving, item.fails protocol = false := by
      intro item hitem
      by_contra hfails
      have hany : (stream.arriving.any fun item => item.fails protocol) = true :=
        List.any_eq_true.mpr ⟨item, hitem, by simpa using hfails⟩
      exact hdone ⟨harriving, by rw [hany]; exact doneAfterFailure_true _⟩
    have hnone : (stream.arriving.any fun item => item.fails protocol) = false :=
      List.any_eq_false.mpr fun item hitem => by simp [hquiet item hitem]
    have hfinishing : ¬DoneAfterFailure protocol false stream.finishing := fun h =>
      hdone ⟨harriving, by rwa [hnone]⟩
    have hplain := plain_items syntaxError options hends hmarker.1 hquiet
      (not_isDoneEvent_of_quiet hends harriving hquiet) {}
    obtain ⟨before, after, hbefore, hevents⟩ := done_before_error syntaxError options
      (s := { (execAll (stream.arriving.map (onItem syntaxError protocol options)) {}).2 with
        finishing := true }) hends hmarker.2 hfinishing hplain.done
    rw [hevents]
    refine ⟨_ ++ before, after ++ closing,
      List.forall_mem_append.mpr ⟨by simpa using hplain.no_error, hbefore⟩, ?_⟩
    simp only [List.append_assoc, List.cons_append]
  · obtain ⟨before, after, hbefore, hevents⟩ :=
      done_before_error syntaxError options (s := {}) hends hmarker.1 harriving rfl
    rw [hevents]
    generalize (execAll (stream.finishing.map (onItem syntaxError protocol options)) _).1 = ending
    exact ⟨before, after ++ (ending ++ closing), hbefore, by simp⟩

/-- A stream without a finish marker is reported as failed, by the parser and
by every encoder it feeds, exactly if each `[DONE]` that ends an Anthropic or a
Gemini stream comes after a failure. -/
theorem truncation_reported_iff (syntaxError : JsString → JsString) (protocol : Protocol)
    (options : ParserOptions) (chunks : List Bytes)
    (hmarker : ∀ item ∈ (framedStream syntaxError protocol options chunks).items,
      item.marksFinish protocol = false) :
    let events := (ProtocolParser.run syntaxError protocol options chunks).1
    (events.any isError = true ∧
        (∀ reason raw, .stop reason raw ∈ events → reason = .error) ∧
        ∀ target encoding, ∀ frame ∈ encodeStream target encoding events,
          frame.isSuccess = false) ↔
      DoneAfterFailure protocol false
        (framedStream syntaxError protocol options chunks).items := by
  constructor
  · rintro ⟨-, -, hframes⟩
    by_contra hdone
    obtain ⟨before, after, hbefore, hevents⟩ :=
      run_done_before_error syntaxError options hmarker hdone
    let encoding : EncodingOptions := { now := .ofInt 0 }
    obtain ⟨frame, hframe, hsuccess⟩ := chat_isSuccess encoding
      (s := .init .openaiChat encoding) rfl rfl hbefore after
    have hnot := hframes .openaiChat encoding frame
    rw [hevents] at hnot
    rw [hnot (List.mem_append_left _ hframe)] at hsuccess
    exact Bool.false_ne_true hsuccess
  · intro hdone
    obtain ⟨horderly, herror⟩ := run_orderly syntaxError options hmarker hdone
    exact ⟨herror, fun _ _ => horderly.reason,
      fun target encoding => encodeStream_modest target encoding
        (doneAfterError_of_orderly horderly) herror⟩

/-- An Anthropic stream that breaks off in an error event. -/
theorem truncation_reported_of_broken_stream :
    let source := [ascii "data: \x7b\"type\":\"content_block_delta\",\"delta\":",
      ascii "\x7b\"type\":\"text_delta\",\"text\":\"Hi\"\x7d\x7d\n\nevent: error\ndata: \x7b"]
    let events := (ProtocolParser.run id .anthropicMessages {} source).1
    events.any isError = true ∧
        (∀ reason raw, .stop reason raw ∈ events → reason = .error) ∧
        ∀ target encoding, ∀ frame ∈ encodeStream target encoding events, frame.isSuccess = false :=
  (truncation_reported_iff id .anthropicMessages {} _ (by decide +kernel)).mpr (by decide +kernel)

/-- An Anthropic stream whose only end is `[DONE]`. -/
theorem done_event_hides_truncation :
    let source := [ascii "data: \x7b\"type\":\"content_block_delta\",\"delta\":",
      ascii "\x7b\"type\":\"text_delta\",\"text\":\"Hi\"\x7d\x7d\n\ndata: [DONE]\n\n"]
    let events := (ProtocolParser.run id .anthropicMessages {} source).1
    (∀ item ∈ (framedStream id .anthropicMessages {} source).items,
        item.marksFinish .anthropicMessages = false) ∧
      Frame.doneMarker ∈ encodeStream .openaiChat { now := .ofInt 0 } events ∧
      ¬(events.any isError = true ∧
        (∀ reason raw, .stop reason raw ∈ events → reason = .error) ∧
        ∀ target encoding, ∀ frame ∈ encodeStream target encoding events,
          frame.isSuccess = false) := by
  intro source events
  have hevents : events.any isError = false := by decide +kernel
  refine ⟨by decide +kernel, by decide +kernel, ?_⟩
  rintro ⟨herror, -, -⟩
  exact Bool.false_ne_true (hevents.symm.trans herror)

end StonePlus.Streaming
