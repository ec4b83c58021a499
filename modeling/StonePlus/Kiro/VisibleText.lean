import StonePlus.Kiro.FrameEncoding
import StonePlus.Kiro.ToolSafety

/-!
# StonePlus.Kiro.VisibleText

The text a Kiro stream shows is its last snapshot without the `<thinking>` sections,
however the snapshots cut it.

`visible` removes the sections of a whole string in one pass.  `Shows` says that the text
emitted so far and what the filter holds back make up the visible text of the snapshot and
of whatever may follow it, and every frame keeps it.
-/

namespace StonePlus.Kiro

open Lib Lib.Effect

/-! ## The visible text -/

/-- Text shows outside of the sections. -/
def shown (inside : Bool) (text : JsString) : JsString := if inside then [] else text

@[simp] theorem shown_append (inside : Bool) (text more : JsString) :
    shown inside (text ++ more) = shown inside text ++ shown inside more := by
  cases inside <;> simp [shown]

/-- The text outside of the sections, from a place inside or outside of one.  Tags are matched
leftmost first, and a section that is not closed runs to the end. -/
def visible (inside : Bool) (text : JsString) : JsString :=
  match _h : indexOf? (tag inside) text with
  | some i => shown inside (text.take i) ++ visible (!inside) (text.drop (i + (tag inside).length))
  | none => shown inside text
termination_by text.length
decreasing_by
  have hfits := (indexOf?_eq_some.mp _h).1.fits (length_tag_pos inside)
  have := length_tag_pos inside
  rw [List.length_drop]
  omega

/-- A string without its `<thinking>` sections. -/
def withoutThinking (text : JsString) : JsString := visible false text

theorem visible_some (h : indexOf? (tag inside) text = some i) :
    visible inside text = shown inside (text.take i) ++
      visible (!inside) (text.drop (i + (tag inside).length)) := by
  rw [visible]
  split <;> simp_all

theorem visible_none (h : indexOf? (tag inside) text = none) :
    visible inside text = shown inside text := by
  rw [visible]
  split <;> simp_all

theorem visible_of_short (h : text.length < (tag inside).length) :
    visible inside text = shown inside text := by
  refine visible_none (indexOf?_eq_none.mpr fun j hj => ?_)
  have := hj.fits (length_tag_pos inside)
  omega

/-- A front in which the tag does not begin is shown as it is, or not at all. -/
theorem visible_append (h : ∀ j < front.length, ¬Occurs (tag inside) (front ++ text) j) :
    visible inside (front ++ text) = shown inside front ++ visible inside text := by
  have hindex := indexOf?_append_left h
  cases htext : indexOf? (tag inside) text with
  | none =>
      rw [htext, Option.map_none] at hindex
      rw [visible_none hindex, visible_none htext, shown_append]
  | some i =>
      rw [htext, Option.map_some] at hindex
      rw [visible_some hindex, visible_some htext, Nat.add_assoc, List.drop_length_add_append,
        List.take_length_add_append, shown_append, List.append_assoc]

/-! ## The filter -/

namespace ThinkingTagFilter

/-- What the filter holds back is too short for a tag. -/
def Held (f : ThinkingTagFilter) : Prop := f.pending.length < (tag f.inside).length

theorem longestMarkerPrefixSuffix_eq (value : JsString) (inside : Bool) :
    longestMarkerPrefixSuffix value (tag inside) =
      longestSuffix (fun s => [tag inside].any fun m => s.isPrefixOf m) value
        (min value.length ((tag inside).length - 1)) := by
  have hp : (fun s : JsString => decide (s = (tag inside).take s.length)) =
      fun s => [tag inside].any fun m => s.isPrefixOf m := by
    funext s
    rw [Bool.eq_iff_iff]
    simp [← List.prefix_iff_eq_take]
  rw [longestMarkerPrefixSuffix, hp]

theorem longestMarkerPrefixSuffix_lt (value : JsString) (inside : Bool) :
    longestMarkerPrefixSuffix value (tag inside) < (tag inside).length := by
  have hle := longestSuffix_le (fun s => decide (s = (tag inside).take s.length)) value
    (min value.length ((tag inside).length - 1))
  have := length_tag_pos inside
  unfold longestMarkerPrefixSuffix
  omega

/-- Where no tag stands, no tag begins before what is held back, whatever follows. -/
theorem clear_ready {inside : Bool} (h : indexOf? (tag inside) input = none) : Clear [tag inside]
      (input.take (input.length - longestMarkerPrefixSuffix input (tag inside)))
      (input.drop (input.length - longestMarkerPrefixSuffix input (tag inside))) := by
  have habsent : Absent [tag inside] input := by
    intro m hm j
    rw [List.mem_singleton.mp hm]
    exact indexOf?_eq_none.mp h j
  have hlimit : ∀ m ∈ [tag inside], m.length ≤ (tag inside).length - 1 + 1 := by
    intro m hm
    rw [List.mem_singleton.mp hm]
    omega
  exact (clear_nil [tag inside] input).give habsent hlimit
    (by rw [longestMarkerPrefixSuffix_eq])

theorem consume_some {inside : Bool} (h : indexOf? (tag inside) input = some i) :
    (consume inside input).1.text = shown inside (input.take i) ++
        (consume (!inside) (input.drop (i + (tag inside).length))).1.text ∧
      (consume inside input).2 = (consume (!inside) (input.drop (i + (tag inside).length))).2 := by
  have hinput : input ≠ [] := by
    intro hnil
    have hfits := (indexOf?_eq_some.mp h).1.fits (length_tag_pos inside)
    have hpos := length_tag_pos inside
    rw [hnil, List.length_nil] at hfits
    omega
  rw [consume, dif_neg hinput, h]
  cases inside <;> simp [shown]

theorem consume_none {inside : Bool} (h : indexOf? (tag inside) input = none) :
    (consume inside input).1.text = shown inside
        (input.take (input.length - longestMarkerPrefixSuffix input (tag inside))) ∧
      (consume inside input).2 = ⟨inside,
        input.drop (input.length - longestMarkerPrefixSuffix input (tag inside))⟩ := by
  rw [consume]
  split
  · rename_i hinput
    subst hinput
    cases inside <;> simp [shown]
  · rw [h]
    cases inside <;> simp [shown]

theorem held_consume (inside : Bool) (input : JsString) : (consume inside input).2.Held := by
  induction inside, input using visible.induct with
  | case1 inside input i h ih =>
      rw [(consume_some h).2]
      exact ih
  | case2 inside input h =>
      have hlt := longestMarkerPrefixSuffix_lt input inside
      rw [(consume_none h).2, Held, List.length_drop]
      dsimp only
      omega

/-- What is shown and what is held back make up the visible text, whatever follows. -/
theorem visible_consume (inside : Bool) (input more : JsString) :
    visible inside (input ++ more) = (consume inside input).1.text ++
      visible (consume inside input).2.inside ((consume inside input).2.pending ++ more) := by
  induction inside, input using visible.induct with
  | case1 inside input i h ih =>
      have hfits := (indexOf?_eq_some.mp h).1.fits (length_tag_pos inside)
      have hmore := indexOf?_append h (length_tag_pos inside) more
      obtain ⟨htext, hfilter⟩ := consume_some h
      rw [visible_some hmore, htext, hfilter, List.append_assoc, ← ih,
        List.take_append_of_le_length (by omega), List.drop_append_of_le_length hfits]
  | case2 inside input h =>
      have hclear := clear_ready h
      obtain ⟨htext, hfilter⟩ := consume_none h
      rw [htext, hfilter]
      conv_lhs => rw [← List.take_append_drop
        (input.length - longestMarkerPrefixSuffix input (tag inside)) input, List.append_assoc]
      exact visible_append fun j hj => hclear more _ List.mem_cons_self j hj

end ThinkingTagFilter

/-! ## The other handlers -/

/-- The text an event shows. -/
def eventText : CanonicalStreamEvent → JsString
  | .textDelta text _ _ => text
  | _ => []

/-- The text that some events show. -/
def textOf (events : List CanonicalStreamEvent) : JsString := events.flatMap eventText

@[simp] theorem textOf_append (events more : List CanonicalStreamEvent) :
    textOf (events ++ more) = textOf events ++ textOf more := List.flatMap_append

theorem textOf_eq_nil {events : List CanonicalStreamEvent}
    (h : ∀ e ∈ events, eventText e = []) : textOf events = [] := List.flatMap_eq_nil_iff.mpr h

theorem textOf_failureEvents (failure : KiroStreamFailure) : textOf (failureEvents failure) = [] :=
  rfl

/-- A handler that shows no text and leaves what it is made from alone. -/
def Silent {α : Type} (m : Handler α) : Prop :=
  Keeps (fun s => (s.lastAssistantContent, s.thinkingTagFilter)) (fun e => eventText e = []) m

theorem silent_diagnose (f : KiroEventStreamDiagnostics → KiroEventStreamDiagnostics) :
    Silent (diagnose f) := Keeps.modify fun _ => rfl

theorem silent_recognize (field : Option EventCounter) : Silent (recognize field) :=
  silent_diagnose _

theorem silent_handleReasoning (cfg : KiroConfig) (payload : Json) :
    Silent (handleReasoning cfg payload) := by
  unfold handleReasoning
  dsimp only
  split
  · exact .whenever (.emit rfl)
  · exact .bind .get fun s => .bind (.lift _) fun delta => .bind (.modify fun _ => rfl) fun _ =>
      .bind (.ensure _ _) fun _ => .whenever (.emit rfl)

theorem silent_handleUsage (metadata : Bool) (payload : Json) :
    Silent (handleUsage metadata payload) := by
  unfold handleUsage
  split
  all_goals exact .bind (.lift _) fun event => .whenever (.emit rfl)

theorem silent_handleInvalidState (payload : Json) : Silent (handleInvalidState payload) :=
  .bind (silent_diagnose _) fun _ => .throw _

theorem silent_handleMessageMetadata (payload : Json) : Silent (handleMessageMetadata payload) :=
  silent_diagnose _

theorem silent_saveTool (state : ToolState) : Silent (saveTool state) := Keeps.modify fun _ => rfl

theorem silent_appendToolInput (cfg : KiroConfig) (state : ToolState) (input : Json) :
    Silent (appendToolInput cfg state input) :=
  .bind (.lift _) fun (_, _) => .bind (silent_saveTool _) fun _ => .bind (.modify fun _ => rfl) fun _ =>
    .bind .get fun _ => .bind (.ensure _ _) fun _ => .bind (.ensure _ _) fun _ =>
      .bind (silent_saveTool _) fun _ => .pure _

/-- The calls that are ready show no text. -/
theorem readyTools_silent (s : KiroState) :
    (readyTools s).2.lastAssistantContent = s.lastAssistantContent ∧
      (readyTools s).2.thinkingTagFilter = s.thinkingTagFilter ∧
      ∀ e ∈ (readyTools s).1, eventText e = [] := by
  induction s using readyTools.induct with
  | case1 s hnone => simp [readyTools_none hnone]
  | case2 s tool hsome ih =>
      rw [readyTools_some hsome]
      obtain ⟨hcontent, hfilter, hout⟩ := ih
      refine ⟨hcontent, hfilter, fun e he => ?_⟩
      simp only [callEvents, List.cons_append, List.nil_append, List.mem_cons] at he
      rcases he with rfl | rfl | he
      · rfl
      · rfl
      · exact hout e he

theorem silent_emitReadyTools : Silent emitReadyTools := by
  intro s
  obtain ⟨hcontent, hfilter, hout⟩ := readyTools_silent s
  exact ⟨Prod.ext hcontent hfilter, hout⟩

theorem silent_commitCompletedTool (cfg : KiroConfig) (state : ToolState)
    (completed : CompletedToolState) (recovered : Bool) :
    Silent (commitCompletedTool cfg state completed recovered) :=
  .bind .get fun _ => .bind (.ensure _ _) fun _ => .bind (.ensure _ _) fun _ =>
    .bind (.modify fun _ => rfl) fun _ => .bind (silent_diagnose _) fun _ =>
      .bind (.whenever (silent_diagnose _)) fun _ => silent_emitReadyTools

theorem silent_completeTool (cfg : KiroConfig) (state : ToolState) (recovered : Bool) :
    Silent (completeTool cfg state recovered) :=
  .bind (.lift _) fun _ => silent_commitCompletedTool cfg state _ recovered

theorem silent_openTool (cfg : KiroConfig) (id : JsString) : Silent (openTool cfg id) := by
  refine .bind .get fun s => ?_
  split
  · exact .pure _
  · exact .bind (.ensure _ _) fun _ => .bind (.ensure _ _) fun _ => .bind (.modify fun _ => rfl)
      fun _ => .bind (silent_saveTool _) fun _ => .pure _

theorem silent_nameTool (state : ToolState) (field : Option Json) :
    Silent (nameTool state field) := by
  unfold nameTool
  split
  · exact .pure _
  · exact .bind (.lift _) fun _ => .bind (.ensure _ _) fun _ => .bind (silent_saveTool _) fun _ =>
      .pure _

theorem silent_handleToolUse (cfg : KiroConfig) (payload : Json) :
    Silent (handleToolUse cfg payload) := by
  refine .bind (.lift _) fun id => .bind .get fun s => .bind (.ensure _ _) fun _ =>
    .bind (silent_openTool cfg id) fun state => .bind (silent_nameTool state _) fun state => ?_
  have hstop (state : ToolState) : Silent (do
      let stop ← stopField (payload.get? (js "stop"))
      whenever (stop = true) (completeTool cfg state false) : Handler Unit) :=
    .bind (.lift _) fun stop => .whenever (silent_completeTool cfg state false)
  dsimp only
  split
  · exact .bind (.pure _) hstop
  · exact .bind (silent_appendToolInput cfg state _) hstop

theorem silent_commitAll (cfg : KiroConfig) (prepared : List (ToolState × CompletedToolState)) :
    Silent (commitAll cfg prepared) := by
  induction prepared with
  | nil => exact .pure _
  | cons p rest ih => exact .bind (silent_commitCompletedTool cfg _ _ true) fun _ => ih

theorem silent_recoverOrRejectUnfinishedTools (cfg : KiroConfig) :
    Silent (recoverOrRejectUnfinishedTools cfg) :=
  .bind .get fun _ => .bind (.lift _) fun prepared => silent_commitAll cfg prepared

/-- Of the known events only `assistantResponseEvent` shows text. -/
theorem silent_handleEvent (cfg : KiroConfig) {eventType : KiroEventType}
    (h : eventType ≠ .assistantResponse) (payload : Json) :
    Silent (handleEvent cfg eventType payload) := by
  cases eventType with
  | assistantResponse => exact absurd rfl h
  | reasoningContent => exact .bind (silent_recognize _) fun _ => silent_handleReasoning cfg payload
  | toolUse => exact .bind (silent_recognize _) fun _ => silent_handleToolUse cfg payload
  | metadata => exact .bind (silent_recognize _) fun _ => silent_handleUsage true payload
  | metering => exact .bind (silent_recognize _) fun _ => silent_handleUsage false payload
  | invalidState => exact .bind (silent_recognize _) fun _ => silent_handleInvalidState payload
  | messageMetadata => exact .bind (silent_recognize _) fun _ => silent_handleMessageMetadata payload

/-! ## Snapshots -/

/-- The snapshot a frame carries, if it is an `assistantResponseEvent`. -/
def assistantContent? (frame : ParsedFrame) : Option JsString := do
  let type ← (messageType frame).toOption
  let eventType ← (requiredStringHeader frame.headers ":event-type").toOption
  guard (type = js "event" ∧ eventType = js "assistantResponseEvent")
  let payload ← (parseJsonObject frame.payload eventType).toOption
  (requiredStringAllowEmpty (payload.get? (js "content")) "assistantResponseEvent.content").toOption

/-- The snapshots among some frames. -/
def snapshots (frames : List ParsedFrame) : List JsString := frames.filterMap assistantContent?

/-- The last snapshot among some frames. -/
def lastSnapshot (frames : List ParsedFrame) : JsString := (snapshots frames).getLast?.getD []

theorem kiroEventType?_assistantResponse {eventType : JsString} :
    kiroEventType? eventType = some .assistantResponse ↔
      eventType = js "assistantResponseEvent" := by
  constructor
  · intro h
    obtain ⟨entry, hfind, hsnd⟩ := Option.map_eq_some_iff.mp h
    have hmem := List.mem_of_find?_eq_some hfind
    have heq : js entry.1 = eventType := by simpa using List.find?_some hfind
    rw [← heq]
    simp only [kiroJsonEventTypes, List.mem_cons, List.not_mem_nil, or_false] at hmem
    rcases hmem with rfl | rfl | rfl | rfl | rfl | rfl | rfl
    case inl => rfl
    all_goals cases hsnd
  · rintro rfl
    rfl

theorem assistantContent?_of_ne
    (h : requiredStringHeader frame.headers ":event-type" = .ok eventType)
    (hne : eventType ≠ js "assistantResponseEvent") : assistantContent? frame = none := by
  unfold assistantContent?
  rw [h]
  cases messageType frame with
  | error e => rfl
  | ok type => simp [Except.toOption, hne]

theorem assistantContent?_of_payload (htype : messageType frame = .ok (js "event"))
    (hevent : requiredStringHeader frame.headers ":event-type" = .ok (js "assistantResponseEvent"))
    (hpayload : parseJsonObject frame.payload (js "assistantResponseEvent") = .ok payload)
    (hcontent : requiredStringAllowEmpty (payload.get? (js "content"))
      "assistantResponseEvent.content" = .ok content) : assistantContent? frame = some content := by
  unfold assistantContent?
  rw [htype, hevent]
  simp [Except.toOption, hpayload, hcontent]

/-! ## One frame -/

variable {cfg : KiroConfig} {snapshot : JsString} {events : List CanonicalStreamEvent}
  {s s' : KiroState}

/-- The events have shown the visible text of a snapshot, up to what the filter holds back. -/
structure Shows (snapshot : JsString) (events : List CanonicalStreamEvent) (s : KiroState) :
    Prop where
  content : s.lastAssistantContent = snapshot
  held : s.thinkingTagFilter.Held
  text : ∀ more, withoutThinking (snapshot ++ more) =
    textOf events ++ visible s.thinkingTagFilter.inside (s.thinkingTagFilter.pending ++ more)

theorem Shows.init : Shows [] [] {} := ⟨rfl, length_tag_pos false, fun _ => rfl⟩

theorem Shows.of_diagnostics (h : Shows snapshot events s) (d : KiroEventStreamDiagnostics) :
    Shows snapshot events { s with diagnostics := d } := ⟨h.content, h.held, h.text⟩

/-- Whatever follows the snapshot, what was shown is where its visible text begins. -/
theorem Shows.isPrefix (h : Shows snapshot events s) (more : JsString) :
    textOf events <+: withoutThinking (snapshot ++ more) :=
  h.text more ▸ List.prefix_append _ _

theorem Shows.finish (h : Shows snapshot events s) :
    withoutThinking snapshot = textOf events ++ s.thinkingTagFilter.finish.1.text := by
  have htext := h.text []
  rw [List.append_nil, List.append_nil, visible_of_short h.held] at htext
  rw [htext, ThinkingTagFilter.finish]
  cases s.thinkingTagFilter.inside <;> simp [shown]

theorem Shows.of_silent {α : Type} {m : Handler α} (h : Shows snapshot events s) (hm : Silent m) :
    wp m s (fun _ s' out => Shows snapshot (events ++ out) s') fun _ _ out => textOf out = [] := by
  refine wp_mono (hm.wp s) ?_ fun e s' out hout => textOf_eq_nil hout.2
  rintro a s' out ⟨hview, hout⟩
  have hcontent : s'.lastAssistantContent = s.lastAssistantContent := congrArg Prod.fst hview
  have hfilter : s'.thinkingTagFilter = s.thinkingTagFilter := congrArg Prod.snd hview
  refine ⟨hcontent.trans h.content, hfilter ▸ h.held, fun more => ?_⟩
  rw [textOf_append, textOf_eq_nil hout, List.append_nil, hfilter]
  exact h.text more

theorem cumulativeDelta_eq_ok (h : cumulativeDelta next previous label = .ok delta) :
    next = previous ++ delta := by
  unfold cumulativeDelta at h
  split at h
  · rename_i hprevious
    cases h
    rw [hprevious, List.nil_append]
  · split at h
    · rename_i hnext
      cases h
      rw [hnext, List.append_nil]
    · split at h
      · rename_i hstart
        cases h
        exact List.prefix_append_drop hstart
      · cases h

theorem textOf_emitFiltered (filtered : Filtered) (s : KiroState) :
    wp (emitFiltered filtered) s (fun _ s' out => s' = s ∧ textOf out = filtered.text)
      fun _ _ _ => False := by
  simp only [emitFiltered, wp_bind, wp_whenever, wp_emit]
  by_cases hreasoning : filtered.reasoningAdvanced = true <;>
    by_cases htext : filtered.text = [] <;> simp [hreasoning, htext, textOf, eventText]

theorem Shows.push (h : Shows snapshot events s)
    (hcontent : s'.lastAssistantContent = snapshot ++ delta)
    (hfilter : s'.thinkingTagFilter = (s.thinkingTagFilter.push delta).2)
    (hout : textOf out = (s.thinkingTagFilter.push delta).1.text) :
    Shows (snapshot ++ delta) (events ++ out) s' := by
  refine ⟨hcontent, hfilter ▸ ThinkingTagFilter.held_consume _ _, fun more => ?_⟩
  rw [textOf_append, hout, hfilter, List.append_assoc, List.append_assoc, h.text,
    ← List.append_assoc s.thinkingTagFilter.pending, ThinkingTagFilter.visible_consume]
  rfl

/-- A snapshot that passes extends the last one, and its new text goes through the filter. -/
theorem wp_handleAssistantResponse (h : Shows snapshot events s) (payload : Json) :
    wp (handleAssistantResponse cfg payload) s
      (fun _ s' out => ∃ content, requiredStringAllowEmpty (payload.get? (js "content"))
        "assistantResponseEvent.content" = .ok content ∧ snapshot <+: content ∧
          Shows content (events ++ out) s')
      fun _ _ out => textOf out = [] := by
  simp only [handleAssistantResponse, wp_bind, wp_lift, wp_get, wp_modify, wp_ensure, wp_whenever,
    List.nil_append]
  cases hcontent : requiredStringAllowEmpty (payload.get? (js "content"))
      "assistantResponseEvent.content" with
  | error e => simp only [textOf, List.flatMap_nil]
  | ok content =>
      dsimp only
      cases hdelta : cumulativeDelta content s.lastAssistantContent "assistant response" with
      | error e => simp only [textOf, List.flatMap_nil]
      | ok delta =>
          have heq := cumulativeDelta_eq_ok hdelta
          rw [h.content] at heq
          subst heq
          dsimp only
          split
          · split
            · refine wp_mono (textOf_emitFiltered _ _) ?_ fun _ _ _ hfalse => hfalse.elim
              rintro _ s' out ⟨hs', hout⟩
              subst hs'
              exact ⟨_, rfl, List.prefix_append _ _, h.push rfl rfl hout⟩
            · rename_i hnil
              rw [not_not] at hnil
              subst hnil
              rw [List.append_nil, List.append_nil]
              exact ⟨_, rfl, List.prefix_rfl, rfl, h.held, h.text⟩
          · rfl

/-- One frame: a snapshot it carries extends the last one, and is shown. -/
theorem wp_handleFrame_text (h : Shows snapshot events s) (frame : ParsedFrame) :
    wp (handleFrame cfg frame) s
      (fun _ s' out => (∀ content ∈ assistantContent? frame, snapshot <+: content) ∧
        Shows ((assistantContent? frame).getD snapshot) (events ++ out) s')
      fun _ _ out => textOf out = [] := by
  have hkeep {m : Handler Unit} (hm : Silent m) (hnone : assistantContent? frame = none) :
      wp m s (fun _ s' out => (∀ content ∈ assistantContent? frame, snapshot <+: content) ∧
        Shows ((assistantContent? frame).getD snapshot) (events ++ out) s')
        fun _ _ out => textOf out = [] := by
    refine wp_mono (h.of_silent hm) ?_ fun _ _ _ hout => hout
    intro _ s' out hshows
    simpa [hnone] using hshows
  refine wp_handleFrame_of (fun _ => rfl) ?_ ?_
  · intro eventType heventType hnone
    have hne : eventType ≠ js "assistantResponseEvent" := by
      intro heq
      rw [kiroEventType?_assistantResponse.mpr heq] at hnone
      cases hnone
    have hcontent := assistantContent?_of_ne heventType hne
    exact ⟨hkeep (silent_recognize none) hcontent, hkeep (.pure ()) hcontent⟩
  · intro eventType known payload htype heventType hknown hpayload
    by_cases hassistant : known = .assistantResponse
    · subst hassistant
      obtain rfl := kiroEventType?_assistantResponse.mp hknown
      simp only [handleEvent, recognize, diagnose, wp_bind, wp_modify, List.nil_append]
      refine wp_mono (wp_handleAssistantResponse (h.of_diagnostics _) payload) ?_
        fun _ _ _ hout => hout
      rintro _ s' out ⟨content, hcontent, hstart, hshows'⟩
      rw [assistantContent?_of_payload htype heventType hpayload hcontent]
      exact ⟨fun c hc => Option.some.inj hc ▸ hstart, hshows'⟩
    · have hne : eventType ≠ js "assistantResponseEvent" := by
        intro heq
        rw [kiroEventType?_assistantResponse.mpr heq] at hknown
        exact hassistant (Option.some.inj hknown).symm
      exact hkeep (silent_handleEvent cfg hassistant payload)
        (assistantContent?_of_ne heventType hne)

/-! ## A whole stream -/

namespace KiroEventStreamParser

/-- The invariant between two frames: the snapshots extend each other, and the last is shown. -/
structure Showing (done : List ParsedFrame) (events : List CanonicalStreamEvent)
    (s : KiroState) : Prop where
  appendOnly : (snapshots done).Pairwise (· <+: ·)
  below : ∀ content ∈ snapshots done, content <+: lastSnapshot done
  shows : Shows (lastSnapshot done) events s

/-- The output of a stream that failed: it has shown no more than its snapshots allow. -/
structure Stopped (done : List ParsedFrame) (events : List CanonicalStreamEvent)
    (_ : KiroState) : Prop where
  errored : ∃ e ∈ events, isError e = true
  text : ∀ more, textOf events <+: withoutThinking (lastSnapshot done ++ more)

theorem Showing.init : Showing [] [] {} := ⟨List.Pairwise.nil, nofun, .init⟩

theorem snapshots_concat (done : List ParsedFrame) (frame : ParsedFrame) :
    snapshots (done ++ [frame]) = snapshots done ++ (assistantContent? frame).toList := by
  simp only [snapshots, List.filterMap_append, List.filterMap_cons, List.filterMap_nil]
  cases assistantContent? frame <;> rfl

theorem lastSnapshot_concat (done : List ParsedFrame) (frame : ParsedFrame) :
    lastSnapshot (done ++ [frame]) = (assistantContent? frame).getD (lastSnapshot done) := by
  rw [lastSnapshot, snapshots_concat]
  cases assistantContent? frame <;> simp [lastSnapshot]

theorem Showing.stopped (h : Showing done events s) (hmore : textOf more = [])
    (herror : ∃ e ∈ more, isError e = true) : Stopped done (events ++ more) s' := by
  obtain ⟨e, he, hise⟩ := herror
  refine ⟨⟨e, List.mem_append_right _ he, hise⟩, fun rest => ?_⟩
  rw [textOf_append, hmore, List.append_nil]
  exact h.shows.isPrefix rest

theorem isError_failureEvents (failure : KiroStreamFailure) :
    ∃ e ∈ failureEvents failure, isError e = true := ⟨_, List.mem_cons_self, rfl⟩

/-- One frame keeps the invariant or fails the stream. -/
theorem accept_showing {done : List ParsedFrame} (h : Showing done events s)
    (frame : ParsedFrame) :
    if ((kiroConsumer cfg).accept s frame).continues then
      Showing (done ++ [frame]) (events ++ ((kiroConsumer cfg).accept s frame).output)
        ((kiroConsumer cfg).accept s frame).state
    else
      Stopped done (events ++ ((kiroConsumer cfg).accept s frame).output)
        ((kiroConsumer cfg).accept s frame).state := by
  have hsaw : Shows (lastSnapshot done) events { s with sawFrame := true } :=
    ⟨h.shows.content, h.shows.held, h.shows.text⟩
  have hspec := @wp_handleFrame_text cfg _ _ _ hsaw frame
  unfold wp at hspec
  split at hspec
  · next _ s' out heq =>
      have haccept : (kiroConsumer cfg).accept s frame = ⟨s', out, true⟩ := by
        simp only [kiroConsumer, heq]
      obtain ⟨hstart, hshows⟩ := hspec
      rw [haccept, if_pos rfl]
      refine ⟨?_, ?_, ?_⟩
      · rw [snapshots_concat, List.pairwise_append]
        refine ⟨h.appendOnly, ?_, ?_⟩
        · cases assistantContent? frame <;> simp
        · intro c hc content hcontent
          exact (h.below c hc).trans (hstart content (by simpa using hcontent))
      · intro c hc
        rw [snapshots_concat, List.mem_append] at hc
        rw [lastSnapshot_concat]
        cases hframe : assistantContent? frame with
        | none => exact h.below c (by simpa [hframe] using hc)
        | some content =>
            rcases hc with hc | hc
            · exact (h.below c hc).trans (hstart content hframe)
            · simp [hframe] at hc
              simp [hc]
      · rw [lastSnapshot_concat]
        exact hshows
  · next e s' out heq =>
      have haccept : (kiroConsumer cfg).accept s frame =
          ⟨s', out ++ failureEvents (asKiroFailure e), false⟩ := by
        simp only [kiroConsumer, heq]
      rw [haccept, if_neg Bool.false_ne_true]
      obtain ⟨event, hevent, hise⟩ := isError_failureEvents (asKiroFailure e)
      refine h.stopped ?_ ⟨event, List.mem_append_right _ hevent, hise⟩
      rw [textOf_append, hspec, textOf_failureEvents, List.append_nil]

/-- A malformed front fails the stream. -/
theorem reject_showing {done : List ParsedFrame} (h : Showing done events s) (e : Thrown) :
    Stopped done (events ++ ((kiroConsumer cfg).reject s e).2)
      ((kiroConsumer cfg).reject s e).1 :=
  h.stopped (textOf_failureEvents _) (isError_failureEvents _)

/-- What a complete stream shows at its end. -/
theorem wp_completeStream_text (h : Shows snapshot events s) :
    wp (completeStream cfg) s
      (fun _ _ out => textOf (events ++ out) = withoutThinking snapshot)
      fun _ _ _ => True := by
  rw [completeStream, wp_bind]
  refine wp_mono (h.of_silent (silent_recoverOrRejectUnfinishedTools cfg)) ?_ fun _ _ _ _ => trivial
  intro _ s₁ out₁ h₁
  rw [wp_bind]
  refine wp_mono (h₁.of_silent silent_emitReadyTools) ?_ fun _ _ _ _ => trivial
  intro _ s₂ out₂ h₂
  simp only [wp_bind, wp_get, wp_modify, List.nil_append]
  refine wp_mono (textOf_emitFiltered _ _) ?_ fun _ _ _ hfalse => hfalse.elim
  rintro _ s₃ out₃ ⟨_, hout₃⟩
  have hfinish := h₂.finish
  simp only [wp_emit, textOf_append, hfinish, hout₃, List.append_assoc]
  simp [textOf, eventText]

/-- A stream whose frames were all handled fails, or has shown the text of its snapshots. -/
theorem finishDrained_text {p : KiroEventStreamParser} (hfailed : p.failed = false)
    (h : Shows snapshot events p.state) :
    (∃ e ∈ (p.finishDrained cfg).1, isError e = true) ∨
      textOf (events ++ (p.finishDrained cfg).1) = withoutThinking snapshot := by
  have hspec := @wp_completeStream_text cfg _ _ _ h
  unfold wp at hspec
  unfold finishDrained
  cases p.endFailure? with
  | some failure =>
      dsimp only
      rw [emitFailure_of_running hfailed]
      exact .inl (isError_failureEvents failure)
  | none =>
      dsimp only
      split at hspec
      · next heq =>
          rw [heq]
          exact .inr hspec
      · next e s' out heq =>
          rw [heq]
          dsimp only
          rw [emitFailure_of_running (by exact hfailed)]
          obtain ⟨e, he, hise⟩ := isError_failureEvents (asKiroFailure e)
          exact .inl ⟨e, List.mem_append_right _ he, hise⟩

/-- What was pushed: all frames were handled, or the stream failed after some of them. -/
theorem pushAll_showing (cfg : KiroConfig) (chunks : List Bytes) :
    if (KiroEventStreamParser.pushAll cfg {} chunks).2.failed then
      ∃ read, read <+: (kiroFraming cfg.maxFrameBytes).frames chunks.flatten ∧
        Stopped read (KiroEventStreamParser.pushAll cfg {} chunks).1
          (KiroEventStreamParser.pushAll cfg {} chunks).2.state
    else Showing ((kiroFraming cfg.maxFrameBytes).frames chunks.flatten)
      (KiroEventStreamParser.pushAll cfg {} chunks).1
      (KiroEventStreamParser.pushAll cfg {} chunks).2.state :=
  pushAll_spec Showing Stopped (fun _ _ _ frame h => accept_showing h frame)
    (fun _ _ _ e h => reject_showing h e) .init chunks

/-! ## Main result -/

/-- However the stream is chunked and its snapshots are cut: at any time the text shown is
where the visible text of the last snapshot begins, whatever may follow, and at the end of a
stream without an error it is that visible text. -/
theorem run_shows_withoutThinking (cfg : KiroConfig) (chunks : List Bytes) :
    (∃ read, read <+: (kiroFraming cfg.maxFrameBytes).frames chunks.flatten ∧
      ((∀ e ∈ (KiroEventStreamParser.pushAll cfg {} chunks).1, isError e = false) →
        read = (kiroFraming cfg.maxFrameBytes).frames chunks.flatten) ∧
      ∀ more, textOf (KiroEventStreamParser.pushAll cfg {} chunks).1 <+:
        withoutThinking (lastSnapshot read ++ more)) ∧
    ((∀ e ∈ (run cfg chunks).1, isError e = false) →
      (snapshots ((kiroFraming cfg.maxFrameBytes).frames chunks.flatten)).Pairwise (· <+: ·) ∧
        textOf (run cfg chunks).1 =
          withoutThinking (lastSnapshot ((kiroFraming cfg.maxFrameBytes).frames chunks.flatten))) := by
  have hpushed := pushAll_showing cfg chunks
  obtain ⟨hdone, hsettled⟩ := settled_pushAll cfg chunks
  cases hfailed : (KiroEventStreamParser.pushAll cfg {} chunks).2.failed with
  | true =>
      rw [hfailed, if_pos rfl] at hpushed
      obtain ⟨read, hread, ⟨e, he, hise⟩, htext⟩ := hpushed
      have herror : ¬∀ e ∈ (KiroEventStreamParser.pushAll cfg {} chunks).1, isError e = false :=
        fun hall => by simp [hall e he] at hise
      refine ⟨⟨read, hread, fun hall => absurd hall herror, htext⟩, fun hall => ?_⟩
      exact absurd (fun e he => hall e (List.mem_append_left _ he)) herror
  | false =>
      rw [hfailed, if_neg Bool.false_ne_true] at hpushed
      refine ⟨⟨_, List.prefix_rfl, fun _ => rfl, hpushed.shows.isPrefix⟩, fun hall => ?_⟩
      refine ⟨hpushed.appendOnly, ?_⟩
      obtain ⟨q, hq, hfinish⟩ := finish_drained hdone hfailed hsettled
      have hstate : q.state = (KiroEventStreamParser.pushAll cfg {} chunks).2.state :=
        congrArg Intake.state hq
      have hqfailed : q.failed = false := (congrArg Intake.closed hq).trans hfailed
      have hshows := hpushed.shows
      rw [← hstate] at hshows
      rw [run] at hall ⊢
      simp only [hfinish] at hall ⊢
      rcases @finishDrained_text cfg _ _ q hqfailed hshows with ⟨e, he, hise⟩ | htext
      · simp [hall e (List.mem_append_right _ he)] at hise
      · exact htext

/-- The headers of an `assistantResponseEvent`. -/
def snapshotHeaders : List WireHeader :=
  [⟨":message-type".toList, .string "event".toList (by decide), by decide, by decide⟩,
    ⟨":content-type".toList, .string "application/json".toList (by decide), by decide, by decide⟩,
    ⟨":event-type".toList, .string "assistantResponseEvent".toList (by decide), by decide,
      by decide⟩]

def snapshotFrame (payload : String) : Bytes :=
  (encodeFrame snapshotHeaders (encodeUtf8 payload.toList)).getD []

/-- Two snapshots that cut the opening tag in two. -/
def splitTag : List Bytes :=
  [snapshotFrame "\x7b\"content\":\"a<thin\"\x7d", snapshotFrame "\x7b\"content\":\"a<thinking>b\"\x7d"]

set_option maxRecDepth 100000 in
theorem run_splitTag_shows :
    textOf (run plainConfig splitTag).1 = withoutThinking (js "a<thinking>b") := by
  have hlast : lastSnapshot ((kiroFraming plainConfig.maxFrameBytes).frames splitTag.flatten) =
      js "a<thinking>b" := by decide +kernel
  have hsafe : ∀ e ∈ (run plainConfig splitTag).1, isError e = false := by decide +kernel
  rw [← hlast]
  exact ((run_shows_withoutThinking plainConfig splitTag).2 hsafe).2

end KiroEventStreamParser

end StonePlus.Kiro
