import StonePlus.Kiro.Parser
import StonePlus.Kiro.ToolHandlers

/-!
# StonePlus.Kiro.FrameHandlers

What one frame, and the end of a complete stream, do to the events written
and to the tool bookkeeping.

Most handlers are *unobtrusive*: they report progress and leave the tools
alone.  That property goes through the monad, so a handler is unobtrusive
because its steps are.  Only `toolUseEvent` is not, and its specification is
`wp_handleToolUse`.
-/

namespace StonePlus.Kiro

open Lib.Effect

/-! ## Unobtrusive handlers -/

/-- The tool bookkeeping is the same. -/
structure SameTools (s s' : KiroState) : Prop where
  tools : s'.tools = s.tools
  completedTools : s'.completedTools = s.completedTools
  completedToolIds : s'.completedToolIds = s.completedToolIds
  nextToolIndex : s'.nextToolIndex = s.nextToolIndex
  nextToolIndexToEmit : s'.nextToolIndexToEmit = s.nextToolIndexToEmit

theorem SameTools.refl (s : KiroState) : SameTools s s := ⟨rfl, rfl, rfl, rfl, rfl⟩

theorem SameTools.trans {s : KiroState} (h : SameTools s s') (h' : SameTools s' s'') :
    SameTools s s'' :=
  ⟨h'.tools.trans h.tools, h'.completedTools.trans h.completedTools,
    h'.completedToolIds.trans h.completedToolIds, h'.nextToolIndex.trans h.nextToolIndex,
    h'.nextToolIndexToEmit.trans h.nextToolIndexToEmit⟩

/-- Only progress is reported, and the tool bookkeeping is left alone. -/
def Unobtrusive {α : Type} (m : Handler α) : Prop :=
  ∀ s, wp m s (fun _ s' out => SameTools s s' ∧ ∀ e ∈ out, isQuiet e = true)
    fun _ _ out => ∀ e ∈ out, isQuiet e = true

namespace Unobtrusive

variable {α β : Type}

theorem pure (a : α) : Unobtrusive (pure a) := fun s =>
  ⟨.refl s, fun _ he => nomatch he⟩

theorem get : Unobtrusive get := fun s => ⟨.refl s, fun _ he => nomatch he⟩

theorem throw (e : Thrown) : Unobtrusive (throw e : Handler α) := fun _ _ he => nomatch he

theorem emit {e : CanonicalStreamEvent} (h : isQuiet e = true) : Unobtrusive (emit e) := fun s =>
  ⟨.refl s, fun _ he => List.mem_singleton.mp he ▸ h⟩

theorem modify {f : KiroState → KiroState} (h : ∀ s, SameTools s (f s)) :
    Unobtrusive (modify f) := fun s => ⟨h s, fun _ he => nomatch he⟩

theorem lift (x : Except Thrown α) : Unobtrusive (liftM x : Handler α) := fun s => by
  rw [wp_lift]
  cases x with
  | error e => exact fun _ he => nomatch he
  | ok a => exact ⟨.refl s, fun _ he => nomatch he⟩

theorem ensure (c : Prop) [Decidable c] (e : Thrown) : Unobtrusive (ensure c e) := by
  unfold Lib.Effect.ensure
  split
  · exact pure ()
  · exact throw e

theorem whenever {c : Prop} [Decidable c] {m : Handler Unit} (h : Unobtrusive m) :
    Unobtrusive (whenever c m) := by
  unfold Lib.Effect.whenever
  split
  · exact h
  · exact pure ()

theorem bind {m : Handler α} {f : α → Handler β} (hm : Unobtrusive m)
    (hf : ∀ a, Unobtrusive (f a)) : Unobtrusive (m >>= f) := by
  intro s
  rw [wp_bind]
  refine wp_mono (hm s) ?_ fun _ _ _ hout => hout
  rintro a s₁ out ⟨hsame, hout⟩
  refine wp_mono (hf a s₁) ?_ ?_
  · rintro b s₂ more ⟨hsame', hmore⟩
    exact ⟨hsame.trans hsame', List.forall_mem_append.mpr ⟨hout, hmore⟩⟩
  · exact fun _ _ _ hmore => List.forall_mem_append.mpr ⟨hout, hmore⟩

end Unobtrusive

/-! ## The handlers -/

theorem unobtrusive_diagnose (f : KiroEventStreamDiagnostics → KiroEventStreamDiagnostics) :
    Unobtrusive (diagnose f) := .modify fun _ => ⟨rfl, rfl, rfl, rfl, rfl⟩

theorem unobtrusive_recognize (field : Option EventCounter) : Unobtrusive (recognize field) :=
  unobtrusive_diagnose _

theorem unobtrusive_emitFiltered (filtered : Filtered) : Unobtrusive (emitFiltered filtered) :=
  .bind (.whenever (.emit rfl)) fun _ => .whenever (.emit rfl)

theorem unobtrusive_handleAssistantResponse (cfg : KiroConfig) (payload : Json) :
    Unobtrusive (handleAssistantResponse cfg payload) := by
  refine .bind (.lift _) fun content => .bind .get fun s => .bind (.lift _) fun delta => ?_
  refine .bind (.modify fun _ => ⟨rfl, rfl, rfl, rfl, rfl⟩) fun _ => .bind (.ensure _ _) fun _ => ?_
  refine .whenever (.bind .get fun s => ?_)
  exact .bind (.modify fun _ => ⟨rfl, rfl, rfl, rfl, rfl⟩) fun _ => unobtrusive_emitFiltered _

theorem unobtrusive_handleReasoning (cfg : KiroConfig) (payload : Json) :
    Unobtrusive (handleReasoning cfg payload) := by
  unfold handleReasoning
  dsimp only
  split
  · exact .whenever (.emit rfl)
  · refine .bind .get fun s => .bind (.lift _) fun delta => ?_
    refine .bind (.modify fun _ => ⟨rfl, rfl, rfl, rfl, rfl⟩) fun _ => ?_
    exact .bind (.ensure _ _) fun _ => .whenever (.emit rfl)

theorem unobtrusive_handleUsage (metadata : Bool) (payload : Json) :
    Unobtrusive (handleUsage metadata payload) := by
  unfold handleUsage
  split
  · exact .bind (.lift _) fun event => .whenever (.emit rfl)
  · exact .bind (.lift _) fun event => .whenever (.emit rfl)

theorem unobtrusive_handleInvalidState (payload : Json) :
    Unobtrusive (handleInvalidState payload) :=
  .bind (unobtrusive_diagnose _) fun _ => .throw _

theorem unobtrusive_handleMessageMetadata (payload : Json) :
    Unobtrusive (handleMessageMetadata payload) := unobtrusive_diagnose _

/-- Of the known events only `toolUseEvent` is not unobtrusive. -/
theorem unobtrusive_handleEvent (cfg : KiroConfig) {eventType : KiroEventType}
    (h : eventType ≠ .toolUse) (payload : Json) : Unobtrusive (handleEvent cfg eventType payload) := by
  cases eventType with
  | assistantResponse =>
      exact .bind (unobtrusive_recognize _) fun _ => unobtrusive_handleAssistantResponse cfg payload
  | reasoningContent =>
      exact .bind (unobtrusive_recognize _) fun _ => unobtrusive_handleReasoning cfg payload
  | toolUse => exact absurd rfl h
  | metadata => exact .bind (unobtrusive_recognize _) fun _ => unobtrusive_handleUsage true payload
  | metering => exact .bind (unobtrusive_recognize _) fun _ => unobtrusive_handleUsage false payload
  | invalidState =>
      exact .bind (unobtrusive_recognize _) fun _ => unobtrusive_handleInvalidState payload
  | messageMetadata =>
      exact .bind (unobtrusive_recognize _) fun _ => unobtrusive_handleMessageMetadata payload

/-! ## Tool uses -/

theorem kiroEventType?_toolUse {eventType : JsString} :
    kiroEventType? eventType = some .toolUse ↔ eventType = js "toolUseEvent" := by
  constructor
  · intro h
    obtain ⟨entry, hfind, hsnd⟩ := Option.map_eq_some_iff.mp h
    have hmem := List.mem_of_find?_eq_some hfind
    have heq : js entry.1 = eventType := by simpa using List.find?_some hfind
    rw [← heq]
    simp only [kiroJsonEventTypes, List.mem_cons, List.not_mem_nil, or_false] at hmem
    rcases hmem with rfl | rfl | rfl | rfl | rfl | rfl | rfl
    case inr.inr.inl => rfl
    all_goals cases hsnd
  · rintro rfl
    rfl

variable {frame : ParsedFrame}

theorem toolUse?_of_ne (h : requiredStringHeader frame.headers ":event-type" = .ok eventType)
    (hne : eventType ≠ js "toolUseEvent") : toolUse? frame = none := by
  unfold toolUse?
  rw [h]
  cases messageType frame with
  | error e => rfl
  | ok type => simp [Except.toOption, hne]

theorem toolUse?_of_payload (htype : messageType frame = .ok (js "event"))
    (hevent : requiredStringHeader frame.headers ":event-type" = .ok (js "toolUseEvent"))
    (hpayload : parseJsonObject frame.payload (js "toolUseEvent") = .ok payload) :
    toolUse? frame = ToolUse.ofPayload payload := by
  unfold toolUse?
  rw [htype, hevent]
  simp [Except.toOption, hpayload]

/-! ## Frames -/

variable {cfg : KiroConfig} {l : Ledger} {calls : List CompletedToolState} {s s' : KiroState}
  {events : List CanonicalStreamEvent}

theorem Tracks.of_sameTools (h : Tracks cfg l calls s) (hsame : SameTools s s') :
    Tracks cfg l calls s' :=
  h.congr hsame.tools hsame.completedTools hsame.completedToolIds hsame.nextToolIndex
    hsame.nextToolIndexToEmit

theorem Ready.of_sameTools (h : Ready s) (hsame : SameTools s s') : Ready s' := by
  unfold Ready
  rw [hsame.completedTools, hsame.nextToolIndexToEmit]
  exact h

/-- An unobtrusive step only adds progress. -/
theorem Unobtrusive.keeps {α : Type} {m : Handler α} (hm : Unobtrusive m)
    (hbody : Body events calls) (h : Tracks cfg l calls s) (hready : Ready s) :
    wp m s (fun _ s' out => Body (events ++ out) calls ∧ Tracks cfg l calls s' ∧ Ready s')
      fun _ _ out => Body (events ++ out) calls := by
  refine wp_mono (hm s) ?_ fun _ _ _ hout => hbody.append_quiet hout
  rintro a s' out ⟨hsame, hout⟩
  exact ⟨hbody.append_quiet hout, h.of_sameTools hsame, hready.of_sameTools hsame⟩

/-- The ledger after one more frame. -/
def Ledger.enter (l : Ledger) (frame : ParsedFrame) : Ledger := (toolUse? frame).toList.foldl add l

theorem Ledger.enter_of_none (h : toolUse? frame = none) : l.enter frame = l := by
  rw [enter, h]
  rfl

theorem Ledger.enter_of_some (h : toolUse? frame = some use) : l.enter frame = l.add use := by
  rw [enter, h]
  rfl

theorem Ledger.of_toolUses_append (frames : List ParsedFrame) (frame : ParsedFrame) :
    Ledger.of (toolUses (frames ++ [frame])) = (Ledger.of (toolUses frames)).enter frame := by
  rw [toolUses, List.filterMap_append, Ledger.of, List.foldl_append, Ledger.enter,
    List.filterMap_cons, List.filterMap_nil]
  cases toolUse? frame <;> rfl

/-- A step that handles no tool use keeps the ledger. -/
theorem Unobtrusive.keeps_frame {α : Type} {m : Handler α} (hm : Unobtrusive m)
    (hnone : toolUse? frame = none) (hbody : Body events calls) (h : Tracks cfg l calls s)
    (hready : Ready s) : wp m s
      (fun _ s' out => ∃ calls', Body (events ++ out) calls' ∧ Tracks cfg (l.enter frame) calls' s' ∧
        Ready s')
      fun _ _ out => Body (events ++ out) calls := by
  rw [Ledger.enter_of_none hnone]
  refine wp_mono (hm.keeps hbody h hready) ?_ fun _ _ _ hout => hout
  exact fun _ _ _ hkept => ⟨calls, hkept⟩

/-- A `toolUseEvent` with its payload. -/
theorem wp_handleEvent_toolUse (hbody : Body events calls) (h : Tracks cfg l calls s)
    (hready : Ready s) {payload : Json} (huse : toolUse? frame = ToolUse.ofPayload payload) :
    wp (handleEvent cfg .toolUse payload) s
      (fun _ s' out => ∃ calls', Body (events ++ out) calls' ∧ Tracks cfg (l.enter frame) calls' s' ∧
        Ready s')
      fun _ _ out => Body (events ++ out) calls := by
  rw [handleEvent, wp_bind]
  refine wp_mono ((unobtrusive_recognize _).keeps hbody h hready) ?_ fun _ _ _ hout => hout
  rintro - s₁ out ⟨hbody₁, h₁, hready₁⟩
  refine wp_mono (wp_handleToolUse h₁ hready₁ payload) ?_ ?_
  · rintro - s₂ more ⟨use, new, hpayload, rfl, h₂, hready₂⟩
    rw [Ledger.enter_of_some (huse.trans hpayload), ← List.append_assoc]
    exact ⟨calls ++ new, hbody₁.append_calls new, h₂, hready₂⟩
  · rintro e s₂ more rfl
    rwa [List.append_nil]

theorem kiroEventType?_of_ignored {eventType : JsString}
    (h : eventType ∈ kiroIgnoredEventTypes.map js) : kiroEventType? eventType = none := by
  have hall : ∀ t ∈ kiroIgnoredEventTypes.map js, (kiroEventType? t).isNone = true := by decide
  exact Option.isNone_iff_eq_none.mp (hall eventType h)

/-- A frame is refused before anything happens, or of no interest, or a known event. -/
theorem wp_handleFrame_of {post : Unit → KiroState → List CanonicalStreamEvent → Prop}
    (hthrow : ∀ e, fail e s [])
    (hother : ∀ {eventType}, requiredStringHeader frame.headers ":event-type" = .ok eventType →
      kiroEventType? eventType = none → wp (recognize none) s post fail ∧ post () s [])
    (hevent : ∀ {eventType known payload}, messageType frame = .ok (js "event") →
      requiredStringHeader frame.headers ":event-type" = .ok eventType →
      kiroEventType? eventType = some known → parseJsonObject frame.payload eventType = .ok payload →
      wp (handleEvent cfg known payload) s post fail) : wp (handleFrame cfg frame) s post fail := by
  rw [handleFrame, wp_bind, wp_lift]
  cases htype : messageType frame with
  | error e => exact hthrow e
  | ok type =>
      simp only [List.nil_append]
      split
      · rw [wp_bind, wp_lift]
        cases exceptionFailure frame <;> exact hthrow _
      · split
        · exact hthrow _
        · next hne =>
            rw [not_not.mp hne] at htype
            rw [wp_bind, wp_lift]
            cases heventType : requiredStringHeader frame.headers ":event-type" with
            | error e => exact hthrow e
            | ok eventType =>
                simp only [List.nil_append]
                split
                · next hignored => exact (hother heventType (kiroEventType?_of_ignored hignored)).1
                · cases hknown : kiroEventType? eventType with
                  | none => exact (hother heventType hknown).2
                  | some known =>
                      simp only [wp_bind, wp_lift]
                      cases hpayload : parseJsonObject frame.payload eventType with
                      | error e => exact hthrow e
                      | ok payload => exact hevent htype heventType hknown hpayload

/-- One frame: the output grows by progress or by calls, and the bookkeeping
follows the ledger. -/
theorem wp_handleFrame (hbody : Body events calls) (h : Tracks cfg l calls s) (hready : Ready s)
    (frame : ParsedFrame) :
    wp (handleFrame cfg frame) s
      (fun _ s' out => ∃ calls', Body (events ++ out) calls' ∧ Tracks cfg (l.enter frame) calls' s' ∧
        Ready s')
      fun _ _ out => Body (events ++ out) calls := by
  refine wp_handleFrame_of (fun _ => by rwa [List.append_nil]) ?_ ?_
  · intro eventType heventType hnone
    have hne : eventType ≠ js "toolUseEvent" := by
      intro heq
      rw [kiroEventType?_toolUse.mpr heq] at hnone
      cases hnone
    have huse := toolUse?_of_ne heventType hne
    exact ⟨(unobtrusive_recognize none).keeps_frame huse hbody h hready,
      (Unobtrusive.pure ()).keeps_frame huse hbody h hready⟩
  · intro eventType known payload htype heventType hknown hpayload
    by_cases htool : known = .toolUse
    · subst htool
      obtain rfl := kiroEventType?_toolUse.mp hknown
      exact wp_handleEvent_toolUse hbody h hready (toolUse?_of_payload htype heventType hpayload)
    · have hne : eventType ≠ js "toolUseEvent" := by
        intro heq
        rw [kiroEventType?_toolUse.mpr heq] at hknown
        exact htool (Option.some.inj hknown).symm
      exact (unobtrusive_handleEvent cfg htool payload).keeps_frame (toolUse?_of_ne heventType hne)
        hbody h hready

end StonePlus.Kiro
