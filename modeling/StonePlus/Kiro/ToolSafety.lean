import StonePlus.Kiro.Chunking
import StonePlus.Kiro.FrameHandlers

/-!
# StonePlus.Kiro.ToolSafety

The output of a whole stream is well formed and tool-safe.

The invariant rule of the frame reader carries `Body`, `Tracks` and `Ready`
from frame to frame; `completeStream` and the failure events close the output.
-/

namespace StonePlus.Kiro

open Lib Lib.Effect

variable {cfg : KiroConfig} {l : Ledger} {calls : List CompletedToolState} {s : KiroState}
  {events : List CanonicalStreamEvent}

/-! ## How a stream ends -/

/-- A complete output: progress and calls, then one `stop` and one `done`. -/
structure Completed (cfg : KiroConfig) (l : Ledger) (events : List CanonicalStreamEvent)
    (body : List CanonicalStreamEvent) (calls : List CompletedToolState) (reason : CanonicalStopReason)
    (native : Option JsString) : Prop where
  events_eq : events = body ++ [.stop reason native, .done]
  body : Body body calls
  emitted : Emitted cfg l calls
  all_emitted : calls.map CompletedToolState.id = l.ids

/-- A failed output: progress and calls, then the three failure events. -/
structure Failed (cfg : KiroConfig) (l : Ledger) (events : List CanonicalStreamEvent)
    (body : List CanonicalStreamEvent) (calls : List CompletedToolState) (failure : KiroStreamFailure) :
    Prop where
  events_eq : events = body ++ failureEvents failure
  body : Body body calls
  emitted : Emitted cfg l calls

namespace KiroEventStreamParser

/-- The end of a complete stream emits the calls that were still owed. -/
theorem wp_completeStream (hbody : Body events calls) (h : Tracks cfg l calls s)
    (hready : Ready s) :
    wp (completeStream cfg) s
      (fun _ _ out => ∃ body calls' reason native,
        Completed cfg l (events ++ out) body calls' reason native)
      fun _ _ out => ∃ calls', Body (events ++ out) calls' ∧ Emitted cfg l calls' := by
  rw [completeStream, wp_bind]
  refine wp_mono (wp_recoverOrRejectUnfinishedTools h hready) ?_ ?_
  · rintro - s₁ out ⟨new, rfl, h₁, hready₁, hgone⟩
    have hbody₁ := hbody.append_calls new
    have hall := h₁.all_emitted hready₁ hgone
    have hnothing : readyTools s₁ = ([], s₁) := readyTools_none hready₁
    simp only [wp_bind, wp_emitReadyTools, hnothing, wp_get, wp_modify, wp_emit, List.nil_append]
    refine wp_mono (unobtrusive_emitFiltered _ _) ?_ ?_
    · rintro - s₂ out ⟨-, hquiet⟩
      have hbody₂ := hbody₁.append_quiet hquiet
      refine ⟨_, calls ++ new, if s₂.sawCompletedTool then .toolCalls else .stop,
        some (if s₂.sawCompletedTool then js "tool_use" else js "end_turn"), ?_, hbody₂,
        h₁.emitted, hall⟩
      simp only [List.append_assoc]
      rfl
    · intro e s₂ out hquiet
      rw [← List.append_assoc]
      exact ⟨calls ++ new, hbody₁.append_quiet hquiet, h₁.emitted⟩
  · rintro e s₁ out ⟨new, rfl, hemitted⟩
    exact ⟨calls ++ new, hbody.append_calls new, hemitted⟩

/-- The invariant between two frames. -/
def Between (cfg : KiroConfig) (done : List ParsedFrame) (events : List CanonicalStreamEvent)
    (s : KiroState) : Prop :=
  ∃ calls, Body events calls ∧ Tracks cfg (.of (toolUses done)) calls s ∧ Ready s

/-- The output of a stream that failed while reading. -/
def FailedReading (cfg : KiroConfig) (done : List ParsedFrame) (events : List CanonicalStreamEvent)
    (_ : KiroState) : Prop :=
  ∃ body calls failure, Failed cfg (.of (toolUses done)) events body calls failure

theorem between_init (cfg : KiroConfig) : Between cfg [] [] {} :=
  ⟨[], .nil, tracks_init cfg, rfl⟩

/-- One frame keeps the invariant or fails the stream. -/
theorem accept_spec (h : Between cfg done events s) (frame : ParsedFrame) :
    if ((kiroConsumer cfg).accept s frame).continues then
      Between cfg (done ++ [frame]) (events ++ ((kiroConsumer cfg).accept s frame).output)
        ((kiroConsumer cfg).accept s frame).state
    else
      FailedReading cfg done (events ++ ((kiroConsumer cfg).accept s frame).output)
        ((kiroConsumer cfg).accept s frame).state := by
  obtain ⟨calls, hbody, htracks, hready⟩ := h
  have hsame : SameTools s { s with sawFrame := true } := ⟨rfl, rfl, rfl, rfl, rfl⟩
  have hspec := wp_handleFrame hbody (htracks.of_sameTools hsame) (hready.of_sameTools hsame) frame
  unfold wp at hspec
  split at hspec
  · next _ s' out heq =>
      obtain ⟨calls', hbody', htracks', hready'⟩ := hspec
      have haccept : (kiroConsumer cfg).accept s frame = ⟨s', out, true⟩ := by
        simp only [kiroConsumer, heq]
      rw [haccept, if_pos rfl, Between, Ledger.of_toolUses_append]
      exact ⟨calls', hbody', htracks', hready'⟩
  · next e s' out heq =>
      have haccept : (kiroConsumer cfg).accept s frame =
          ⟨s', out ++ failureEvents (asKiroFailure e), false⟩ := by
        simp only [kiroConsumer, heq]
      rw [haccept, if_neg Bool.false_ne_true]
      dsimp only
      rw [← List.append_assoc]
      exact ⟨events ++ out, calls, asKiroFailure e, rfl, hspec, htracks.emitted⟩

/-- A malformed front fails the stream. -/
theorem reject_spec (h : Between cfg done events s) (e : Thrown) :
    FailedReading cfg done (events ++ ((kiroConsumer cfg).reject s e).2)
      ((kiroConsumer cfg).reject s e).1 := by
  obtain ⟨calls, hbody, htracks, -⟩ := h
  exact ⟨events, calls, asKiroFailure e, rfl, hbody, htracks.emitted⟩

/-- The end of a stream whose frames were all handled. -/
theorem finishDrained_spec {p : KiroEventStreamParser} (hfailed : p.failed = false)
    (h : Between cfg done events p.state) :
    (∃ body calls reason native, Completed cfg (.of (toolUses done))
        (events ++ (p.finishDrained cfg).1) body calls reason native) ∨
      ∃ body calls failure, Failed cfg (.of (toolUses done)) (events ++ (p.finishDrained cfg).1)
        body calls failure := by
  obtain ⟨calls, hbody, htracks, hready⟩ := h
  have hspec := wp_completeStream hbody htracks hready
  unfold wp at hspec
  unfold finishDrained
  cases p.endFailure? with
  | some failure =>
      refine .inr ⟨events, calls, failure, ?_, hbody, htracks.emitted⟩
      dsimp only
      rw [emitFailure_of_running hfailed]
  | none =>
      dsimp only
      split at hspec
      · next heq =>
          rw [heq]
          exact .inl hspec
      · next e s' out heq =>
          obtain ⟨calls', hbody', hemitted⟩ := hspec
          rw [heq]
          refine .inr ⟨events ++ out, calls', asKiroFailure e, ?_, hbody', hemitted⟩
          dsimp only
          rw [emitFailure_of_running (by exact hfailed), List.append_assoc]

/-- A parser that has read all it can finishes by completing its stream. -/
theorem finish_drained {p : KiroEventStreamParser} (hfinished : p.finished = false)
    (hfailed : p.failed = false) (hsettled : p.intake.Settled (kiroFraming cfg.maxFrameBytes)) :
    ∃ q : KiroEventStreamParser, q.intake = p.intake ∧
      (p.finish cfg).1 = (q.finishDrained cfg).1 := by
  obtain ⟨hevents, hintake, -⟩ := drainFrames_eq cfg hfailed hfinished
  have hfront : (kiroFraming cfg.maxFrameBytes).front p.bytes.toList = .incomplete :=
    hsettled hfailed
  rw [Intake.drain_incomplete hfront] at hevents hintake
  have hopen : (p.drainFrames cfg).2.failed = false := congrArg Intake.closed hintake
  refine ⟨(p.drainFrames cfg).2, ?_, ?_⟩
  · rw [hintake, intake, hfailed]
  · rw [finish_running cfg hfinished hfailed, if_neg (by simp [hopen]), hevents]
    rfl

/-- Everything pushed is read as far as it goes. -/
theorem settled_pushAll (cfg : KiroConfig) (chunks : List Bytes) :
    (KiroEventStreamParser.pushAll cfg {} chunks).2.finished = false ∧
      (KiroEventStreamParser.pushAll cfg {} chunks).2.intake.Settled
        (kiroFraming cfg.maxFrameBytes) := by
  obtain ⟨-, hintake, hdone⟩ := @pushAll_eq cfg {} rfl (settled_init cfg.maxFrameBytes) chunks
  rw [Intake.feedAll_eq_feed (settled_init cfg.maxFrameBytes)] at hintake
  refine ⟨hdone, ?_⟩
  rw [hintake]
  exact Intake.settled_feed (settled_init cfg.maxFrameBytes) chunks.flatten

/-- An invariant between two frames holds after whatever was pushed, or the stream has stopped. -/
theorem pushAll_spec (inv stop : List ParsedFrame → List CanonicalStreamEvent → KiroState → Prop)
    (haccept : ∀ done out state frame, inv done out state →
      if ((kiroConsumer cfg).accept state frame).continues then
        inv (done ++ [frame]) (out ++ ((kiroConsumer cfg).accept state frame).output)
          ((kiroConsumer cfg).accept state frame).state
      else stop done (out ++ ((kiroConsumer cfg).accept state frame).output)
        ((kiroConsumer cfg).accept state frame).state)
    (hreject : ∀ done out state e, inv done out state →
      stop done (out ++ ((kiroConsumer cfg).reject state e).2) ((kiroConsumer cfg).reject state e).1)
    (hinit : inv [] [] {}) (chunks : List Bytes) :
    if (KiroEventStreamParser.pushAll cfg {} chunks).2.failed then
      ∃ read, read <+: (kiroFraming cfg.maxFrameBytes).frames chunks.flatten ∧
        stop read (KiroEventStreamParser.pushAll cfg {} chunks).1
          (KiroEventStreamParser.pushAll cfg {} chunks).2.state
    else inv ((kiroFraming cfg.maxFrameBytes).frames chunks.flatten)
      (KiroEventStreamParser.pushAll cfg {} chunks).1
      (KiroEventStreamParser.pushAll cfg {} chunks).2.state := by
  obtain ⟨hevents, hintake, -⟩ :=
    @pushAll_eq cfg {} rfl (settled_init cfg.maxFrameBytes) chunks
  rw [Intake.feedAll_eq_feed (settled_init cfg.maxFrameBytes)] at hevents hintake
  have hread := Intake.drain_spec (F := kiroFraming cfg.maxFrameBytes) inv stop haccept hreject
    hinit chunks.flatten
  have hfeed : Intake.feed (kiroFraming cfg.maxFrameBytes) (kiroConsumer cfg)
      ({} : KiroEventStreamParser).intake chunks.flatten =
        Intake.drain (kiroFraming cfg.maxFrameBytes) (kiroConsumer cfg) {} chunks.flatten := rfl
  rw [← hfeed, ← hintake, ← hevents] at hread
  simp only [List.nil_append] at hread
  exact hread

/-- A whole stream is complete, with every frame read, or fails after some of
its frames. -/
theorem run_spec (cfg : KiroConfig) (chunks : List Bytes) :
    (∃ body calls reason native, Completed cfg
        (.of (toolUses ((kiroFraming cfg.maxFrameBytes).frames chunks.flatten)))
        (run cfg chunks).1 body calls reason native) ∨
      ∃ read, read <+: (kiroFraming cfg.maxFrameBytes).frames chunks.flatten ∧
        ∃ body calls failure, Failed cfg (.of (toolUses read)) (run cfg chunks).1 body calls
          failure := by
  have hread := pushAll_spec (Between cfg) (FailedReading cfg)
    (fun _ _ _ frame h => accept_spec h frame) (fun _ _ _ e h => reject_spec h e)
    (between_init cfg) chunks
  obtain ⟨hdone, hsettled⟩ := settled_pushAll cfg chunks
  rw [run]
  cases hfailed : (KiroEventStreamParser.pushAll cfg {} chunks).2.failed with
  | true =>
      rw [hfailed, if_pos rfl] at hread
      rw [finish_failed cfg hdone hfailed]
      simp only [List.append_nil]
      exact .inr hread
  | false =>
      rw [hfailed, if_neg Bool.false_ne_true] at hread
      obtain ⟨q, hq, hfinish⟩ := finish_drained hdone hfailed hsettled
      have hqfailed : q.failed = false := (congrArg Intake.closed hq).trans hfailed
      have hqstate : q.state = (KiroEventStreamParser.pushAll cfg {} chunks).2.state :=
        congrArg Intake.state hq
      rw [← hqstate] at hread
      simp only [hfinish]
      rcases finishDrained_spec hqfailed hread with hcompleted | hfail
      · exact .inl hcompleted
      · exact .inr ⟨_, List.prefix_rfl, hfail⟩

end KiroEventStreamParser

/-! ## Main result -/

/-- The tool calls of an output are safe: adjacent pairs of events, numbered
from zero in the order in which the frames first mention the tools, each tool
at most once, each justified by the frames read; and without an error every
tool the frames mention is called. -/
structure ToolSafe (cfg : KiroConfig) (frames : List ParsedFrame)
    (events : List CanonicalStreamEvent) (calls : List CompletedToolState) : Prop where
  interleaved : Interleaved events calls
  index_eq : ∀ (k : Nat) (c : CompletedToolState), calls[k]? = some c → c.index = k
  nodup : (calls.map CompletedToolState.id).Nodup
  in_order : calls.map CompletedToolState.id <+: (Ledger.of (toolUses frames)).ids
  valid : ∃ read, read <+: frames ∧ ∀ c ∈ calls, Valid cfg (.of (toolUses read)) c
  complete : (∀ e ∈ events, isError e = false) →
    calls.map CompletedToolState.id = (Ledger.of (toolUses frames)).ids

/-- The output of a stream is well formed: one `done`, which is last, right
after the one `stop`; at most one `error`, and only `stop` and `done` follow
it; and its tool calls are safe. -/
structure WellFormed (cfg : KiroConfig) (frames : List ParsedFrame)
    (events : List CanonicalStreamEvent) : Prop where
  terminated : ∃ body reason native, events = body ++ [.stop reason native, .done] ∧
    ∀ e ∈ body, isStop e = false ∧ e ≠ .done
  error_final : ∀ before message code type after,
    events = before ++ .error message code type :: after →
      (∀ e ∈ before, isError e = false) ∧ ∃ native, after = [.stop .error native, .done]
  tool_safe : ∃ calls, ToolSafe cfg frames events calls

theorem ids_prefix_of_read {read : List ParsedFrame} (h : read <+: frames) :
    (Ledger.of (toolUses read)).ids <+: (Ledger.of (toolUses frames)).ids :=
  Ledger.ids_prefix_of_prefix (h.filterMap toolUse?)

/-- A complete output is well formed. -/
theorem Completed.wellFormed {body : List CanonicalStreamEvent}
    (h : Completed cfg (.of (toolUses frames)) events body calls reason native) :
    WellFormed cfg frames events := by
  obtain ⟨rfl, hbody, hemitted, hall⟩ := h
  have hquiet := hbody.not_final
  refine ⟨⟨body, reason, native, rfl, fun e he => ⟨(hquiet e he).1, (hquiet e he).2.2⟩⟩, ?_,
    calls, ?_, fun k c hk => hemitted.index_eq hk, ?_, hemitted.ids_prefix, ⟨frames,
      List.prefix_rfl, hemitted.valid⟩, fun _ => hall⟩
  · intro before message code type after heq
    have hmem : CanonicalStreamEvent.error message code type ∈ body ++ [.stop reason native, .done] :=
      heq ▸ List.mem_append_right _ List.mem_cons_self
    rcases List.mem_append.mp hmem with hin | hin
    · have herror := (hquiet _ hin).2.1
      simp [isError] at herror
    · simp at hin
  · exact hbody.interleaved.append_others (by simp [isTool])
  · rw [hall]
    exact (Ledger.of (toolUses frames)).nodup

/-- A failed output is well formed. -/
theorem Failed.wellFormed {read : List ParsedFrame} (hread : read <+: frames)
    {body : List CanonicalStreamEvent} {failure : KiroStreamFailure}
    (h : Failed cfg (.of (toolUses read)) events body calls failure) :
    WellFormed cfg frames events := by
  obtain ⟨rfl, hbody, hemitted⟩ := h
  have hquiet := hbody.not_final
  have hids := hemitted.ids_prefix.trans (ids_prefix_of_read hread)
  refine ⟨⟨body ++ [.error failure.message (some failure.code) (some failure.errorType)], .error,
    some failure.code, by simp [failureEvents], ?_⟩, ?_, calls, ?_,
    fun k c hk => hemitted.index_eq hk, ?_, hids, ⟨read, hread, hemitted.valid⟩, ?_⟩
  · intro e he
    rcases List.mem_append.mp he with hin | hin
    · exact ⟨(hquiet e hin).1, (hquiet e hin).2.2⟩
    · rw [List.mem_singleton.mp hin]
      exact ⟨rfl, nofun⟩
  · intro before message code type after heq
    have hnot : CanonicalStreamEvent.error message code type ∉ body := fun hin => by
      have herror := (hquiet _ hin).2.1
      simp [isError] at herror
    obtain ⟨rfl, -, hafter⟩ := (List.append_cons_inj_of_notMem hnot (by simp)).mp heq
    exact ⟨fun e he => (hquiet e he).2.1, some failure.code, hafter.symm⟩
  · exact hbody.interleaved.append_others (by simp [failureEvents, isTool])
  · exact hids.nodup (Ledger.of (toolUses frames)).nodup
  · intro hnone
    have herror := hnone _ (List.mem_append_right body List.mem_cons_self)
    simp [isError] at herror

/-- Whatever the upstream sends and however it is chunked, the events of the
stream are well formed and tool-safe. -/
theorem KiroEventStreamParser.run_wellFormed (cfg : KiroConfig) (chunks : List Bytes) :
    WellFormed cfg ((kiroFraming cfg.maxFrameBytes).frames chunks.flatten)
      (KiroEventStreamParser.run cfg chunks).1 := by
  rcases run_spec cfg chunks with ⟨_, _, _, _, hcompleted⟩ | ⟨_, hread, _, _, _, hfailed⟩
  · exact hcompleted.wellFormed
  · exact hfailed.wellFormed hread

end StonePlus.Kiro
