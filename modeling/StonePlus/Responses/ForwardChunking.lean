import StonePlus.Lib.Framing
import StonePlus.Responses.ForwardSse

/-!
# StonePlus.Responses.ForwardChunking

`forwardResponsesSse` as a reader of a framed byte stream, and its independence of chunk
boundaries.

The frames are cut at the delimiters (`sseFraming`); the size limit, which the reader checks
in three places, is one condition on the front of a buffer.  `forwardChunk_feed` says that a
chunk is fed to that reader, so the library's theorem applies.
-/

namespace StonePlus.Responses

open Lib Lib.Effect

/-! ## The framing -/

/-- What the front of the unread bytes holds: without a delimiter, three bytes over the limit
may still be the beginning of one. -/
def sseFront (maxFrameBytes : Nat) (buffer : Bytes) : Front Bytes Unit :=
  match findSseDelimiter buffer 0 with
  | some (index, length) =>
    if index ≤ maxFrameBytes then .frame (buffer.take index) (index + length) else .malformed ()
  | none => if buffer.length ≤ maxFrameBytes + 3 then .incomplete else .malformed ()

theorem findSseDelimiter_append (h : findSseDelimiter buffer 0 = some (index, length))
    (more : Bytes) : findSseDelimiter (buffer ++ more) 0 = some (index, length) := by
  obtain ⟨i, m, hm, hindex, hlength⟩ := findSseDelimiter_eq_some.mp h
  exact findSseDelimiter_eq_some.mpr
    ⟨i, m, sseFrameBoundaries_delimiters.isEarliest_append hm more, hindex, hlength⟩

theorem length_boundary (h : m ∈ sseFrameBoundaries) : m.length ≤ 4 := by
  revert m
  decide

/-- A delimiter that is not complete in a buffer begins in its last three bytes. -/
theorem le_of_findSseDelimiter_append (hnone : findSseDelimiter buffer 0 = none)
    (h : findSseDelimiter (buffer ++ more) 0 = some (index, length)) :
    buffer.length ≤ index + 3 := by
  obtain ⟨i, m, hm, rfl, rfl⟩ := findSseDelimiter_eq_some.mp h
  by_contra hlt
  have hlong := length_boundary hm.mem
  have habsent : Absent sseFrameBoundaries buffer := by
    simpa [findSseDelimiter, earliest_eq_none] using hnone
  exact habsent m hm.mem i (hm.occurs.of_append (by omega))

theorem sseFront_append (h : sseFront maxFrameBytes buffer ≠ .incomplete) (more : Bytes) :
    sseFront maxFrameBytes (buffer ++ more) = sseFront maxFrameBytes buffer := by
  unfold sseFront at h ⊢
  cases hfind : findSseDelimiter buffer 0 with
  | some found =>
      obtain ⟨index, length⟩ := found
      have hbounds := findSseDelimiter_bounds hfind
      rw [findSseDelimiter_append hfind]
      dsimp only
      rw [List.take_append_of_le_length (by omega)]
  | none =>
      rw [hfind] at h
      dsimp only at h ⊢
      have hlong : ¬buffer.length ≤ maxFrameBytes + 3 := fun hle => h (if_pos hle)
      rw [if_neg hlong]
      -- a delimiter that completes what there is ends a frame that is too long as well
      cases hmore : findSseDelimiter (buffer ++ more) 0 with
      | some found =>
          obtain ⟨index, length⟩ := found
          have hlast := le_of_findSseDelimiter_append hfind hmore
          dsimp only
          rw [if_neg (by omega)]
      | none =>
          dsimp only
          rw [if_neg (by rw [List.length_append]; omega)]

theorem sseFront_eq_frame (h : sseFront maxFrameBytes buffer = .frame f n) :
    ∃ index length, findSseDelimiter buffer 0 = some (index, length) ∧ index ≤ maxFrameBytes ∧
      f = buffer.take index ∧ n = index + length := by
  unfold sseFront at h
  split at h
  · rename_i index length hfind
    split at h
    · rename_i hle
      cases h
      exact ⟨index, length, hfind, hle, rfl, rfl⟩
    · cases h
  · split at h <;> cases h

def sseFraming (maxFrameBytes : Nat) : Framing UInt8 Bytes Unit where
  front := sseFront maxFrameBytes
  size_pos := by
    intro buffer f n h
    obtain ⟨index, length, hfind, -, -, rfl⟩ := sseFront_eq_frame h
    have := findSseDelimiter_bounds hfind
    omega
  size_le := by
    intro buffer f n h
    obtain ⟨index, length, hfind, -, -, rfl⟩ := sseFront_eq_frame h
    exact (findSseDelimiter_bounds hfind).2.2
  frame_append := fun h more => (sseFront_append (by rw [h]; nofun) more).trans h
  malformed_append := fun h more => (sseFront_append (by rw [h]; nofun) more).trans h

/-! ## The consumer -/

/-- What the reader remembers of the frames it has read. -/
structure Reading where
  firstFrame : Bool := true
  sawTerminalEvent : Bool := false
  sawErrorEvent : Bool := false
  failure : Option ForwardFailure := none

/-- An event was handed over. -/
def Reading.see (r : Reading) (event : Json) : Reading :=
  { r with
    sawTerminalEvent := r.sawTerminalEvent || isResponsesTerminalEvent (event.get? (js "type"))
    sawErrorEvent :=
      r.sawErrorEvent || event.get? (js "type") = some (.string (js "error")) }

def sseConsumer (maxFrameBytes : Nat) : Consumer Reading Bytes Unit Json where
  accept := fun r frame =>
    match parseSseFrame frame r.firstFrame with
    | .error e => ⟨{ r with failure := some e }, [], false⟩
    | .ok none => ⟨{ r with firstFrame := false }, [], true⟩
    | .ok (some event) => ⟨{ r with firstFrame := false }.see event, [event], true⟩
  reject := fun r _ => ({ r with failure := some (.frameTooLarge maxFrameBytes) }, [])

/-! ## The reader refines it -/

/-- What a state remembers. -/
def ForwardState.reading (s : ForwardState) : Reading :=
  ⟨s.firstFrame, s.sawTerminalEvent, s.sawErrorEvent, none⟩

/-- The reader after a step: on, or stopped by a failure. -/
def intakeOf {α : Type} : Except ForwardFailure α × ForwardState × List Json → Intake UInt8 Reading
  | (.ok _, s, _) => ⟨s.buffer, s.reading, false⟩
  | (.error e, s, _) => ⟨[], { s.reading with failure := some e }, true⟩

theorem forwardFrame_eq (frame : Bytes) (s : ForwardState) :
    forwardFrame frame s =
      match parseSseFrame frame s.firstFrame with
      | .error e => (.error e, s, [])
      | .ok none => (.ok (), { s with firstFrame := false }, [])
      | .ok (some event) => (.ok (), { s with
          firstFrame := false
          sawTerminalEvent :=
            s.sawTerminalEvent || isResponsesTerminalEvent (event.get? (js "type"))
          sawErrorEvent :=
            s.sawErrorEvent || event.get? (js "type") = some (.string (js "error")) },
          [event]) := by
  unfold forwardFrame
  cases h : parseSseFrame frame s.firstFrame with
  | error e => simp [bind, Effect.get, liftM, monadLift, MonadLift.monadLift, h]
  | ok event =>
      cases event <;> simp [bind, pure, Effect.get, Effect.modify, Effect.emit, liftM, monadLift,
        MonadLift.monadLift, h, forwardEvent]

/-- Searching from a place on is searching what is left. -/
theorem findSseDelimiter_drop (buffer : Bytes) (cursor : Nat) :
    findSseDelimiter buffer cursor = (findSseDelimiter (buffer.drop cursor) 0).map
      fun (index, length) => (cursor + index, length) := by
  simp only [findSseDelimiter, List.drop_zero, Option.map_map, Function.comp_def, Nat.zero_add]

/-- Where no delimiter is complete, none begins before its last three bytes, so the search can
start there. -/
theorem findSseDelimiter_resume (hnone : findSseDelimiter buffer 0 = none) (more : Bytes) :
    findSseDelimiter (buffer ++ more) (buffer.length - 3) =
      findSseDelimiter (buffer ++ more) 0 := by
  have habsent : Absent sseFrameBoundaries buffer := by
    simpa [findSseDelimiter, earliest_eq_none] using hnone
  have hskip : ∀ m ∈ sseFrameBoundaries, ∀ j < buffer.length - 3, ¬Occurs m (buffer ++ more) j := by
    intro m hm j hj hoccurs
    have hlong := length_boundary hm
    exact habsent m hm j (hoccurs.of_append (by omega))
  simp only [findSseDelimiter, List.drop_zero, sseFrameBoundaries_delimiters.earliest_drop hskip,
    Option.map_map, Function.comp_def, Nat.zero_add]

/-- The reader after the frames of a buffer. -/
def intakeAfter (maxFrameBytes : Nat) (buffer : Bytes) :
    Except ForwardFailure Nat × ForwardState × List Json → List Json × Intake UInt8 Reading
  | (.ok cursor, s, out) =>
    (out, if (buffer.drop cursor).length ≤ maxFrameBytes + 3 then
        ⟨buffer.drop cursor, s.reading, false⟩
      else ⟨[], { s.reading with failure := some (.frameTooLarge maxFrameBytes) }, true⟩)
  | (.error e, s, out) => (out, ⟨[], { s.reading with failure := some e }, true⟩)

theorem intakeAfter_append (maxFrameBytes : Nat) (buffer : Bytes)
    (r : Except ForwardFailure Nat × ForwardState × List Json) (out : List Json) :
    intakeAfter maxFrameBytes buffer (r.1, r.2.1, out ++ r.2.2) =
      (out ++ (intakeAfter maxFrameBytes buffer r).1, (intakeAfter maxFrameBytes buffer r).2) := by
  obtain ⟨r | r, s, more⟩ := r <;> rfl

/-- The frames of a buffer, one by one. -/
theorem drain_eq_forwardFrames {maxFrameBytes : Nat} {buffer : Bytes} {cursor start : Nat}
    {s : ForwardState} (hstart : findSseDelimiter buffer start = findSseDelimiter buffer cursor) :
    Intake.drain (sseFraming maxFrameBytes) (sseConsumer maxFrameBytes) s.reading
        (buffer.drop cursor) =
      intakeAfter maxFrameBytes buffer (forwardFrames maxFrameBytes buffer cursor start s) := by
  induction hn : buffer.length - start using Nat.strong_induction_on
    generalizing cursor start s with
  | _ n ih =>
      have hfront : (sseFraming maxFrameBytes).front (buffer.drop cursor) =
          sseFront maxFrameBytes (buffer.drop cursor) := rfl
      rw [findSseDelimiter_drop buffer cursor] at hstart
      cases hfind : findSseDelimiter (buffer.drop cursor) 0 with
      | none =>
          rw [hfind, Option.map_none] at hstart
          rw [forwardFrames_none hstart]
          by_cases hle : (buffer.drop cursor).length ≤ maxFrameBytes + 3
          · have hincomplete : sseFront maxFrameBytes (buffer.drop cursor) = .incomplete := by
              simp only [sseFront, hfind, hle, if_true]
            rw [Intake.drain_incomplete (hfront.trans hincomplete)]
            simp only [pure, intakeAfter, hle, if_true]
          · have hmalformed : sseFront maxFrameBytes (buffer.drop cursor) = .malformed () := by
              simp only [sseFront, hfind, hle, if_false]
            rw [Intake.drain_malformed (hfront.trans hmalformed)]
            simp only [pure, intakeAfter, hle, if_false]
            rfl
      | some found =>
          obtain ⟨index, length⟩ := found
          rw [hfind, Option.map_some] at hstart
          have hbounds := findSseDelimiter_bounds hfind
          have hsize := findSseDelimiter_bounds hstart
          have hframe : (buffer.take (cursor + index)).drop cursor =
              (buffer.drop cursor).take index := by
            rw [List.drop_take, Nat.add_sub_cancel_left]
          have hrest : (buffer.drop cursor).drop (index + length) =
              buffer.drop (cursor + index + length) := by
            rw [List.drop_drop, Nat.add_assoc]
          rw [forwardFrames_some hstart, Nat.add_sub_cancel_left, hframe]
          by_cases hle : index ≤ maxFrameBytes
          · have hwhole : sseFront maxFrameBytes (buffer.drop cursor) =
                .frame ((buffer.drop cursor).take index) (index + length) := by
              simp only [sseFront, hfind, hle, if_true]
            have hnext {s : ForwardState} := @ih (buffer.length - (cursor + index + length))
              (by omega) (cursor + index + length) (cursor + index + length) s rfl rfl
            rw [Intake.drain_frame (hfront.trans hwhole), hrest, bind_of_ok (ensure_of hle _ s)]
            have hframe' := forwardFrame_eq ((buffer.drop cursor).take index) s
            generalize (buffer.drop cursor).take index = frame at hframe' ⊢
            cases hparse : parseSseFrame frame s.firstFrame with
            | error e =>
                have haccept : (sseConsumer maxFrameBytes).accept s.reading frame =
                    ⟨{ s.reading with failure := some e }, [], false⟩ := by
                  simp only [sseConsumer, ForwardState.reading, hparse]
                rw [hparse] at hframe'
                rw [bind_of_error hframe', haccept]
                rfl
            | ok event =>
                rw [hparse] at hframe'
                cases event with
                | none =>
                    have haccept : (sseConsumer maxFrameBytes).accept s.reading frame =
                        ⟨{ s.reading with firstFrame := false }, [], true⟩ := by
                      simp only [sseConsumer, ForwardState.reading, hparse]
                    rw [bind_of_ok hframe', haccept, intakeAfter_append, intakeAfter_append,
                      ← hnext]
                    rfl
                | some event =>
                    have haccept : (sseConsumer maxFrameBytes).accept s.reading frame =
                        ⟨{ s.reading with firstFrame := false }.see event, [event], true⟩ := by
                      simp only [sseConsumer, ForwardState.reading, hparse]
                    rw [bind_of_ok hframe', haccept, intakeAfter_append, intakeAfter_append,
                      ← hnext]
                    rfl
          · have hmalformed : sseFront maxFrameBytes (buffer.drop cursor) = .malformed () := by
              simp only [sseFront, hfind, hle, if_false]
            rw [Intake.drain_malformed (hfront.trans hmalformed),
              bind_of_error (ensure_of_not hle _ s)]
            rfl

/-! ## Chunks -/

/-- A reader that has searched what it holds. -/
structure Searched (s : ForwardState) : Prop where
  none : findSseDelimiter s.buffer 0 = none
  start : s.searchStart = s.buffer.length - 3

/-- What a state holds, to be read on. -/
def ForwardState.intake (s : ForwardState) : Intake UInt8 Reading := ⟨s.buffer, s.reading, false⟩

theorem findSseDelimiter_of_incomplete (h : sseFront maxFrameBytes buffer = .incomplete) :
    findSseDelimiter buffer 0 = none := by
  unfold sseFront at h
  split at h
  · split at h <;> cases h
  · assumption

/-- A chunk is fed to the reader. -/
theorem forwardChunk_feed {maxFrameBytes : Nat} {s : ForwardState} (hs : Searched s)
    (chunk : Bytes) :
    s.intake.feed (sseFraming maxFrameBytes) (sseConsumer maxFrameBytes) chunk =
        ((forwardChunk maxFrameBytes chunk s).2.2, intakeOf (forwardChunk maxFrameBytes chunk s)) ∧
      ((forwardChunk maxFrameBytes chunk s).1 = .ok () →
        Searched (forwardChunk maxFrameBytes chunk s).2.1) := by
  have hstart : findSseDelimiter (s.buffer ++ chunk) s.searchStart =
      findSseDelimiter (s.buffer ++ chunk) 0 := by
    rw [hs.start, findSseDelimiter_resume hs.none]
  have hdrain := @drain_eq_forwardFrames maxFrameBytes (s.buffer ++ chunk) 0 s.searchStart s hstart
  have hsettled := Intake.settled_drain (F := sseFraming maxFrameBytes)
    (C := sseConsumer maxFrameBytes) s.reading (s.buffer ++ chunk)
  rw [List.drop_zero] at hdrain
  have hfeed : s.intake.feed (sseFraming maxFrameBytes) (sseConsumer maxFrameBytes) chunk =
      Intake.drain (sseFraming maxFrameBytes) (sseConsumer maxFrameBytes) s.reading
        (s.buffer ++ chunk) := rfl
  rw [hfeed, hdrain]
  rw [hdrain] at hsettled
  unfold forwardChunk
  rw [bind_of_ok (show Effect.get s = (.ok s, s, []) from rfl)]
  rcases hr : forwardFrames maxFrameBytes (s.buffer ++ chunk) 0 s.searchStart s with
    ⟨e | cursor, s', out⟩
  · rw [bind_of_error hr]
    exact ⟨rfl, nofun⟩
  · rw [bind_of_ok hr]
    rw [hr] at hsettled
    simp only [intakeAfter] at hsettled ⊢
    generalize (s.buffer ++ chunk).drop cursor = rest at hsettled ⊢
    rw [bind_of_ok (show Effect.modify _ s' = (.ok (), _, []) from rfl)]
    generalize hnext : ({ s' with buffer := rest, searchStart := rest.length - 3 } : ForwardState) =
      next
    have hbuffer : next.buffer = rest := by rw [← hnext]
    have hreading : next.reading = s'.reading := by rw [← hnext]; rfl
    by_cases hle : rest.length ≤ maxFrameBytes + 3
    · simp only [ensure_of hle, if_pos hle, intakeOf, hbuffer, hreading, List.append_nil]
      simp only [if_pos hle] at hsettled
      refine ⟨rfl, fun _ => ⟨?_, ?_⟩⟩
      · rw [hbuffer]
        exact findSseDelimiter_of_incomplete (hsettled rfl)
      · rw [← hnext]
    · simp only [ensure_of_not hle, if_neg hle, intakeOf, hreading, List.append_nil]
      exact ⟨rfl, nofun⟩

theorem feedAll_of_closed {i : Intake UInt8 Reading} (h : i.closed = true) (chunks : List Bytes) :
    i.feedAll (sseFraming maxFrameBytes) (sseConsumer maxFrameBytes) chunks = ([], i) := by
  rw [Intake.feedAll_eq_feed fun hopen => absurd h (by simp [hopen]), Intake.feed, if_pos h]

/-- The chunks are fed one after another. -/
theorem forwardChunks_feedAll {maxFrameBytes : Nat} {s : ForwardState} (hs : Searched s)
    (chunks : List Bytes) :
    s.intake.feedAll (sseFraming maxFrameBytes) (sseConsumer maxFrameBytes) chunks =
      ((forwardChunks maxFrameBytes chunks s).2.2,
        intakeOf (forwardChunks maxFrameBytes chunks s)) := by
  induction chunks generalizing s with
  | nil => rfl
  | cons chunk chunks ih =>
      obtain ⟨hfeed, hsearched⟩ := @forwardChunk_feed maxFrameBytes s hs chunk
      rw [Intake.feedAll, hfeed, forwardChunks]
      rcases hr : forwardChunk maxFrameBytes chunk s with ⟨e | u, s', out⟩
      · rw [bind_of_error hr]
        dsimp only
        rw [feedAll_of_closed rfl, List.append_nil]
      · rw [hr] at hsearched
        have hrest := ih (hsearched rfl)
        rw [bind_of_ok hr]
        dsimp only
        rw [show intakeOf (Except.ok u, s', out) = s'.intake from rfl, hrest]
        rcases forwardChunks maxFrameBytes chunks s' with ⟨e | u, s'', more⟩ <;> rfl

/-! ## The end of the body -/

/-- How a call ends that has read everything. -/
def Reading.outcome (r : Reading) : Except ForwardFailure Unit :=
  match r.failure with
  | some e => .error e
  | none =>
    if r.sawTerminalEvent = true ∨ r.sawErrorEvent = true then .ok ()
    else .error .missingTerminal

/-- The last frame has no delimiter. -/
def closing (maxFrameBytes : Nat) (i : Intake UInt8 Reading) :
    List Json × Except ForwardFailure Unit :=
  if i.closed then ([], i.state.outcome)
  else if i.buffer.length ≤ maxFrameBytes then
    if i.buffer = [] then ([], i.state.outcome)
    else
      let answer := (sseConsumer maxFrameBytes).accept i.state i.buffer
      (answer.output, answer.state.outcome)
  else ([], .error (.frameTooLarge maxFrameBytes))

/-- The last check looks at what was seen. -/
theorem ensure_terminal (s : ForwardState) :
    (Effect.get >>= fun s : ForwardState =>
        (ensure (s.sawTerminalEvent = true ∨ s.sawErrorEvent = true) .missingTerminal :
          Forward Unit)) s = (s.reading.outcome, s, []) := by
  rw [bind_of_ok (show Effect.get s = (.ok s, s, []) from rfl)]
  by_cases hsaw : s.sawTerminalEvent = true ∨ s.sawErrorEvent = true
  · have houtcome : s.reading.outcome = .ok () := if_pos hsaw
    simp only [ensure_of hsaw, houtcome, List.append_nil]
  · have houtcome : s.reading.outcome = .error .missingTerminal := if_neg hsaw
    simp only [ensure_of_not hsaw, houtcome, List.append_nil]

theorem forwardEnd_eq (maxFrameBytes : Nat) (s : ForwardState) :
    ((forwardEnd maxFrameBytes s).2.2, (forwardEnd maxFrameBytes s).1) =
      closing maxFrameBytes s.intake := by
  unfold forwardEnd
  rw [bind_of_ok (show Effect.get s = (.ok s, s, []) from rfl)]
  by_cases hle : s.buffer.length ≤ maxFrameBytes
  · rw [bind_of_ok (ensure_of hle _ s)]
    by_cases hnil : s.buffer = []
    · have hclosing : closing maxFrameBytes s.intake = ([], s.reading.outcome) := by
        simp [closing, ForwardState.intake, hnil]
      rw [hclosing, whenever, if_neg (not_not.mpr hnil),
        bind_of_ok (show (pure () : Forward Unit) s = (.ok (), s, []) from rfl), ensure_terminal]
      rfl
    · have hclosing : closing maxFrameBytes s.intake =
          (((sseConsumer maxFrameBytes).accept s.reading s.buffer).output,
            ((sseConsumer maxFrameBytes).accept s.reading s.buffer).state.outcome) := by
        simp [closing, ForwardState.intake, hnil, hle]
      rw [hclosing, whenever, if_pos hnil]
      have hframe := forwardFrame_eq s.buffer s
      cases hparse : parseSseFrame s.buffer s.firstFrame with
      | error e =>
          rw [hparse] at hframe
          rw [bind_of_error hframe]
          simp [sseConsumer, ForwardState.reading, hparse, Reading.outcome]
      | ok event =>
          rw [hparse] at hframe
          cases event with
          | none =>
              rw [bind_of_ok hframe, ensure_terminal]
              simp [sseConsumer, ForwardState.reading, hparse]
          | some event =>
              rw [bind_of_ok hframe, ensure_terminal]
              simp [sseConsumer, ForwardState.reading, hparse, Reading.see]
  · have hclosing : closing maxFrameBytes s.intake =
        ([], .error (.frameTooLarge maxFrameBytes)) := by
      simp [closing, ForwardState.intake, hle]
    rw [hclosing, bind_of_error (ensure_of_not hle _ s)]
    rfl

theorem sseFront_nil (maxFrameBytes : Nat) : sseFront maxFrameBytes [] = .incomplete := by
  simp [sseFront, show findSseDelimiter [] 0 = none by decide]

theorem Searched.initial : Searched {} := ⟨by decide, rfl⟩

/-- A call reads the whole body, whatever the chunks. -/
theorem forwardBody_eq (maxFrameBytes : Nat) (chunks : List Bytes) :
    ((forwardBody maxFrameBytes chunks {}).2.2, (forwardBody maxFrameBytes chunks {}).1) =
      let fed := Intake.drain (sseFraming maxFrameBytes) (sseConsumer maxFrameBytes) {}
        chunks.flatten
      (fed.1 ++ (closing maxFrameBytes fed.2).1, (closing maxFrameBytes fed.2).2) := by
  have hsettled : Intake.Settled (sseFraming maxFrameBytes) (ForwardState.intake {}) :=
    fun _ => sseFront_nil maxFrameBytes
  have hfeed := @forwardChunks_feedAll maxFrameBytes {} Searched.initial chunks
  rw [Intake.feedAll_eq_feed hsettled] at hfeed
  have hdrain : Intake.drain (sseFraming maxFrameBytes) (sseConsumer maxFrameBytes) {}
      chunks.flatten = (ForwardState.intake {}).feed (sseFraming maxFrameBytes)
        (sseConsumer maxFrameBytes) chunks.flatten := rfl
  rw [hdrain, hfeed, forwardBody]
  rcases hr : forwardChunks maxFrameBytes chunks {} with ⟨e | u, s, out⟩
  · rw [bind_of_error hr]
    simp [intakeOf, closing, Reading.outcome]
  · rw [bind_of_ok hr]
    dsimp only
    rw [show intakeOf (Except.ok u, s, out) = s.intake from rfl, ← forwardEnd_eq]

/-! ## The frames of a body -/

/-- `frames` are the first frames of a body, each as long as the first delimiter after it
allows; what follows the last delimiter is a frame too. -/
inductive Cuts : Bytes → List Bytes → Prop
  | stop (body : Bytes) : Cuts body []
  | last {body : Bytes} (hne : body ≠ []) (h : Absent sseFrameBoundaries body) : Cuts body [body]
  | frame {body m : Bytes} {i : Nat} {frames : List Bytes}
      (h : IsEarliest sseFrameBoundaries body i m)
      (rest : Cuts (body.drop (i + m.length)) frames) : Cuts body (body.take i :: frames)

/-- The events of frames, up to the first that does not parse; only the first may have a byte
order mark. -/
def eventsOf (firstFrame : Bool) : List Bytes → List Json
  | [] => []
  | frame :: rest =>
    match parseSseFrame frame firstFrame with
    | .error _ => []
    | .ok event => event.toList ++ eventsOf false rest

/-- What a reader hands over while it reads a buffer and, with `closing`, at its end, is what
the frames of the buffer hold. -/
theorem drain_events (maxFrameBytes : Nat) (r : Reading) (buffer : Bytes) :
    ∃ frames, Cuts buffer frames ∧ (∀ f ∈ frames, f.length ≤ maxFrameBytes) ∧
      (Intake.drain (sseFraming maxFrameBytes) (sseConsumer maxFrameBytes) r buffer).1 ++
          (closing maxFrameBytes (Intake.drain (sseFraming maxFrameBytes)
            (sseConsumer maxFrameBytes) r buffer).2).1 = eventsOf r.firstFrame frames := by
  induction buffer using (sseFraming maxFrameBytes).induction generalizing r with
  | incomplete buffer hfront =>
      have hnone := findSseDelimiter_of_incomplete hfront
      rw [Intake.drain_incomplete hfront]
      by_cases hread : buffer.length ≤ maxFrameBytes ∧ buffer ≠ []
      · obtain ⟨hle, hne⟩ := hread
        refine ⟨[buffer], .last hne ?_, by simpa using hle, ?_⟩
        · simpa [findSseDelimiter, earliest_eq_none] using hnone
        · cases hparse : parseSseFrame buffer r.firstFrame with
          | error e => simp [closing, hle, hne, sseConsumer, eventsOf, hparse]
          | ok event => cases event <;> simp [closing, hle, hne, sseConsumer, eventsOf, hparse]
      · refine ⟨[], .stop buffer, by simp, ?_⟩
        by_cases hle : buffer.length ≤ maxFrameBytes
        · have hnil : buffer = [] := not_not.mp fun hne => hread ⟨hle, hne⟩
          simp [closing, hnil, eventsOf]
        · simp [closing, hle, eventsOf]
  | malformed buffer e hfront =>
      rw [Intake.drain_malformed hfront]
      exact ⟨[], .stop buffer, by simp, by simp [closing, sseConsumer, eventsOf]⟩
  | frame buffer f n hfront ih =>
      obtain ⟨index, length, hfind, hle, rfl, rfl⟩ := sseFront_eq_frame hfront
      obtain ⟨i, m, hm, hindex, rfl⟩ := findSseDelimiter_eq_some.mp hfind
      obtain rfl : index = i := by omega
      have hlength : (buffer.take index).length ≤ maxFrameBytes := by
        rw [List.length_take]
        omega
      rw [Intake.drain_frame hfront]
      cases hparse : parseSseFrame (buffer.take index) r.firstFrame with
      | error e =>
          refine ⟨[buffer.take index], .frame hm (.stop _), by simpa using hlength, ?_⟩
          simp [sseConsumer, hparse, closing, eventsOf]
      | ok event =>
          obtain ⟨frames, hcuts, hshort, hevents⟩ :=
            ih ((sseConsumer maxFrameBytes).accept r (buffer.take index)).state
          refine ⟨buffer.take index :: frames, .frame hm hcuts, ?_, ?_⟩
          · exact List.forall_mem_cons.mpr ⟨hlength, hshort⟩
          · have hfirst :
                ((sseConsumer maxFrameBytes).accept r (buffer.take index)).state.firstFrame =
                  false := by
              cases event <;> simp [sseConsumer, hparse, Reading.see]
            rw [hfirst] at hevents
            rw [eventsOf, hparse]
            dsimp only
            rw [← hevents]
            cases event <;> simp [sseConsumer, hparse, Reading.see]

/-! ## The call -/

/-- A call with an allowed limit reads the body. -/
theorem forwardResponsesSse_of_limit (htoNat : maxFrameBytes.toNat? = some limit)
    (hlimit : maxFrameBytes.isSafeInteger ∧ 1 ≤ limit) (chunks : List Bytes) :
    forwardResponsesSse (some chunks) maxFrameBytes =
      let fed := Intake.drain (sseFraming limit) (sseConsumer limit) {} chunks.flatten
      (fed.1 ++ (closing limit fed.2).1, (closing limit fed.2).2) := by
  rw [← forwardBody_eq limit chunks]
  simp only [forwardResponsesSse, htoNat, if_pos hlimit]

/-- A call without one reads nothing. -/
theorem forwardResponsesSse_of_not_limit
    (h : ¬∃ limit, maxFrameBytes.toNat? = some limit ∧ maxFrameBytes.isSafeInteger ∧ 1 ≤ limit)
    (chunks : List Bytes) :
    forwardResponsesSse (some chunks) maxFrameBytes = ([], .error .invalidLimit) := by
  cases htoNat : maxFrameBytes.toNat? with
  | none => simp only [forwardResponsesSse, htoNat]
  | some limit =>
      have hlimit : ¬(maxFrameBytes.isSafeInteger ∧ 1 ≤ limit) := fun hlimit =>
        h ⟨limit, htoNat, hlimit⟩
      simp only [forwardResponsesSse, htoNat, if_neg hlimit]

/-- Two splits of one body into chunks give the same events and the same end, and the events
are those of the body's frames, none of them over the limit. -/
theorem forwardResponsesSse_chunking {chunks chunks' : List Bytes} (maxFrameBytes : JsNumber)
    (hbody : chunks.flatten = chunks'.flatten) :
    forwardResponsesSse (some chunks) maxFrameBytes =
        forwardResponsesSse (some chunks') maxFrameBytes ∧
      ∃ frames, Cuts chunks.flatten frames ∧
        (∀ f ∈ frames, ∃ limit, maxFrameBytes.toNat? = some limit ∧ f.length ≤ limit) ∧
        (forwardResponsesSse (some chunks) maxFrameBytes).1 = eventsOf true frames := by
  by_cases hlimit :
      ∃ limit, maxFrameBytes.toNat? = some limit ∧ maxFrameBytes.isSafeInteger ∧ 1 ≤ limit
  · obtain ⟨limit, htoNat, hlimit⟩ := hlimit
    have hcall := forwardResponsesSse_of_limit htoNat hlimit
    obtain ⟨frames, hcuts, hshort, hevents⟩ := drain_events limit {} chunks.flatten
    refine ⟨by rw [hcall, hcall, hbody], frames, hcuts, fun f hf => ?_, ?_⟩
    · exact ⟨limit, htoNat, hshort f hf⟩
    · rw [hcall]
      exact hevents
  · have hcall := forwardResponsesSse_of_not_limit hlimit
    refine ⟨by rw [hcall, hcall], [], .stop _, by simp, ?_⟩
    rw [hcall]
    rfl

/-- A body that ends its first frame with CRLF CRLF, in one chunk and cut inside the
delimiter. -/
theorem forwardResponsesSse_splitDelimiter :
    let frame := (js "data:\x7b\"type\":\"error\"\x7d").map fun c => UInt8.ofNat c.toNat
    forwardResponsesSse (some [frame ++ [0x0D, 0x0A, 0x0D, 0x0A]]) (.ofNat 64) =
        forwardResponsesSse (some [frame ++ [0x0D], [0x0A, 0x0D], [0x0A]]) (.ofNat 64) ∧
      forwardResponsesSse (some [frame ++ [0x0D, 0x0A, 0x0D, 0x0A]]) (.ofNat 64) =
        ([.object [(js "type", .string (js "error"))]], .ok ()) :=
  ⟨(forwardResponsesSse_chunking _ (by decide +kernel)).1, by decide +kernel⟩

end StonePlus.Responses
