import StonePlus.Kiro.Parser
import StonePlus.Lib.Framing

/-!
# StonePlus.Kiro.Chunking

The parser as an incremental reader of a framed byte stream, and its
independence of chunk boundaries.

`kiroFraming` reads a frame off the front of a byte list, `kiroConsumer`
handles frames, and `intake` forgets how the queue stores its bytes.  Each
method of the parser is the corresponding operation of the reader, so the
library's theorem about chunk boundaries is one about `push` and `finish`.
-/

namespace StonePlus.Kiro

open Lib

/-! ## The framing -/

/-- What the front of the unread bytes holds. -/
def frameFront (maxFrameBytes : Nat) (buffer : Bytes) : Front ParsedFrame Thrown :=
  if buffer.length < 12 then .incomplete
  else
    match readPrelude maxFrameBytes (buffer.take 12) with
    | .error e => .malformed e
    | .ok (total, headersLength) =>
      if buffer.length < total then .incomplete
      else
        match parseFrame (buffer.take total) headersLength with
        | .error e => .malformed e
        | .ok frame => .frame frame total

/-- What a complete frame at the front says about the buffer. -/
theorem frameFront_eq_frame (h : frameFront maxFrameBytes buffer = .frame f n) :
    12 ≤ buffer.length ∧ n ≤ buffer.length ∧ minFrameBytes ≤ n ∧
      ∃ headersLength, readPrelude maxFrameBytes (buffer.take 12) = .ok (n, headersLength) ∧
        parseFrame (buffer.take n) headersLength = .ok f := by
  unfold frameFront at h
  split at h
  · cases h
  · next hprelude =>
      cases hread : readPrelude maxFrameBytes (buffer.take 12) with
      | error e => simp [hread] at h
      | ok lengths =>
          obtain ⟨total, headersLength⟩ := lengths
          simp only [hread] at h
          split at h
          · cases h
          · next htotal =>
              cases hparse : parseFrame (buffer.take total) headersLength with
              | error e => simp [hparse] at h
              | ok frame =>
                  simp only [hparse] at h
                  cases h
                  exact ⟨not_lt.mp hprelude, not_lt.mp htotal, readPrelude_le hread,
                    headersLength, rfl, hparse⟩

/-- A decided front does not change when more bytes arrive. -/
theorem frameFront_append (h : frameFront maxFrameBytes buffer ≠ .incomplete) (more : Bytes) :
    frameFront maxFrameBytes (buffer ++ more) = frameFront maxFrameBytes buffer := by
  by_cases hprelude : buffer.length < 12
  · exact absurd (if_pos hprelude) h
  · have htake : (buffer ++ more).take 12 = buffer.take 12 :=
      List.take_append_of_le_length (not_lt.mp hprelude)
    have hlong : ¬(buffer ++ more).length < 12 := by
      rw [List.length_append]
      omega
    unfold frameFront at h ⊢
    rw [if_neg hprelude] at h
    rw [if_neg hprelude, if_neg hlong, htake]
    cases hread : readPrelude maxFrameBytes (buffer.take 12) with
    | error e => rfl
    | ok lengths =>
        obtain ⟨total, headersLength⟩ := lengths
        simp only [hread] at h ⊢
        by_cases htotal : buffer.length < total
        · exact absurd (if_pos htotal) h
        · have hmore : ¬(buffer ++ more).length < total := by
            rw [List.length_append]
            omega
          rw [if_neg htotal, if_neg hmore, List.take_append_of_le_length (not_lt.mp htotal)]

/-- AWS Event Stream frames of at most `maxFrameBytes` bytes. -/
def kiroFraming (maxFrameBytes : Nat) : Framing UInt8 ParsedFrame Thrown where
  front := frameFront maxFrameBytes
  size_pos := by
    intro buffer f n h
    obtain ⟨-, -, hmin, -⟩ := frameFront_eq_frame h
    exact lt_of_lt_of_le (by decide) hmin
  size_le := fun h => (frameFront_eq_frame h).2.1
  frame_append := fun h more => (frameFront_append (by rw [h]; nofun) more).trans h
  malformed_append := fun h more => (frameFront_append (by rw [h]; nofun) more).trans h

/-- The frame handler: a failure ends the stream with its three events. -/
def kiroConsumer (cfg : KiroConfig) :
    Consumer KiroState ParsedFrame Thrown CanonicalStreamEvent where
  accept := fun s frame =>
    match handleFrame cfg frame { s with sawFrame := true } with
    | (.ok _, s', events) => ⟨s', events, true⟩
    | (.error e, s', events) => ⟨s', events ++ failureEvents (asKiroFailure e), false⟩
  reject := fun s e => (s, failureEvents (asKiroFailure e))

/-! ## The parser refines the reader -/

/-- Reading a frame off the queue is reading it off the queue's bytes. -/
theorem readFrame_eq (maxFrameBytes : Nat) {q : ByteQueue} (h : 12 ≤ q.toList.length) :
    readFrame maxFrameBytes q =
      match frameFront maxFrameBytes q.toList with
      | .incomplete => .ok none
      | .malformed e => .error e
      | .frame f n => .ok (some (f, q.discard n)) := by
  unfold readFrame frameFront
  rw [ByteQueue.peek_eq h, if_neg (not_lt.mpr h)]
  simp only [inBounds, bind, Except.bind]
  cases hread : readPrelude maxFrameBytes (q.toList.take 12) with
  | error e => rfl
  | ok lengths =>
      obtain ⟨total, headersLength⟩ := lengths
      have hlength : q.length = q.toList.length := (ByteQueue.length_toList q).symm
      simp only [hlength]
      split
      · rfl
      · next henough =>
          rw [ByteQueue.read_eq (not_lt.mp henough)]
          dsimp only
          cases parseFrame (q.toList.take total) headersLength <;> rfl

namespace KiroEventStreamParser

/-- The reader a parser implements: the unread bytes, however they are stored. -/
def intake (p : KiroEventStreamParser) : Intake UInt8 KiroState :=
  ⟨p.bytes.toList, p.state, p.failed⟩

variable {p : KiroEventStreamParser}

theorem emitFailure_of_running (h : p.failed = false) (failure : KiroStreamFailure) :
    p.emitFailure failure = (failureEvents failure, { p with failed := true, bytes := .empty }) := by
  simp [emitFailure, h]

/-- One round of the frame loop of a running parser. -/
theorem drainFrames_running (cfg : KiroConfig) (hfailed : p.failed = false)
    (hfinished : p.finished = false) (h : 12 ≤ p.bytes.toList.length) : p.drainFrames cfg =
      match readFrame cfg.maxFrameBytes p.bytes with
      | .error e => p.emitFailure (asKiroFailure e)
      | .ok none => ([], p)
      | .ok (some (frame, bytes)) =>
        match handleFrame cfg frame { p.state with sawFrame := true } with
        | (.ok _, state, events) =>
          let rest := drainFrames cfg { p with bytes := bytes, state := state }
          (events ++ rest.1, rest.2)
        | (.error e, state, events) =>
          let failed := { p with bytes := bytes, state := state }.emitFailure (asKiroFailure e)
          (events ++ failed.1, failed.2) := by
  have hgo : (!p.failed && !p.finished && decide (12 ≤ p.bytes.length)) = true := by
    rw [ByteQueue.length_toList] at h
    simp [hfailed, hfinished, ByteQueue.length, h]
  rw [drainFrames, if_pos hgo]
  split
  · next e hread => rw [hread]
  · next hread => rw [hread]
  · next frame bytes hread =>
      rw [hread]
      all_goals rfl

theorem drainFrames_waiting (cfg : KiroConfig) (h : ¬12 ≤ p.bytes.toList.length) :
    p.drainFrames cfg = ([], p) := by
  rw [ByteQueue.length_toList] at h
  rw [drainFrames, if_neg (by simp [ByteQueue.length, h])]

/-- The frame loop of a running parser hands over the frames of its bytes. -/
theorem drainFrames_eq (cfg : KiroConfig) {p : KiroEventStreamParser} (hfailed : p.failed = false)
    (hfinished : p.finished = false) :
    (p.drainFrames cfg).1 = (Intake.drain (kiroFraming cfg.maxFrameBytes) (kiroConsumer cfg)
        p.state p.bytes.toList).1 ∧
      (p.drainFrames cfg).2.intake = (Intake.drain (kiroFraming cfg.maxFrameBytes)
        (kiroConsumer cfg) p.state p.bytes.toList).2 ∧
      (p.drainFrames cfg).2.finished = false := by
  induction hsize : p.bytes.byteLength using Nat.strongRecOn generalizing p with
  | ind size ih =>
      by_cases hprelude : 12 ≤ p.bytes.toList.length
      · rw [drainFrames_running cfg hfailed hfinished hprelude, readFrame_eq _ hprelude]
        match hfront : frameFront cfg.maxFrameBytes p.bytes.toList with
        | .incomplete =>
            rw [Intake.drain_incomplete hfront]
            exact ⟨rfl, by rw [intake, hfailed], hfinished⟩
        | .malformed e =>
            rw [Intake.drain_malformed hfront]
            simp only [emitFailure_of_running hfailed]
            exact ⟨rfl, rfl, hfinished⟩
        | .frame frame n =>
            rw [Intake.drain_frame hfront]
            dsimp only
            match hhandle : handleFrame cfg frame { p.state with sawFrame := true } with
            | (.error e, state, events) =>
                have haccept : (kiroConsumer cfg).accept p.state frame =
                    ⟨state, events ++ failureEvents (asKiroFailure e), false⟩ := by
                  simp only [kiroConsumer, hhandle]
                rw [haccept, if_neg Bool.false_ne_true]
                dsimp only
                rw [emitFailure_of_running (by exact hfailed)]
                exact ⟨rfl, rfl, hfinished⟩
            | (.ok _, state, events) =>
                have haccept : (kiroConsumer cfg).accept p.state frame = ⟨state, events, true⟩ := by
                  simp only [kiroConsumer, hhandle]
                have hsmaller : (p.bytes.discard n).byteLength < size := by
                  have hread := readFrame_eq cfg.maxFrameBytes hprelude
                  rw [hfront] at hread
                  exact hsize ▸ readFrame_lt hread
                obtain ⟨hevents, hintake, hdone⟩ := @ih _ hsmaller
                  { p with bytes := p.bytes.discard n, state := state } hfailed hfinished rfl
                rw [haccept, if_pos rfl]
                rw [ByteQueue.toList_discard] at hevents hintake
                exact ⟨congrArg (events ++ ·) hevents, hintake, hdone⟩
      · have hfront : (kiroFraming cfg.maxFrameBytes).front p.bytes.toList = .incomplete :=
          if_pos (not_le.mp hprelude)
        rw [drainFrames_waiting cfg hprelude, Intake.drain_incomplete hfront]
        exact ⟨rfl, by rw [intake, hfailed], hfinished⟩

/-- `push` on a parser that is not finished feeds the reader. -/
theorem push_eq (cfg : KiroConfig) (hfinished : p.finished = false)
    (hsettled : p.intake.Settled (kiroFraming cfg.maxFrameBytes)) (chunk : Bytes) :
    (p.push cfg chunk).1 =
        (p.intake.feed (kiroFraming cfg.maxFrameBytes) (kiroConsumer cfg) chunk).1 ∧
      (p.push cfg chunk).2.intake =
        (p.intake.feed (kiroFraming cfg.maxFrameBytes) (kiroConsumer cfg) chunk).2 ∧
      (p.push cfg chunk).2.finished = false := by
  cases hfailed : p.failed with
  | true =>
      have hclosed : p.intake.closed = true := hfailed
      have hpush : p.push cfg chunk = ([], p) := by simp [push, hfailed]
      rw [hpush, Intake.feed, if_pos hclosed]
      exact ⟨rfl, rfl, hfinished⟩
  | false =>
      by_cases hempty : chunk = []
      · have hpush : p.push cfg chunk = ([], p) := by simp [push, hempty]
        rw [hpush, hempty, Intake.feed_nil hsettled]
        exact ⟨rfl, rfl, hfinished⟩
      · have hpush : p.push cfg chunk =
            { p with bytes := p.bytes.push chunk }.drainFrames cfg := by
          simp [push, hfailed, hfinished, hempty]
        have hopen : ¬p.intake.closed = true := by rw [intake, hfailed]; exact Bool.false_ne_true
        obtain ⟨hevents, hintake, hdone⟩ := @drainFrames_eq cfg
          { p with bytes := p.bytes.push chunk } hfailed hfinished
        rw [ByteQueue.toList_push] at hevents hintake
        rw [hpush, Intake.feed, if_neg hopen]
        exact ⟨hevents, hintake, hdone⟩

/-- Pushing chunks feeds the reader one chunk after another. -/
theorem pushAll_eq (cfg : KiroConfig) {p : KiroEventStreamParser} (hfinished : p.finished = false)
    (hsettled : p.intake.Settled (kiroFraming cfg.maxFrameBytes)) (chunks : List Bytes) :
    (p.pushAll cfg chunks).1 =
        (p.intake.feedAll (kiroFraming cfg.maxFrameBytes) (kiroConsumer cfg) chunks).1 ∧
      (p.pushAll cfg chunks).2.intake =
        (p.intake.feedAll (kiroFraming cfg.maxFrameBytes) (kiroConsumer cfg) chunks).2 ∧
      (p.pushAll cfg chunks).2.finished = false := by
  induction chunks generalizing p with
  | nil => exact ⟨rfl, rfl, hfinished⟩
  | cons chunk chunks ih =>
      obtain ⟨hevents, hintake, hdone⟩ := push_eq cfg hfinished hsettled chunk
      have hnext : (p.push cfg chunk).2.intake.Settled (kiroFraming cfg.maxFrameBytes) := by
        rw [hintake]
        exact Intake.settled_feed hsettled chunk
      obtain ⟨hevents', hintake', hdone'⟩ := ih hdone hnext
      rw [hintake] at hevents' hintake'
      refine ⟨?_, hintake', hdone'⟩
      rw [pushAll, Intake.feedAll, hevents, hevents']

/-! ## The end of the stream -/

variable {q : KiroEventStreamParser}

theorem length_congr (h : p.intake = q.intake) : p.bytes.length = q.bytes.length := by
  have hbytes : p.bytes.toList = q.bytes.toList := congrArg Intake.buffer h
  show p.bytes.byteLength = q.bytes.byteLength
  rw [← ByteQueue.length_toList, ← ByteQueue.length_toList, hbytes]

theorem endFailure?_congr (h : p.intake = q.intake) : p.endFailure? = q.endFailure? := by
  have hstate : p.state = q.state := congrArg Intake.state h
  unfold endFailure?
  rw [length_congr h, hstate]

theorem emitFailure_congr (h : p.intake = q.intake) (failure : KiroStreamFailure) :
    (p.emitFailure failure).1 = (q.emitFailure failure).1 ∧
      (p.emitFailure failure).2.intake = (q.emitFailure failure).2.intake := by
  have hfailed : p.failed = q.failed := congrArg Intake.closed h
  have hstate : p.state = q.state := congrArg Intake.state h
  unfold emitFailure
  rw [hfailed]
  split
  · exact ⟨rfl, h⟩
  · simp only [intake, hstate]
    exact ⟨trivial, trivial⟩

theorem finishDrained_congr (cfg : KiroConfig) (h : p.intake = q.intake) :
    (p.finishDrained cfg).1 = (q.finishDrained cfg).1 ∧
      (p.finishDrained cfg).2.intake = (q.finishDrained cfg).2.intake := by
  have hbytes : p.bytes.toList = q.bytes.toList := congrArg Intake.buffer h
  have hstate : p.state = q.state := congrArg Intake.state h
  have hfailed : p.failed = q.failed := congrArg Intake.closed h
  unfold finishDrained
  rw [endFailure?_congr h, hstate]
  cases q.endFailure? with
  | some failure => exact emitFailure_congr h failure
  | none =>
      match completeStream cfg q.state with
      | (.ok _, state, events) =>
          have hrest : (⟨p.bytes.toList, state, p.failed⟩ : Intake UInt8 KiroState) =
              ⟨q.bytes.toList, state, q.failed⟩ :=
            Intake.ext hbytes rfl hfailed
          exact ⟨rfl, hrest⟩
      | (.error e, state, events) =>
          have hrest : ({ p with state := state } : KiroEventStreamParser).intake =
              ({ q with state := state } : KiroEventStreamParser).intake :=
            Intake.ext hbytes rfl hfailed
          obtain ⟨hevents, hintake⟩ := emitFailure_congr hrest (asKiroFailure e)
          exact ⟨congrArg (events ++ ·) hevents, hintake⟩

theorem finish_failed (cfg : KiroConfig) (hfinished : p.finished = false)
    (hfailed : p.failed = true) : p.finish cfg = ([], { p with finished := true }) := by
  rw [finish, if_neg (by rw [hfinished]; exact Bool.false_ne_true), if_pos hfailed]

theorem finish_running (cfg : KiroConfig) (hfinished : p.finished = false)
    (hfailed : p.failed = false) : p.finish cfg =
      if (p.drainFrames cfg).2.failed then
        ((p.drainFrames cfg).1, { (p.drainFrames cfg).2 with finished := true })
      else
        ((p.drainFrames cfg).1 ++ ((p.drainFrames cfg).2.finishDrained cfg).1,
          ((p.drainFrames cfg).2.finishDrained cfg).2) := by
  rw [finish, if_neg (by rw [hfinished]; exact Bool.false_ne_true),
    if_neg (by rw [hfailed]; exact Bool.false_ne_true)]

/-- `finish` depends on the unread bytes, not on how the queue stores them. -/
theorem finish_congr (cfg : KiroConfig) (hp : p.finished = false) (hq : q.finished = false)
    (h : p.intake = q.intake) :
    (p.finish cfg).1 = (q.finish cfg).1 ∧ (p.finish cfg).2.intake = (q.finish cfg).2.intake := by
  have hbytes : p.bytes.toList = q.bytes.toList := congrArg Intake.buffer h
  have hstate : p.state = q.state := congrArg Intake.state h
  have hfailed : p.failed = q.failed := congrArg Intake.closed h
  cases hq' : q.failed with
  | true =>
      rw [finish_failed cfg hp (hfailed.trans hq'), finish_failed cfg hq hq']
      exact ⟨rfl, h⟩
  | false =>
      obtain ⟨hpevents, hpintake, -⟩ := drainFrames_eq cfg (hfailed.trans hq') hp
      obtain ⟨hqevents, hqintake, -⟩ := drainFrames_eq cfg hq' hq
      have hevents : (p.drainFrames cfg).1 = (q.drainFrames cfg).1 := by
        rw [hpevents, hqevents, hbytes, hstate]
      have hintake : (p.drainFrames cfg).2.intake = (q.drainFrames cfg).2.intake := by
        rw [hpintake, hqintake, hbytes, hstate]
      have hclosed : (p.drainFrames cfg).2.failed = (q.drainFrames cfg).2.failed :=
        congrArg Intake.closed hintake
      obtain ⟨hrest, hend⟩ := finishDrained_congr cfg hintake
      rw [finish_running cfg hp (hfailed.trans hq'), finish_running cfg hq hq', hclosed, hevents,
        hrest]
      split
      · exact ⟨rfl, hintake⟩
      · exact ⟨rfl, hend⟩

/-! ## Main result -/

theorem settled_init (maxFrameBytes : Nat) :
    ({} : KiroEventStreamParser).intake.Settled (kiroFraming maxFrameBytes) :=
  fun _ => rfl

/-- Chunk boundaries do not matter: two ways to split a byte sequence give the
same events, in the same order, and the same diagnostics. -/
theorem run_eq_of_flatten_eq (cfg : KiroConfig) {bytes : Bytes} {chunks chunks' : List Bytes}
    (h : chunks.flatten = bytes) (h' : chunks'.flatten = bytes) :
    (run cfg chunks).1 = (run cfg chunks').1 ∧
      (run cfg chunks).2.getDiagnostics = (run cfg chunks').2.getDiagnostics := by
  obtain ⟨hevents, hintake, hdone⟩ :=
    @pushAll_eq cfg {} rfl (settled_init cfg.maxFrameBytes) chunks
  obtain ⟨hevents', hintake', hdone'⟩ :=
    @pushAll_eq cfg {} rfl (settled_init cfg.maxFrameBytes) chunks'
  rw [Intake.feedAll_eq_feed (settled_init cfg.maxFrameBytes), h] at hevents hintake
  rw [Intake.feedAll_eq_feed (settled_init cfg.maxFrameBytes), h'] at hevents' hintake'
  obtain ⟨hend, hlast⟩ := finish_congr cfg hdone hdone' (hintake.trans hintake'.symm)
  have hstate := congrArg Intake.state hlast
  refine ⟨?_, congrArg KiroState.diagnostics hstate⟩
  rw [run, run, hevents, hevents', hend]

/-- The configuration of a parser that declares no tool and sets no limit. -/
def plainConfig : KiroConfig :=
  ⟨fun _ => none, [], ∅, 4 * 1024 * 1024, 16 * 1024 * 1024, 128, 4 * 1024 * 1024, 64, 64, 128⟩

example : KiroConfig.create (fun _ => none) {} = .ok plainConfig := rfl

/-- A truncated prelude, in two pieces and in one. -/
theorem run_eq_of_split_prelude :
    (run plainConfig [[0, 0], [], [0, 16, 0]]).1 = (run plainConfig [[0, 0, 0, 16, 0]]).1 ∧
      (run plainConfig [[0, 0], [], [0, 16, 0]]).2.getDiagnostics =
        (run plainConfig [[0, 0, 0, 16, 0]]).2.getDiagnostics :=
  @run_eq_of_flatten_eq plainConfig [0, 0, 0, 16, 0] _ _ rfl rfl

end KiroEventStreamParser

end StonePlus.Kiro
