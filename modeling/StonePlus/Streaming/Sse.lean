import StonePlus.Js.Str
import StonePlus.Lib.Chunks

/-!
# StonePlus.Streaming.Sse

`SseFramer` of `gateway/streaming.ts`: server-sent events from text that
arrives in pieces.

The framer's callbacks never reach back into it, so a method returns what it
would call them with, in order.
-/

namespace StonePlus.Streaming

open Lib

/-- A call of `onEvent` or of `onError`. -/
inductive SseItem
  | event (name : Option JsString) (data : JsString)
  | error (message : JsString)

/-- The mutable fields of `SseFramer`. -/
structure SseFramer where
  buffer : JsString := []
  eventName : Option JsString := none
  dataLines : List JsString := []
  frameCharacters : Nat := 0
  failed : Bool := false

/-- The first line of a buffer and the length of its terminator: LF, CR LF or
CR.  A CR at the end of the buffer may be followed by its LF, unless nothing
follows any more. -/
def splitLine (final : Bool) : JsString → Option (JsString × Nat)
  | [] => none
  | c :: rest =>
    if c = 0x0A then some ([], 1)
    else if c = 0x0D then
      match rest with
      | [] => if final then some ([], 1) else none
      | d :: _ => some ([], if d = 0x0A then 2 else 1)
    else (splitLine final rest).map fun (line, terminator) => (c :: line, terminator)

/-- The field name of a line and its value, without one leading space. -/
def splitField (line : JsString) : JsString × JsString :=
  let value := (line.dropWhile fun c => c != 0x3A).drop 1
  (line.takeWhile fun c => c != 0x3A, if value.head? = some 0x20 then value.drop 1 else value)

namespace SseFramer

/-- `ensureWithinLimit`, when the limit is exceeded. -/
def overflow (maxBufferedCharacters : Nat) : List SseItem × SseFramer :=
  ([.error (js "SSE frame exceeded " ++ natToString maxBufferedCharacters ++
      js " buffered characters")], { failed := true })

def dispatch (f : SseFramer) : List SseItem × SseFramer :=
  (if f.dataLines = [] then [] else [.event f.eventName ([0x0A].intercalate f.dataLines)],
    { f with eventName := none, dataLines := [], frameCharacters := 0 })

def processLine (f : SseFramer) (line : JsString) : List SseItem × SseFramer :=
  if line = [] then f.dispatch
  else if line.head? = some 0x3A then ([], f)
  else
    let (field, value) := splitField line
    let f := if field = js "event" then { f with eventName := some value } else f
    ([], if field = js "data" then { f with dataLines := f.dataLines ++ [value] } else f)

theorem buffer_processLine (f : SseFramer) (line : JsString) :
    (f.processLine line).2.buffer = f.buffer := by
  unfold processLine dispatch
  dsimp only
  split_ifs <;> rfl

end SseFramer

theorem splitLine_length (h : splitLine final buffer = some (line, n)) :
    0 < n ∧ line.length + n ≤ buffer.length := by
  fun_induction splitLine final buffer generalizing line n with
  | case1 => cases h
  | case2 => cases h; simp
  | case3 => cases h; simp
  | case4 => cases h
  | case5 d =>
      cases h
      simp only [List.length_nil, List.length_cons]
      split_ifs <;> omega
  | case6 c rest hlf hcr ih =>
      obtain ⟨⟨line', n'⟩, hrest, heq⟩ := Option.map_eq_some_iff.mp h
      cases heq
      have := ih hrest
      simp only [List.length_cons]
      omega

namespace SseFramer

/-- Process every complete line of the buffer. -/
def drain (maxBufferedCharacters : Nat) (final : Bool) (f : SseFramer) :
    List SseItem × SseFramer :=
  match _h : splitLine final f.buffer with
  | none =>
    if maxBufferedCharacters < f.frameCharacters + f.buffer.length then overflow maxBufferedCharacters
    else ([], f)
  | some (line, terminator) =>
    let f' := { f with
      buffer := f.buffer.drop (line.length + terminator)
      frameCharacters := f.frameCharacters + line.length + terminator }
    if maxBufferedCharacters < f'.frameCharacters then overflow maxBufferedCharacters
    else
      let first := f'.processLine line
      let rest := drain maxBufferedCharacters final first.2
      (first.1 ++ rest.1, rest.2)
termination_by f.buffer.length
decreasing_by
  have := splitLine_length _h
  rw [buffer_processLine, List.length_drop]
  omega

/-- Append text and drain it. -/
def feed (maxBufferedCharacters : Nat) (f : SseFramer) (text : JsString) :
    List SseItem × SseFramer :=
  if f.failed then ([], f)
  else drain maxBufferedCharacters false { f with buffer := f.buffer ++ text }

/-- `push`: no slice reaches further than one character beyond the limit. -/
def push (maxBufferedCharacters : Nat) (f : SseFramer) (text : JsString) :
    List SseItem × SseFramer :=
  slices (feed maxBufferedCharacters) SseFramer.failed
    (fun f => maxBufferedCharacters + 1 - (f.frameCharacters + f.buffer.length)) f text

def finish (maxBufferedCharacters : Nat) (f : SseFramer) : List SseItem × SseFramer :=
  if f.failed then ([], f)
  else
    let drained := drain maxBufferedCharacters true f
    let f := drained.2
    let last := if f.buffer = [] then ([], f) else f.processLine f.buffer
    let dispatched := { last.2 with buffer := [] }.dispatch
    (drained.1 ++ last.1 ++ dispatched.1, dispatched.2)

end SseFramer

/-! ## More input -/

theorem splitLine_lf (final : Bool) (rest : JsString) :
    splitLine final (0x0A :: rest) = some ([], 1) := by
  unfold splitLine
  rw [if_pos rfl]

theorem splitLine_cr (final : Bool) (d : UInt16) (rest : JsString) :
    splitLine final (0x0D :: d :: rest) = some ([], if d = 0x0A then 2 else 1) := by
  unfold splitLine
  rw [if_neg (by decide), if_pos rfl]

theorem splitLine_other (final : Bool) (rest : JsString) (hlf : c ≠ 0x0A) (hcr : c ≠ 0x0D) :
    splitLine final (c :: rest) = (splitLine final rest).map fun r => (c :: r.1, r.2) := by
  rw [splitLine.eq_def]
  dsimp only
  rw [if_neg hlf, if_neg hcr]

/-- A complete line stays the first line. -/
theorem splitLine_append (h : splitLine false buffer = some (line, n)) (more : JsString) :
    splitLine false (buffer ++ more) = some (line, n) := by
  induction buffer generalizing line n with
  | nil => cases h
  | cons c rest ih =>
      rw [List.cons_append]
      by_cases hlf : c = 0x0A
      · subst hlf
        rwa [splitLine_lf] at h ⊢
      by_cases hcr : c = 0x0D
      · subst hcr
        cases rest with
        | nil => cases h
        | cons d rest =>
            rw [splitLine_cr] at h
            rw [List.cons_append, splitLine_cr, h]
      rw [splitLine_other _ _ hlf hcr] at h ⊢
      obtain ⟨⟨line', n'⟩, hrest, heq⟩ := Option.map_eq_some_iff.mp h
      rw [ih hrest, Option.map_some, heq]

/-- A line that more input completes ends behind the buffer. -/
theorem length_le_of_splitLine_append (h : splitLine false buffer = none)
    (hmore : splitLine final (buffer ++ more) = some (line, n)) :
    buffer.length ≤ line.length + n := by
  induction buffer generalizing line n with
  | nil => simp
  | cons c rest ih =>
      by_cases hlf : c = 0x0A
      · subst hlf
        rw [splitLine_lf] at h
        cases h
      by_cases hcr : c = 0x0D
      · subst hcr
        cases rest with
        | cons d rest =>
            rw [splitLine_cr] at h
            cases h
        | nil =>
            have := splitLine_length hmore
            rw [List.length_singleton]
            omega
      rw [splitLine_other _ _ hlf hcr] at h
      rw [List.cons_append, splitLine_other _ _ hlf hcr] at hmore
      obtain ⟨⟨line', n'⟩, hrest, heq⟩ := Option.map_eq_some_iff.mp hmore
      cases heq
      have := ih (Option.map_eq_none_iff.mp h) hrest
      simp only [List.length_cons]
      omega

namespace SseFramer

variable {maxBufferedCharacters : Nat}

theorem drain_none (h : splitLine final f.buffer = none) : drain maxBufferedCharacters final f =
      if maxBufferedCharacters < f.frameCharacters + f.buffer.length
      then overflow maxBufferedCharacters else ([], f) := by
  rw [drain]
  split <;> simp_all

/-- The framer with its first line taken out of the buffer. -/
def afterLine (f : SseFramer) (line : JsString) (terminator : Nat) : SseFramer :=
  { f with
    buffer := f.buffer.drop (line.length + terminator)
    frameCharacters := f.frameCharacters + line.length + terminator }

theorem drain_some (h : splitLine final f.buffer = some (line, n)) :
    drain maxBufferedCharacters final f =
      if maxBufferedCharacters < f.frameCharacters + line.length + n
      then overflow maxBufferedCharacters
      else (((f.afterLine line n).processLine line).1 ++
          (drain maxBufferedCharacters final ((f.afterLine line n).processLine line).2).1,
        (drain maxBufferedCharacters final ((f.afterLine line n).processLine line).2).2) := by
  rw [drain]
  split
  · simp_all
  · next line' n' h' =>
      obtain ⟨rfl, rfl⟩ : line = line' ∧ n = n' := by simpa [h] using h'
      rfl

theorem failed_processLine (f : SseFramer) (line : JsString) :
    (f.processLine line).2.failed = f.failed := by
  unfold processLine dispatch
  dsimp only
  split_ifs <;> rfl

/-- Text behind the buffer is not touched by a line. -/
theorem processLine_append (f : SseFramer) (line more : JsString) :
    { f with buffer := f.buffer ++ more }.processLine line =
      ((f.processLine line).1,
        { (f.processLine line).2 with buffer := (f.processLine line).2.buffer ++ more }) := by
  unfold processLine dispatch
  dsimp only
  split_ifs <;> rfl

theorem feed_overflow (more : JsString) :
    feed maxBufferedCharacters (overflow maxBufferedCharacters).2 more =
      ([], (overflow maxBufferedCharacters).2) := rfl

/-- Draining a longer buffer is draining its front part and then feeding the
rest. -/
theorem drain_append (hf : f.failed = false) (more : JsString) :
    drain maxBufferedCharacters false { f with buffer := f.buffer ++ more } =
      ((drain maxBufferedCharacters false f).1 ++
          (feed maxBufferedCharacters (drain maxBufferedCharacters false f).2 more).1,
        (feed maxBufferedCharacters (drain maxBufferedCharacters false f).2 more).2) := by
  generalize hlength : f.buffer.length = length
  induction length using Nat.strongRecOn generalizing f with
  | ind length ih =>
      cases h : splitLine false f.buffer with
      | none =>
          rw [drain_none h]
          by_cases hover : maxBufferedCharacters < f.frameCharacters + f.buffer.length
          · have hlonger : drain maxBufferedCharacters false { f with buffer := f.buffer ++ more } =
                overflow maxBufferedCharacters := by
              cases hmore : splitLine false (f.buffer ++ more) with
              | none =>
                  rw [drain_none hmore, if_pos]
                  simp only [List.length_append]
                  omega
              | some r =>
                  have := length_le_of_splitLine_append h hmore
                  rw [drain_some hmore, if_pos]
                  show maxBufferedCharacters < f.frameCharacters + r.1.length + r.2
                  omega
            rw [if_pos hover, feed_overflow, hlonger, List.append_nil]
          · rw [if_neg hover, feed, if_neg (by simp [hf]), List.nil_append]
      | some r =>
          obtain ⟨line, n⟩ := r
          obtain ⟨hpos, hle⟩ := splitLine_length h
          have hmore := splitLine_append h more
          have hafter : { f with buffer := f.buffer ++ more }.afterLine line n =
              { f.afterLine line n with buffer := (f.afterLine line n).buffer ++ more } := by
            simp [afterLine, List.drop_append_of_le_length hle]
          have hshorter : ((f.afterLine line n).processLine line).2.buffer.length < length := by
            rw [buffer_processLine, afterLine, List.length_drop]
            omega
          have hopen : ((f.afterLine line n).processLine line).2.failed = false :=
            (failed_processLine _ line).trans hf
          have hrest := ih _ hshorter hopen rfl
          rw [drain_some h, drain_some hmore, hafter, processLine_append]
          by_cases hover : maxBufferedCharacters < f.frameCharacters + line.length + n
          · rw [if_pos hover, if_pos hover, feed_overflow, List.append_nil]
          · rw [if_neg hover, if_neg hover, hrest, List.append_assoc]

/-- Text is read the same however it is cut. -/
theorem feed_additive : Additive (feed maxBufferedCharacters) := by
  intro f a b _
  cases hf : f.failed with
  | true => simp [feed, hf]
  | false =>
      have hopen : ¬ f.failed = true := by simp [hf]
      rw [feed, if_neg hopen, feed, if_neg hopen, ← List.append_assoc]
      exact drain_append (f := { f with buffer := f.buffer ++ a }) hf b

theorem push_eq_feed (f : SseFramer) (h : text ≠ []) :
    push maxBufferedCharacters f text = feed maxBufferedCharacters f text :=
  slices_eq_feed _ feed_additive (fun f text hf => by rw [feed, if_pos hf]) f h

end SseFramer

end StonePlus.Streaming
