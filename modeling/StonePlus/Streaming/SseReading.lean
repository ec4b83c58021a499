import StonePlus.Streaming.ResponsesTermination
import StonePlus.Streaming.Sse

/-!
# StonePlus.Streaming.SseReading

What `SseFramer` holds and what it reads.

Between two pieces it holds no more characters than its limit.  What the encoders write it reads
back: every frame is an event of its own, however the text is cut on its way, as the data of a
frame is the text of a JSON value, which no line terminator cuts.
-/

namespace StonePlus

/-! ## Texts of one line -/

/-- No line terminator cuts the text. -/
def OneLine (s : JsString) : Prop := ∀ c ∈ s, c ≠ 0x0A ∧ c ≠ 0x0D

instance (s : JsString) : Decidable (OneLine s) := List.decidableBAll _ s

@[simp] theorem oneLine_append : OneLine (s ++ t) ↔ OneLine s ∧ OneLine t :=
  List.forall_mem_append

@[simp] theorem oneLine_cons : OneLine (c :: s) ↔ (c ≠ 0x0A ∧ c ≠ 0x0D) ∧ OneLine s :=
  List.forall_mem_cons

theorem OneLine.take (h : OneLine s) (n : Nat) : OneLine (s.take n) :=
  fun c hc => h c (List.mem_of_mem_take hc)

theorem OneLine.drop (h : OneLine s) (n : Nat) : OneLine (s.drop n) :=
  fun c hc => h c (List.mem_of_mem_drop hc)

theorem ofNat_no_break (hlow : 0x20 ≤ n) (hhigh : n < 0x10000) :
    UInt16.ofNat n ≠ 0x0A ∧ UInt16.ofNat n ≠ 0x0D := by
  have htoNat : (UInt16.ofNat n).toNat = n := Nat.mod_eq_of_lt hhigh
  constructor
  all_goals
    intro heq
    rw [heq] at htoNat
    simp at htoNat
    omega

theorem oneLine_natToString (n : Nat) : OneLine (natToString n) := by
  intro u hu
  obtain ⟨c, hc, rfl⟩ := List.mem_map.mp hu
  have hdigit := Nat.isDigit_of_mem_toDigits (by decide) (by decide) hc
  simp [Char.isDigit, UInt32.le_iff_toNat_le] at hdigit
  exact ofNat_no_break (by omega) (by omega)

theorem oneLine_zeros (n : Nat) : OneLine (JsNumber.zeros n) := by
  intro c hc
  rw [List.eq_of_mem_replicate hc]
  decide

theorem oneLine_layout (h : OneLine digits) (n : Int) : OneLine (JsNumber.layout digits n) := by
  have hdot : OneLine (js ".") ∧ OneLine (js "0.") ∧ OneLine (js "e") ∧ OneLine (js "-") ∧
    OneLine (js "+") ∧ OneLine [] := by decide
  unfold JsNumber.layout
  dsimp only
  split_ifs <;> simp only [oneLine_append, h, h.take, h.drop, oneLine_zeros, oneLine_natToString,
    hdot, and_self]

theorem oneLine_toJsString (n : JsNumber) : OneLine n.toJsString := by
  unfold JsNumber.toJsString
  split
  · split_ifs <;> decide
  · split_ifs
    · decide
    all_goals
      dsimp only
      split
      · exact oneLine_append.mpr ⟨by decide, oneLine_layout (oneLine_natToString _) _⟩
      · decide

theorem hexDigit_no_break (h : n < 16) : Json.hexDigit n ≠ 0x0A ∧ Json.hexDigit n ≠ 0x0D := by
  unfold Json.hexDigit
  split_ifs
  · exact ofNat_no_break (by omega) (by omega)
  · exact ofNat_no_break (by omega) (by omega)

theorem oneLine_unicodeEscape (h : c < 0x10000) : OneLine (Json.unicodeEscape c) := by
  rw [Json.unicodeEscape, oneLine_append]
  simp only [oneLine_cons]
  exact ⟨by decide, hexDigit_no_break (by omega), hexDigit_no_break (by omega),
    hexDigit_no_break (by omega), hexDigit_no_break (by omega), by decide⟩

/-- A code point is escaped or no control character. -/
theorem oneLine_quoteCodePoint (h : c < 0x110000) : OneLine (Json.quoteCodePoint c) := by
  unfold Json.quoteCodePoint
  split_ifs
  iterate 7 · decide
  · rename_i hescape
    refine oneLine_unicodeEscape ?_
    simp only [Bool.or_eq_true, decide_eq_true_eq, JsString.isSurrogate, Bool.and_eq_true]
      at hescape
    omega
  · rename_i hplain
    simp only [Bool.or_eq_true, decide_eq_true_eq, not_or, not_lt] at hplain
    unfold JsString.utf16
    split_ifs with hlt
    · exact oneLine_cons.mpr ⟨ofNat_no_break hplain.1 hlt, by decide⟩
    · exact oneLine_cons.mpr ⟨ofNat_no_break (by omega) (by omega),
        oneLine_cons.mpr ⟨ofNat_no_break (by omega) (by omega), by decide⟩⟩

theorem oneLine_quote (s : JsString) : OneLine (Json.quote s) := by
  rw [Json.quote, oneLine_append, oneLine_append]
  refine ⟨⟨by decide, fun u hu => ?_⟩, by decide⟩
  obtain ⟨c, hc, hu⟩ := List.mem_flatMap.mp hu
  exact oneLine_quoteCodePoint (JsString.lt_of_mem_codePoints hc) u hu

theorem oneLine_join (h : ∀ part ∈ parts, OneLine part) : OneLine (Json.join (js ",") parts) := by
  unfold Json.join
  induction parts with
  | nil => decide
  | cons part parts ih =>
      obtain ⟨hpart, hparts⟩ := List.forall_mem_cons.mp h
      by_cases hnil : parts = []
      · subst hnil
        simpa using hpart
      · rw [List.intercalate_cons_of_ne_nil hnil, oneLine_append, oneLine_append]
        exact ⟨⟨hpart, by decide⟩, ih hparts⟩

mutual

theorem oneLine_stringify : (v : Json) → OneLine v.stringify
  | .null => by decide
  | .bool b => by cases b <;> decide
  | .number n => by
      rw [Json.stringify, Json.stringifyNumber]
      split_ifs
      · exact oneLine_toJsString n
      · decide
  | .string s => by
      rw [Json.stringify]
      exact oneLine_quote s
  | .array items => by
      rw [Json.stringify, oneLine_append, oneLine_append]
      exact ⟨⟨by decide, oneLine_join (oneLine_stringifyItems items)⟩, by decide⟩
  | .object entries => by
      rw [Json.stringify, oneLine_append, oneLine_append]
      exact ⟨⟨by decide, oneLine_join (oneLine_stringifyEntries entries)⟩, by decide⟩

theorem oneLine_stringifyItems :
    (items : List Json) → ∀ part ∈ Json.stringifyItems items, OneLine part
  | [] => by simp [Json.stringifyItems]
  | v :: vs => by
      rw [Json.stringifyItems]
      exact List.forall_mem_cons.mpr ⟨oneLine_stringify v, oneLine_stringifyItems vs⟩

theorem oneLine_stringifyEntries :
    (entries : List (JsString × Json)) → ∀ part ∈ Json.stringifyEntries entries, OneLine part
  | [] => by simp [Json.stringifyEntries]
  | (k, v) :: es => by
      rw [Json.stringifyEntries]
      refine List.forall_mem_cons.mpr ⟨?_, oneLine_stringifyEntries es⟩
      rw [oneLine_append, oneLine_append]
      exact ⟨⟨oneLine_quote k, by decide⟩, oneLine_stringify v⟩

end

end StonePlus

namespace StonePlus.Streaming

open Lib

/-! ## What is held back -/

namespace SseFramer

variable {maxBufferedCharacters : Nat}

theorem push_nil (f : SseFramer) : push maxBufferedCharacters f [] = ([], f) := by
  rw [push, slices, if_pos (Or.inl rfl)]

/-- The characters of the event that has not been dispatched. -/
def pending (f : SseFramer) : Nat :=
  (f.eventName.getD []).length + (f.dataLines.map List.length).sum

/-- What is pending is counted, and what is counted keeps within the limit. -/
structure Bounded (maxBufferedCharacters : Nat) (f : SseFramer) : Prop where
  counted : f.pending ≤ f.frameCharacters
  within : f.frameCharacters + f.buffer.length ≤ maxBufferedCharacters

theorem bounded_empty : Bounded maxBufferedCharacters {} := ⟨Nat.le_refl 0, Nat.zero_le _⟩

theorem bounded_overflow : Bounded maxBufferedCharacters (overflow maxBufferedCharacters).2 :=
  ⟨Nat.le_refl 0, Nat.zero_le _⟩

theorem length_splitField_le (line : JsString) : (splitField line).2.length ≤ line.length := by
  have hrest := (List.dropWhile_sublist (l := line) fun c => c != 0x3A).length_le
  unfold splitField
  dsimp only
  split <;> simp only [List.length_drop] <;> omega

/-- A line that has been counted pays for what is kept of it. -/
theorem pending_processLine {f : SseFramer} (h : f.pending + line.length ≤ f.frameCharacters) :
    (f.processLine line).2.pending ≤ (f.processLine line).2.frameCharacters := by
  have hvalue := length_splitField_le line
  unfold pending at h
  unfold processLine
  split
  · exact Nat.le_refl 0
  split
  · exact Nat.le_trans (Nat.le_add_right _ _) h
  dsimp only
  split_ifs with hdata hevent
  · rw [hdata] at hevent
    exact absurd hevent (by decide)
  all_goals
    simp only [pending, List.map_append, List.sum_append, List.map_cons, List.map_nil,
      List.sum_cons, List.sum_nil, Option.getD_some]
    omega

theorem bounded_drain {f : SseFramer} (h : f.pending ≤ f.frameCharacters) :
    Bounded maxBufferedCharacters (drain maxBufferedCharacters final f).2 := by
  generalize hlength : f.buffer.length = length
  induction length using Nat.strongRecOn generalizing f with
  | ind length ih =>
      cases hsplit : splitLine final f.buffer with
      | none =>
          rw [drain_none hsplit]
          split
          · exact bounded_overflow
          · next hfit => exact ⟨h, Nat.not_lt.mp hfit⟩
      | some r =>
          obtain ⟨line, n⟩ := r
          obtain ⟨hpos, hle⟩ := splitLine_length hsplit
          rw [drain_some hsplit]
          split
          · exact bounded_overflow
          · have hshorter : ((f.afterLine line n).processLine line).2.buffer.length < length := by
              rw [buffer_processLine, afterLine, List.length_drop]
              omega
            refine ih _ hshorter (pending_processLine ?_) rfl
            show f.pending + line.length ≤ f.frameCharacters + line.length + n
            omega

theorem Bounded.feed {f : SseFramer} (h : Bounded maxBufferedCharacters f) (text : JsString) :
    Bounded maxBufferedCharacters (f.feed maxBufferedCharacters text).2 := by
  unfold SseFramer.feed
  split
  · exact h
  · exact bounded_drain h.counted

theorem Bounded.push {f : SseFramer} (h : Bounded maxBufferedCharacters f) (text : JsString) :
    Bounded maxBufferedCharacters (f.push maxBufferedCharacters text).2 := by
  by_cases htext : text = []
  · rwa [htext, push_nil]
  · rw [push_eq_feed f htext]
    exact h.feed text

theorem Bounded.chunks {f : SseFramer} (h : Bounded maxBufferedCharacters f)
    (pieces : List JsString) :
    Bounded maxBufferedCharacters (chunks (SseFramer.push maxBufferedCharacters) f pieces).2 := by
  induction pieces generalizing f with
  | nil => exact h
  | cons piece pieces ih => exact ih (h.push piece)

/-- Between two pieces of a body a framer holds no more characters than its limit. -/
theorem retained_le (maxBufferedCharacters : Nat) (pieces : List JsString) :
    let f := (chunks (SseFramer.push maxBufferedCharacters) {} pieces).2
    f.buffer.length + f.pending ≤ maxBufferedCharacters := by
  have h : Bounded maxBufferedCharacters _ := bounded_empty.chunks pieces
  have hcounted := h.counted
  have hwithin := h.within
  dsimp only
  omega

end SseFramer

/-! ## Lines and frames -/

theorem splitLine_oneLine (h : OneLine line) (rest : JsString) :
    splitLine final (line ++ 0x0A :: rest) = some (line, 1) := by
  induction line with
  | nil => exact splitLine_lf final rest
  | cons c line ih =>
      obtain ⟨⟨hlf, hcr⟩, hline⟩ := oneLine_cons.mp h
      rw [List.cons_append, splitLine_other _ _ hlf hcr, ih hline]
      rfl

namespace SseFramer

variable {maxBufferedCharacters : Nat}

/-- The first line of a buffer, when it keeps within the limit. -/
theorem drain_line {f : SseFramer} (hbuffer : f.buffer = line ++ 0x0A :: rest)
    (hline : OneLine line) (hfit : f.frameCharacters + line.length + 1 ≤ maxBufferedCharacters) :
    drain maxBufferedCharacters false f =
      (((f.afterLine line 1).processLine line).1 ++
          (drain maxBufferedCharacters false ((f.afterLine line 1).processLine line).2).1,
        (drain maxBufferedCharacters false ((f.afterLine line 1).processLine line).2).2) := by
  rw [drain_some (by rw [hbuffer]; exact splitLine_oneLine hline rest), if_neg (by omega)]

theorem afterLine_buffer {f : SseFramer} (hbuffer : f.buffer = line ++ 0x0A :: rest) :
    f.afterLine line 1 =
      { f with buffer := rest, frameCharacters := f.frameCharacters + line.length + 1 } := by
  have hrest : f.buffer.drop (line.length + 1) = rest := by
    rw [hbuffer, List.append_cons, List.drop_left']
    simp
  rw [afterLine, hrest]

theorem processLine_event (f : SseFramer) (name : JsString) :
    f.processLine (js "event: " ++ name) = ([], { f with eventName := some name }) := rfl

theorem processLine_data (f : SseFramer) (data : JsString) :
    f.processLine (js "data: " ++ data) = ([], { f with dataLines := f.dataLines ++ [data] }) := rfl

/-- The empty line behind one line of data. -/
theorem processLine_nil {f : SseFramer} (h : f.dataLines = [data]) :
    f.processLine [] = ([.event f.eventName data],
      { f with eventName := none, dataLines := [], frameCharacters := 0 }) := by
  rw [processLine, if_pos rfl, dispatch, h, if_neg (by simp), List.intercalate_singleton]

/-- The data line of a frame and the empty line behind it. -/
theorem drain_data (hdata : OneLine data) (name : Option JsString)
    (hfit : start + data.length + 8 ≤ maxBufferedCharacters) (rest : JsString) :
    drain maxBufferedCharacters false
        { buffer := js "data: " ++ data ++ js "\n\n" ++ rest, eventName := name,
          frameCharacters := start } =
      (.event name data :: (drain maxBufferedCharacters false { buffer := rest }).1,
        (drain maxBufferedCharacters false { buffer := rest }).2) := by
  have hbuffer : js "data: " ++ data ++ js "\n\n" ++ rest =
      (js "data: " ++ data) ++ 0x0A :: ([] ++ 0x0A :: rest) := by
    rw [List.append_assoc]
    rfl
  have hlength : (js "data: " ++ data).length = data.length + 6 := by
    rw [List.length_append, Nat.add_comm]
    rfl
  have hempty : OneLine [] := by decide
  rw [drain_line hbuffer (oneLine_append.mpr ⟨by decide, hdata⟩) (by simp only [hlength]; omega),
    afterLine_buffer hbuffer, processLine_data,
    drain_line rfl hempty (by simp only [hlength, List.length_nil]; omega),
    afterLine_buffer rfl, processLine_nil rfl]
  rfl

end SseFramer

/-! ## Frames -/

/-- What a reader makes of a frame. -/
def Frame.read : Frame → SseItem
  | .data payload => .event none (Json.stringify (.object payload))
  | .doneMarker => .event none (js "[DONE]")
  | .event name payload => .event (some name) (Json.stringify (.object payload))

/-- No line terminator is in the name of the event. -/
def Frame.Named : Frame → Prop
  | .event name _ => OneLine name
  | _ => True

theorem named_frame (event : ResponsesEvent) : event.frame.Named := by
  have hname : ∀ type, OneLine (js type) → ∀ entries, (responsesSse type entries).Named :=
    fun _ h _ => h
  cases event
  all_goals refine hname _ ?_ _
  case toolDelta custom _ _ _ _ => cases custom <;> decide
  case toolDone custom _ _ _ _ => cases custom <;> decide
  all_goals decide

variable {maxBufferedCharacters : Nat}

/-- A frame at the front of the buffer is read as a whole. -/
theorem drain_frame {frame : Frame} (hnamed : frame.Named)
    (hfit : frame.text.length ≤ maxBufferedCharacters) (rest : JsString) :
    SseFramer.drain maxBufferedCharacters false { buffer := frame.text ++ rest } =
      (frame.read :: (SseFramer.drain maxBufferedCharacters false { buffer := rest }).1,
        (SseFramer.drain maxBufferedCharacters false { buffer := rest }).2) := by
  have hlengths : (js "event: ").length = 7 ∧ (js "\ndata: ").length = 7 ∧
      (js "data: ").length = 6 ∧ (js "\n\n").length = 2 := by decide
  cases frame with
  | data payload =>
      refine SseFramer.drain_data (oneLine_stringify _) none ?_ rest
      simp only [Frame.text, List.length_append] at hfit
      omega
  | doneMarker =>
      have htext : (Frame.text .doneMarker).length = 14 := by decide
      have hdone : OneLine (js "[DONE]") ∧ (js "[DONE]").length = 6 := by decide
      have hstart : 0 + (js "[DONE]").length + 8 ≤ maxBufferedCharacters := by omega
      exact SseFramer.drain_data hdone.1 none hstart rest
  | event name payload =>
      have hbuffer : Frame.text (.event name payload) ++ rest = (js "event: " ++ name) ++ 0x0A ::
          (js "data: " ++ Json.stringify (.object payload) ++ js "\n\n" ++ rest) := by
        simp [Frame.text, js]
      have hname : (js "event: " ++ name).length = name.length + 7 := by
        rw [List.length_append]
        omega
      simp only [Frame.text, List.length_append] at hfit
      rw [SseFramer.drain_line hbuffer (oneLine_append.mpr ⟨by decide, hnamed⟩)
        (by simp only [hname]; omega), SseFramer.afterLine_buffer hbuffer,
        SseFramer.processLine_event]
      exact SseFramer.drain_data (oneLine_stringify _) (some name) (by simp only [hname]; omega)
        rest

theorem drain_frames {frames : List Frame} (h : ∀ frame ∈ frames, frame.Named ∧
    frame.text.length ≤ maxBufferedCharacters) :
    SseFramer.drain maxBufferedCharacters false { buffer := (frames.map Frame.text).flatten } =
      (frames.map Frame.read, {}) := by
  induction frames with
  | nil =>
      rw [SseFramer.drain_none rfl]
      rfl
  | cons frame frames ih =>
      obtain ⟨⟨hnamed, hfit⟩, hrest⟩ := List.forall_mem_cons.mp h
      rw [List.map_cons, List.flatten_cons, drain_frame hnamed hfit, ih hrest, List.map_cons]

/-- What a client reads of a response body that arrives in pieces. -/
def readBody (maxBufferedCharacters : Nat) (pieces : List JsString) : List SseItem :=
  let pushed := chunks (SseFramer.push maxBufferedCharacters) {} pieces
  pushed.1 ++ (pushed.2.finish maxBufferedCharacters).1

/-- What a reader takes out of the pieces of a body are the frames that were written, each as one
event. -/
theorem readBody_frames {frames : List Frame} {pieces : List JsString}
    (hpieces : pieces.flatten = (frames.map Frame.text).flatten)
    (hframes : ∀ frame ∈ frames, frame.Named ∧ frame.text.length ≤ maxBufferedCharacters) :
    readBody maxBufferedCharacters pieces = frames.map Frame.read := by
  have hpush : chunks (SseFramer.push maxBufferedCharacters) {} pieces =
      (frames.map Frame.read, {}) := by
    rw [chunks_eq_push SseFramer.feed_additive (fun f _ ht => SseFramer.push_eq_feed f ht)
      SseFramer.push_nil, hpieces, ← drain_frames hframes]
    by_cases hempty : (frames.map Frame.text).flatten = []
    · rw [hempty, SseFramer.push_nil, SseFramer.drain_none rfl]
      rfl
    · rw [SseFramer.push_eq_feed _ hempty]
      rfl
  have hfinish : (SseFramer.finish maxBufferedCharacters {}).1 = [] := by
    rw [SseFramer.finish, if_neg (by decide), SseFramer.drain_none rfl]
    rfl
  rw [readBody, hpush, hfinish, List.append_nil]

/-- A client reads the events of a Responses stream, whatever is encoded and however the body is
cut. -/
theorem readBody_encodeStream (options : EncodingOptions) (events : List StreamEvent)
    {pieces : List JsString}
    (hpieces : pieces.flatten =
      ((encodeStream .openaiResponses options events).map Frame.text).flatten)
    (hfit : ∀ frame ∈ encodeStream .openaiResponses options events,
      frame.text.length ≤ maxBufferedCharacters) :
    readBody maxBufferedCharacters pieces =
      (responsesStream options events).map fun event => event.frame.read := by
  rw [encodeStream_responses] at hpieces hfit
  rw [readBody_frames hpieces, List.map_map]
  · rfl
  · intro frame hframe
    obtain ⟨event, -, rfl⟩ := List.mem_map.mp hframe
    exact ⟨named_frame event, hfit _ hframe⟩

/-- The failed stream of an encoder that is told of an error alone, cut behind ten characters. -/
theorem readBody_encodeStream_error :
    let options : EncodingOptions := { id := some (js "r"), now := .ofInt 0 }
    let events : List StreamEvent := [.error (js "no") none none]
    let body := ((encodeStream .openaiResponses options events).map Frame.text).flatten
    readBody 1000 [body.take 10, body.drop 10] =
      (responsesStream options events).map fun event => event.frame.read := by
  intro options events body
  exact readBody_encodeStream options events (by simp [body]) (by decide +kernel)

end StonePlus.Streaming
