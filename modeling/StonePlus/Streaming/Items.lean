import StonePlus.Streaming.Parser

/-!
# StonePlus.Streaming.Items

The events of a stream do not depend on how its octets arrive.

Decoder, framers and callbacks each read a concatenation as its parts in
turn; so does `push`, and `finish` starts from the same parser.
-/

namespace StonePlus.Streaming

open Lib

theorem execAll_append (ms ns : List (Handler Unit)) (s : ParserState) :
    execAll (ms ++ ns) s =
      ((execAll ms s).1 ++ (execAll ns (execAll ms s).2).1, (execAll ns (execAll ms s).2).2) := by
  induction ms generalizing s with
  | nil => simp [execAll]
  | cons m ms ih => simp [execAll, ih, List.append_assoc]

/-- ASCII text as octets. -/
def ascii (s : String) : Bytes := (js s).map UInt16.toUInt8

namespace ProtocolParser

variable {syntaxError : JsString → JsString} {protocol : Protocol} {options : ParserOptions}

theorem framing_pushFramed (p : ProtocolParser) (text : JsString) :
    (pushFramed syntaxError protocol options p text).2.framing = p.framing := by
  unfold pushFramed
  split <;> rfl

/-- Framed text is handled the same however it is cut. -/
theorem pushFramed_append (p : ProtocolParser) (ha : a ≠ []) (hb : b ≠ []) :
    pushFramed syntaxError protocol options p (a ++ b) =
      ((pushFramed syntaxError protocol options p a).1 ++
          (pushFramed syntaxError protocol options
            (pushFramed syntaxError protocol options p a).2 b).1,
        (pushFramed syntaxError protocol options
          (pushFramed syntaxError protocol options p a).2 b).2) := by
  have hab : a ++ b ≠ [] := by simp [ha]
  by_cases hjson : p.framing = some .json
  · simp only [pushFramed, if_pos hjson]
    rw [JsonFramer.push_eq_feed _ hab, JsonFramer.feed_additive _ _ _ hb,
      JsonFramer.push_eq_feed _ ha, JsonFramer.push_eq_feed _ hb, List.map_append, execAll_append]
  · simp only [pushFramed, if_neg hjson]
    rw [SseFramer.push_eq_feed _ hab, SseFramer.feed_additive _ _ _ hb,
      SseFramer.push_eq_feed _ ha, SseFramer.push_eq_feed _ hb, List.map_append, execAll_append]

theorem selectGeminiFraming_blank (h : trimStart p.framingBuffer = []) :
    selectGeminiFraming syntaxError protocol options p = ([], p) := by
  unfold selectGeminiFraming
  rw [h]

theorem selectGeminiFraming_first (h : trimStart p.framingBuffer = first :: rest) :
    selectGeminiFraming syntaxError protocol options p =
      pushFramed syntaxError protocol options
        { p with
          framing := some (if first = 0x7B ∨ first = 0x5B then .json else .sse)
          framingBuffer := [] } p.framingBuffer := by
  unfold selectGeminiFraming
  rw [h]

theorem consumeText_nil (p : ProtocolParser) :
    consumeText syntaxError protocol options p [] = ([], p) := by
  rw [consumeText, if_pos rfl]

theorem consumeText_unframed (h : text ≠ []) (hframing : p.framing = none) :
    consumeText syntaxError protocol options p text =
      selectGeminiFraming syntaxError protocol options
        { p with framingBuffer := p.framingBuffer ++ text } := by
  rw [consumeText, if_neg h, if_pos hframing]

theorem consumeText_framed (h : text ≠ []) (hframing : p.framing ≠ none) :
    consumeText syntaxError protocol options p text =
      pushFramed syntaxError protocol options p text := by
  rw [consumeText, if_neg h, if_neg hframing]

/-- Text is consumed the same however it is cut. -/
theorem consumeText_append (p : ProtocolParser) (a b : JsString) :
    consumeText syntaxError protocol options p (a ++ b) =
      ((consumeText syntaxError protocol options p a).1 ++
          (consumeText syntaxError protocol options
            (consumeText syntaxError protocol options p a).2 b).1,
        (consumeText syntaxError protocol options
          (consumeText syntaxError protocol options p a).2 b).2) := by
  by_cases ha : a = []
  · simp [ha, consumeText_nil]
  by_cases hb : b = []
  · simp [hb, consumeText_nil]
  have hab : a ++ b ≠ [] := by simp [ha]
  by_cases hframing : p.framing = none
  · rw [consumeText_unframed hab hframing, consumeText_unframed ha hframing, ← List.append_assoc]
    cases htrim : trimStart (p.framingBuffer ++ a) with
    | nil =>
        have hblank : selectGeminiFraming syntaxError protocol options
            { p with framingBuffer := p.framingBuffer ++ a } =
              ([], { p with framingBuffer := p.framingBuffer ++ a }) :=
          selectGeminiFraming_blank htrim
        have hrest : consumeText syntaxError protocol options
            { p with framingBuffer := p.framingBuffer ++ a } b =
              selectGeminiFraming syntaxError protocol options
                { p with framingBuffer := p.framingBuffer ++ a ++ b } :=
          consumeText_unframed hb hframing
        rw [hblank]
        dsimp only
        rw [hrest]
        rfl
    | cons first rest =>
        have hlonger : trimStart (p.framingBuffer ++ a ++ b) = first :: (rest ++ b) := by
          rw [trimStart_append, htrim, if_neg (List.cons_ne_nil first rest), List.cons_append]
        have hbuffer : p.framingBuffer ++ a ≠ [] := by simp [ha]
        rw [selectGeminiFraming_first (p := { p with framingBuffer := p.framingBuffer ++ a }) htrim,
          selectGeminiFraming_first (p := { p with framingBuffer := p.framingBuffer ++ a ++ b })
            hlonger,
          consumeText_framed hb (by rw [framing_pushFramed]; simp)]
        exact pushFramed_append _ hbuffer hb
  · rw [consumeText_framed hab hframing, consumeText_framed ha hframing,
      consumeText_framed hb (by rwa [framing_pushFramed])]
    exact pushFramed_append p ha hb

theorem pushFramed_decoder (p : ProtocolParser) (decoder : TextDecoder) (text : JsString) :
    pushFramed syntaxError protocol options { p with decoder := decoder } text =
      ((pushFramed syntaxError protocol options p text).1,
        { (pushFramed syntaxError protocol options p text).2 with decoder := decoder }) := by
  unfold pushFramed
  dsimp only
  split <;> rfl

/-- The decoder is not touched by text that is decoded already. -/
theorem consumeText_decoder (p : ProtocolParser) (decoder : TextDecoder) (text : JsString) :
    consumeText syntaxError protocol options { p with decoder := decoder } text =
      ((consumeText syntaxError protocol options p text).1,
        { (consumeText syntaxError protocol options p text).2 with decoder := decoder }) := by
  unfold consumeText selectGeminiFraming
  dsimp only
  split
  · rfl
  · split
    · split
      · rfl
      · next first rest _ =>
          exact pushFramed_decoder
            { p with
              framing := some (if first = 0x7B ∨ first = 0x5B then .json else .sse)
              framingBuffer := [] } decoder _
    · exact pushFramed_decoder p decoder text

/-- Octets are pushed the same however they are cut. -/
theorem push_append (p : ProtocolParser) (a b : Bytes) :
    push syntaxError protocol options p (a ++ b) =
      ((push syntaxError protocol options p a).1 ++
          (push syntaxError protocol options (push syntaxError protocol options p a).2 b).1,
        (push syntaxError protocol options (push syntaxError protocol options p a).2 b).2) := by
  have hpush (p : ProtocolParser) (chunk : Bytes) : push syntaxError protocol options p chunk =
      ((consumeText syntaxError protocol options p (p.decoder.decode chunk).1).1,
        { (consumeText syntaxError protocol options p (p.decoder.decode chunk).1).2 with
          decoder := (p.decoder.decode chunk).2 }) :=
    consumeText_decoder p (p.decoder.decode chunk).2 _
  rw [hpush p a, hpush p (a ++ b), TextDecoder.decode_append]
  dsimp only
  rw [push]
  dsimp only
  rw [consumeText_append, consumeText_decoder _ ((p.decoder.decode a).2.decode b).2,
    consumeText_decoder (consumeText syntaxError protocol options p (p.decoder.decode a).1).2]

theorem push_nil (p : ProtocolParser) : push syntaxError protocol options p [] = ([], p) := by
  rw [push, TextDecoder.decode, consumeText_nil]

/-- The chunks of a stream are pushed as if they were one. -/
theorem chunks_push (chunks : List Bytes) :
    Lib.chunks (push syntaxError protocol options) (init protocol) chunks =
      push syntaxError protocol options (init protocol) chunks.flatten :=
  chunks_eq_push (fun p a b _ => push_append p a b) (fun _ _ _ => rfl) push_nil _ chunks

/-- Two ways to cut a stream give the same events and leave the same parser. -/
theorem protocol_run_eq_of_flatten_eq (syntaxError : JsString → JsString) (protocol : Protocol)
    (options : ParserOptions) (chunks chunks' : List Bytes) (h : chunks.flatten = chunks'.flatten) :
    (run syntaxError protocol options chunks).1 = (run syntaxError protocol options chunks').1 ∧
      (run syntaxError protocol options chunks).2.getProtocolState =
        (run syntaxError protocol options chunks').2.getProtocolState ∧
      (run syntaxError protocol options chunks).2.getRecognizedEventCount =
        (run syntaxError protocol options chunks').2.getRecognizedEventCount := by
  have hrun : run syntaxError protocol options chunks = run syntaxError protocol options chunks' := by
    unfold run
    rw [chunks_push, chunks_push, h]
  rw [hrun]
  exact ⟨rfl, rfl, rfl⟩

/-- A Chat stream cut inside a character and inside a line end. -/
theorem run_split_inside_line_end :
    let whole := [ascii "data: \"" ++ [0xC3, 0xA9] ++ ascii "\"\x0D\n\x0D\ndata: [DONE]\x0D\n\x0D\n"]
    let split := [ascii "data: \"" ++ [0xC3], [0xA9] ++ ascii "\"\x0D", [],
      ascii "\n\x0D\ndata: [DONE]\x0D\n\x0D", ascii "\n"]
    (run id .openaiChat {} whole).1 = (run id .openaiChat {} split).1 ∧
      (run id .openaiChat {} whole).2.getProtocolState =
        (run id .openaiChat {} split).2.getProtocolState ∧
      (run id .openaiChat {} whole).2.getRecognizedEventCount =
        (run id .openaiChat {} split).2.getRecognizedEventCount :=
  protocol_run_eq_of_flatten_eq id .openaiChat {} _ _ (by decide)

end ProtocolParser

end StonePlus.Streaming

/-!
## Items

A whole stream as the items its framers find in it.

The events of a stream are those of its items in turn, first while it arrives
and then while it finishes, and those of closing it.
-/

namespace StonePlus.Streaming

open Lib

/-- What a framer finds: an SSE event or a JSON value, or an error of its own. -/
abbrev FramedItem := SseItem ⊕ JsonItem

/-- The items of a stream: those found as it arrives and those found at its end. -/
structure FramedStream where
  arriving : List FramedItem
  finishing : List FramedItem

/-- All the items of a stream. -/
def FramedStream.items (stream : FramedStream) : List FramedItem :=
  stream.arriving ++ stream.finishing

/-- The text of a stream. -/
def wholeText (chunks : List Bytes) : JsString :=
  let decoded := ({} : TextDecoder).decode chunks.flatten
  decoded.1 ++ decoded.2.flush

section

variable (syntaxError : JsString → JsString) (protocol : Protocol) (options : ParserOptions)

/-- The callbacks of both framers. -/
def onItem : FramedItem → Handler Unit :=
  Sum.elim (onSseItem syntaxError protocol options) (onJsonItem protocol options)

/-- A text read as an SSE stream. -/
def sseStream (text : JsString) : FramedStream :=
  let pushed := ({} : SseFramer).push options.limit text
  ⟨pushed.1.map .inl, (pushed.2.finish options.limit).1.map .inl⟩

/-- A text read as JSON values. -/
def jsonStream (text : JsString) : FramedStream :=
  let pushed := ({} : JsonFramer).push syntaxError options.limit text
  ⟨pushed.1.map .inr, (pushed.2.finish syntaxError options.limit).1.map .inr⟩

/-- The items of a stream.  Gemini streams are framed by what they start with. -/
def framedStream (chunks : List Bytes) : FramedStream :=
  let text := wholeText chunks
  if protocol = .gemini then
    match trimStart text with
    | [] => ⟨[], []⟩
    | first :: _ =>
      if first = 0x7B ∨ first = 0x5B then jsonStream syntaxError options text
      else sseStream options text
  else sseStream options text

/-- The state after the items of a stream. -/
def handleItems (stream : FramedStream) : List StreamEvent × ParserState :=
  let arrived := execAll (stream.arriving.map (onItem syntaxError protocol options)) {}
  let finished := execAll (stream.finishing.map (onItem syntaxError protocol options))
    { arrived.2 with finishing := true }
  (arrived.1 ++ finished.1, { finished.2 with finishing := false })

end

namespace ProtocolParser

variable {syntaxError : JsString → JsString} {protocol : Protocol} {options : ParserOptions}

theorem trimStart_eq_nil_iff : trimStart s = [] ↔ s.trim = [] := by
  rw [JsString.trim_eq_nil_iff, trimStart, List.dropWhile_eq_nil_iff]

/-- The parser with another decoder. -/
def setDecoder (decoder : TextDecoder) (p : ProtocolParser) : ProtocolParser :=
  { p with decoder := decoder }

theorem consumeText_setDecoder (decoder : TextDecoder) (p : ProtocolParser) (text : JsString) :
    consumeText syntaxError protocol options (setDecoder decoder p) text =
      (consumeText syntaxError protocol options p text).map id (setDecoder decoder) :=
  consumeText_decoder p decoder text

theorem selectGeminiFraming_setDecoder (decoder : TextDecoder) (p : ProtocolParser) :
    selectGeminiFraming syntaxError protocol options (setDecoder decoder p) =
      (selectGeminiFraming syntaxError protocol options p).map id (setDecoder decoder) := by
  unfold selectGeminiFraming setDecoder
  dsimp only
  split
  · rfl
  · next first rest _ =>
      exact pushFramed_decoder
        { p with
          framing := some (if first = 0x7B ∨ first = 0x5B then .json else .sse)
          framingBuffer := [] } decoder _

/-- The last items, and closing the stream. -/
def finishItems (syntaxError : JsString → JsString) (protocol : Protocol) (options : ParserOptions)
    (p : ProtocolParser) : List StreamEvent :=
  let framed := finishFraming syntaxError protocol options
    { p with state := { p.state with finishing := true } }
  framed.1 ++ (exec closeStream { framed.2.state with finishing := false }).1

theorem finishItems_setDecoder (decoder : TextDecoder) (p : ProtocolParser) :
    finishItems syntaxError protocol options (setDecoder decoder p) =
      finishItems syntaxError protocol options p := by
  unfold finishItems finishFraming setDecoder
  dsimp only
  cases p.framing with
  | none => rfl
  | some framing => cases framing <;> rfl

/-- The part of `finish` behind the last text. -/
def conclude (syntaxError : JsString → JsString) (protocol : Protocol) (options : ParserOptions)
    (p : ProtocolParser) : List StreamEvent :=
  if p.framing = none ∧ p.framingBuffer.trim ≠ [] then
    let selected := selectGeminiFraming syntaxError protocol options p
    selected.1 ++ finishItems syntaxError protocol options selected.2
  else finishItems syntaxError protocol options p

theorem conclude_setDecoder (decoder : TextDecoder) (p : ProtocolParser) :
    conclude syntaxError protocol options (setDecoder decoder p) =
      conclude syntaxError protocol options p := by
  unfold conclude
  rw [selectGeminiFraming_setDecoder, finishItems_setDecoder]
  dsimp only [Prod.map]
  rw [finishItems_setDecoder]
  rfl

theorem finish_eq_conclude (p : ProtocolParser) :
    (finish syntaxError protocol options p).1 =
      (consumeText syntaxError protocol options p p.decoder.flush).1 ++
        conclude syntaxError protocol options
          (consumeText syntaxError protocol options p p.decoder.flush).2 := by
  have hflush : consumeText syntaxError protocol options { p with decoder := {} } p.decoder.flush =
      (consumeText syntaxError protocol options p p.decoder.flush).map id (setDecoder {}) :=
    consumeText_setDecoder {} p p.decoder.flush
  rw [← conclude_setDecoder {}]
  unfold finish
  rw [hflush]
  dsimp only [Prod.map, id]
  unfold conclude finishItems
  split
  · simp only [List.append_assoc]
  · simp only [List.append_assoc, List.nil_append]

/-- A stream is its text consumed at once and concluded. -/
theorem run_eq_conclude (chunks : List Bytes) :
    (run syntaxError protocol options chunks).1 =
      (consumeText syntaxError protocol options (init protocol) (wholeText chunks)).1 ++
        conclude syntaxError protocol options
          (consumeText syntaxError protocol options (init protocol) (wholeText chunks)).2 := by
  let decoded := ({} : TextDecoder).decode chunks.flatten
  have hpush : push syntaxError protocol options (init protocol) chunks.flatten =
      (consumeText syntaxError protocol options (init protocol) decoded.1).map id
        (setDecoder decoded.2) :=
    consumeText_setDecoder decoded.2 (init protocol) decoded.1
  have hwhole : wholeText chunks = decoded.1 ++ decoded.2.flush := rfl
  unfold run
  rw [chunks_push, hpush]
  dsimp only [Prod.map, id]
  rw [finish_eq_conclude, consumeText_setDecoder, hwhole, consumeText_append]
  dsimp only [Prod.map, id]
  rw [conclude_setDecoder, List.append_assoc]
  rfl

/-! ## The items -/

/-- A parser of a known framing that has seen nothing. -/
def framedParser (kind : FramingKind) : ProtocolParser where
  framing := some kind

/-- The items of a text in a known framing. -/
def streamOf (syntaxError : JsString → JsString) (options : ParserOptions) :
    FramingKind → JsString → FramedStream
  | .sse => sseStream options
  | .json => jsonStream syntaxError options

/-- The events of a text in a known framing are those of its items. -/
theorem framed_events (kind : FramingKind) (text : JsString) :
    (pushFramed syntaxError protocol options (framedParser kind) text).1 ++
        conclude syntaxError protocol options
          (pushFramed syntaxError protocol options (framedParser kind) text).2 =
      let handled := handleItems syntaxError protocol options (streamOf syntaxError options kind text)
      handled.1 ++ (exec closeStream handled.2).1 := by
  cases kind with
  | sse =>
      simp [pushFramed, framedParser, conclude, finishItems, finishFraming, streamOf, sseStream,
        handleItems, onItem]
  | json =>
      simp [pushFramed, framedParser, conclude, finishItems, finishFraming, streamOf, jsonStream,
        handleItems, onItem]

theorem framed_events_nil :
    conclude syntaxError protocol options (framedParser .sse) =
      let handled := handleItems syntaxError protocol options (sseStream options [])
      handled.1 ++ (exec closeStream handled.2).1 := by
  have hpush : ({} : SseFramer).push options.limit [] = ([], {}) := by
    rw [SseFramer.push, slices, if_pos (Or.inl rfl)]
  simp [framedParser, conclude, finishItems, finishFraming, sseStream, handleItems, onItem, hpush,
    execAll]

/-- The events of a stream are those of its items and of closing it. -/
theorem run_eq_handleItems (chunks : List Bytes) :
    (run syntaxError protocol options chunks).1 =
      let handled := handleItems syntaxError protocol options
        (framedStream syntaxError protocol options chunks)
      handled.1 ++ (exec closeStream handled.2).1 := by
  rw [run_eq_conclude, framedStream]
  generalize wholeText chunks = text
  have hblank (buffer : JsString) (h : trimStart buffer = []) :
      conclude syntaxError protocol options { framing := none, framingBuffer := buffer } =
        let handled := handleItems syntaxError protocol options ⟨[], []⟩
        handled.1 ++ (exec closeStream handled.2).1 := by
    simp [conclude, finishItems, finishFraming, handleItems, execAll,
      trimStart_eq_nil_iff.mp h]
  by_cases hgemini : protocol = .gemini
  · have hinit : init protocol = { framing := none } := by rw [init, if_pos hgemini]
    rw [if_pos hgemini, hinit]
    by_cases htext : text = []
    · rw [htext, consumeText_nil]
      exact hblank [] rfl
    · rw [consumeText_unframed htext rfl]
      dsimp only
      rw [List.nil_append]
      cases htrim : trimStart text with
      | nil =>
          rw [selectGeminiFraming_blank htrim]
          exact hblank text htrim
      | cons first rest =>
          rw [selectGeminiFraming_first htrim]
          dsimp only
          by_cases hjson : first = 0x7B ∨ first = 0x5B
          · rw [if_pos hjson, if_pos hjson]
            exact framed_events .json text
          · rw [if_neg hjson, if_neg hjson]
            exact framed_events .sse text
  · have hinit : init protocol = framedParser .sse := by rw [init, if_neg hgemini]; rfl
    rw [if_neg hgemini, hinit]
    by_cases htext : text = []
    · rw [htext, consumeText_nil]
      exact framed_events_nil
    · rw [consumeText_framed htext (by simp [framedParser])]
      exact framed_events .sse text

end ProtocolParser

end StonePlus.Streaming
