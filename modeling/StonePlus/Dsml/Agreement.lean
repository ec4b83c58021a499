import StonePlus.Dsml.Buffered

/-!
# StonePlus.Dsml.Agreement

The streaming parser restores what the buffered parser finds, however the text
is split into deltas.

`Reads` relates the streaming parser to the text it has received: it is
scanning for a start marker, inside a block, past a block, or has failed, and
in each case it says what the buffered parser makes of the text so far and of
every continuation.
-/

namespace StonePlus.Dsml

open Lib JsString

/-! ## What a stream shows -/

/-- The text of the text deltas. -/
def streamText (events : List CanonicalStreamEvent) : JsString :=
  events.flatMap fun
    | .textDelta text _ _ => text
    | _ => []

/-- The names and arguments of the tool-call deltas. -/
def streamCalls (events : List CanonicalStreamEvent) : List (Option JsString × Option JsString) :=
  events.filterMap fun
    | .toolCallDelta _ _ name arguments _ _ => some (name, arguments)
    | _ => none

@[simp] theorem streamText_append (events more : List CanonicalStreamEvent) :
    streamText (events ++ more) = streamText events ++ streamText more := List.flatMap_append

@[simp] theorem streamCalls_append (events more : List CanonicalStreamEvent) :
    streamCalls (events ++ more) = streamCalls events ++ streamCalls more := List.filterMap_append

theorem streamText_callEvents (index : Nat) (calls : List ParsedDeepSeekDsmlToolCall) :
    streamText (DeepSeekDsmlStreamParser.callEvents index calls) = [] := by
  induction calls generalizing index with
  | nil => rfl
  | cons call calls ih => exact ih (index + 1)

theorem streamCalls_callEvents (index : Nat) (calls : List ParsedDeepSeekDsmlToolCall) :
    streamCalls (DeepSeekDsmlStreamParser.callEvents index calls) = calls.map called := by
  induction calls generalizing index with
  | nil => rfl
  | cons call calls ih => exact congrArg (called call :: ·) (ih (index + 1))

theorem not_isError_callEvents (index : Nat) (calls : List ParsedDeepSeekDsmlToolCall) :
    ∀ e ∈ DeepSeekDsmlStreamParser.callEvents index calls, isError e = false := by
  induction calls generalizing index with
  | nil => exact fun e he => nomatch he
  | cons call calls ih =>
      exact List.forall_mem_cons.mpr ⟨rfl, List.forall_mem_cons.mpr ⟨rfl, ih (index + 1)⟩⟩

/-! ## The states of the streaming parser -/

section

variable (randomUUID : Nat → JsString) (plan : ToolBridgePlan) (index : Option Nat)
  (contentType : Option ContentType) (text : JsString) (out : List CanonicalStreamEvent)
  (p : DeepSeekDsmlStreamParser)

/-- The parser has not failed and has met nothing but text. -/
structure Running : Prop where
  failed : p.failed = false
  sawNativeTool : p.sawNativeTool = false
  delayed : p.delayedMessageComplete = []
  not_isError : ∀ e ∈ out, isError e = false

/-- No start marker has been seen; what may still become one is pending. -/
structure Scanning : Prop extends Running out p where
  text_eq : text = streamText out ++ p.pendingText
  clear : Clear startMarkers (streamText out) p.pendingText
  absent : Absent startMarkers p.pendingText
  calls : streamCalls out = []
  active : p.activeStartMarker = none
  block : p.block = []
  sawDsml : p.sawDsml = false
  part : p.pendingText ≠ [] → p.pendingTextIndex = index ∧ p.pendingContentType = contentType

/-- A start marker has been seen, and its end marker has not. -/
structure Inside (marker inner : JsString) : Prop extends Running out p where
  text_eq : text = streamText out ++ marker ++ inner
  opened : Opened (streamText out) marker
  unclosed : indexOf? (matchingEndMarker marker) inner = none
  calls : streamCalls out = []
  active : p.activeStartMarker = some marker
  block : p.block = marker ++ inner
  sawDsml : p.sawDsml = false
  pending : p.pendingText = []

/-- A block has been restored: only white space may follow. -/
structure Restored : Prop extends Running out p where
  space : ∀ more, trim more = [] → ∃ block,
    parseDeepSeekDsmlBlock randomUUID (text ++ more) plan = .ok (some block) ∧
      block.before = streamText out ∧ block.calls.map called = streamCalls out
  content : ∀ more, trim more ≠ [] →
    ∃ e, parseDeepSeekDsmlBlock randomUUID (text ++ more) plan = .error e
  active : p.activeStartMarker = none
  sawDsml : p.sawDsml = true
  pending : p.pendingText = []

/-- The parser has failed, and the buffered parser fails on every continuation. -/
structure Rejected : Prop where
  failed : p.failed = true
  isError : ∃ e ∈ out, isError e = true
  error : ∀ more, ∃ e, parseDeepSeekDsmlBlock randomUUID (text ++ more) plan = .error e

/-- The state of the parser after a text. -/
inductive Reads : Prop
  | scanning (h : Scanning index contentType text out p)
  | inside (marker inner : JsString) (h : Inside text out p marker inner)
  | restored (h : Restored randomUUID plan text out p)
  | rejected (h : Rejected randomUUID plan text out p)

end

/-! ## Steps -/

namespace DeepSeekDsmlStreamParser

variable {randomUUID randomUUID' : Nat → JsString} {plan : ToolBridgePlan} {index : Option Nat}
  {contentType : Option ContentType} {text : JsString} {out : List CanonicalStreamEvent}
  {p : DeepSeekDsmlStreamParser}

theorem isError_of_fail (p : DeepSeekDsmlStreamParser) (e : DeepSeekDsmlError)
    (out : List CanonicalStreamEvent) : ∃ event ∈ out ++ (p.fail e).1, isError event = true :=
  ⟨_, List.mem_append_right _ List.mem_cons_self, rfl⟩

theorem not_isError_append (h : ∀ e ∈ out, isError e = false)
    (hmore : ∀ e ∈ more, isError e = false) : ∀ e ∈ out ++ more, isError e = false :=
  List.forall_mem_append.mpr ⟨h, hmore⟩

/-- A block that is complete is restored, or rejected on both paths. -/
theorem restoreBlock_reads (hrunning : Running out p) (hcalls : streamCalls out = [])
    (hactive : p.activeStartMarker = none) (hpending : p.pendingText = [])
    {marker inner : JsString} (hopened : Opened (streamText out) marker) {k : Nat}
    (hend : indexOf? (matchingEndMarker marker) inner = some k) :
    Reads randomUUID' plan index contentType (streamText out ++ marker ++ inner)
      (out ++ (p.restoreBlock randomUUID plan
        (marker ++ inner.take (k + (matchingEndMarker marker).length))
        (inner.drop (k + (matchingEndMarker marker).length))).1)
      (p.restoreBlock randomUUID plan
        (marker ++ inner.take (k + (matchingEndMarker marker).length))
        (inner.drop (k + (matchingEndMarker marker).length))).2 := by
  have hsame := blockCalls_called randomUUID randomUUID' plan marker (inner.take k)
  unfold restoreBlock
  rw [parse_completeBlock hopened.mem hend]
  cases hblock : blockCalls randomUUID plan marker (inner.take k) with
  | error e =>
      rw [hblock] at hsame
      refine .rejected ⟨rfl, isError_of_fail p e out, fun more => ?_⟩
      by_cases hmore : trim (inner.drop (k + (matchingEndMarker marker).length) ++ more) = []
      · rw [parse_closed_append hopened hend hmore]
        cases hblock' : blockCalls randomUUID' plan marker (inner.take k) with
        | error e' => exact ⟨e', rfl⟩
        | ok calls' => rw [hblock'] at hsame; cases hsame
      · exact parse_closed_append_error hopened hend hmore
  | ok calls =>
      rw [hblock] at hsame
      simp only [Except.map]
      split
      · next hrest =>
          rw [← List.append_assoc]
          refine .rejected ⟨rfl, isError_of_fail _ _ _, fun more => ?_⟩
          refine parse_closed_append_error hopened hend fun hmore => hrest ?_
          exact (trim_append_eq_nil_iff.mp hmore).1
      · next hrest =>
          have hrest' := not_not.mp hrest
          have htext : streamText (out ++ callEvents p.nextToolIndex calls) = streamText out := by
            rw [streamText_append, streamText_callEvents, List.append_nil]
          refine .restored ⟨⟨hrunning.failed, hrunning.sawNativeTool, hrunning.delayed,
            not_isError_append hrunning.not_isError (not_isError_callEvents _ _)⟩, ?_, ?_,
            hactive, rfl, hpending⟩
          · intro more hmore
            rw [parse_closed_append hopened hend (trim_append_eq_nil_iff.mpr ⟨hrest', hmore⟩)]
            cases hblock' : blockCalls randomUUID' plan marker (inner.take k) with
            | error e' => rw [hblock'] at hsame; cases hsame
            | ok calls' =>
                rw [hblock'] at hsame
                refine ⟨_, rfl, htext.symm, ?_⟩
                rw [streamCalls_append, hcalls, streamCalls_callEvents, List.nil_append]
                exact (Except.ok.inj hsame).symm
          · intro more hmore
            refine parse_closed_append_error hopened hend fun hnil => hmore ?_
            exact (trim_append_eq_nil_iff.mp hnil).2

theorem consumeBlockText_open {block : JsString} (hblock : p.block ++ piece = block)
    (h : indexOf? (matchingEndMarker marker) block = none) :
    p.consumeBlockText randomUUID plan marker piece = ([], { p with block := block }) := by
  simp only [consumeBlockText, hblock, h]

theorem consumeBlockText_closed (hnative : p.sawNativeTool = false) {block : JsString}
    (hblock : p.block ++ piece = block) (h : indexOf? (matchingEndMarker marker) block = some k) :
    p.consumeBlockText randomUUID plan marker piece =
      { p with block := [], activeStartMarker := none }.restoreBlock randomUUID plan
        (block.take (k + (matchingEndMarker marker).length))
        (block.drop (k + (matchingEndMarker marker).length)) := by
  simp only [consumeBlockText, hblock, h, hnative, Bool.false_eq_true, if_false]

variable {piece : JsString}

/-- More text of a block that is open. -/
theorem consumeBlockText_reads (hrunning : Running out p) (hcalls : streamCalls out = [])
    (hpending : p.pendingText = []) (hsaw : p.sawDsml = false)
    (hactive : p.activeStartMarker = some marker) (hopened : Opened (streamText out) marker)
    {inner : JsString} (hblock : p.block ++ piece = marker ++ inner) :
    Reads randomUUID' plan index contentType (streamText out ++ marker ++ inner)
      (out ++ (p.consumeBlockText randomUUID plan marker piece).1)
      (p.consumeBlockText randomUUID plan marker piece).2 := by
  have hfound := indexOf?_block hopened.mem inner
  cases hend : indexOf? (matchingEndMarker marker) inner with
  | none =>
      rw [hend, Option.map_none] at hfound
      rw [consumeBlockText_open hblock hfound, List.append_nil]
      exact .inside marker inner ⟨⟨hrunning.failed, hrunning.sawNativeTool, hrunning.delayed,
        hrunning.not_isError⟩, rfl, hopened, hend, hcalls, hactive, rfl, hsaw, hpending⟩
  | some k =>
      rw [hend, Option.map_some] at hfound
      rw [consumeBlockText_closed hrunning.sawNativeTool hblock hfound, Nat.add_assoc,
        List.take_length_add_append, List.drop_length_add_append]
      have hrunning' : Running out { p with block := [], activeStartMarker := none } :=
        ⟨hrunning.failed, hrunning.sawNativeTool, hrunning.delayed, hrunning.not_isError⟩
      exact restoreBlock_reads hrunning' hcalls rfl hpending hopened hend

/-- The parser with the part its next text belongs to. -/
def inPart (p : DeepSeekDsmlStreamParser) (index : Option Nat) (contentType : Option ContentType) :
    DeepSeekDsmlStreamParser :=
  { p with pendingTextIndex := index, pendingContentType := contentType }

theorem consumePartText_found (hsaw : p.sawDsml = false) (hactive : p.activeStartMarker = none)
    {marker : JsString} {k : Nat}
    (h : earliestMarker (p.pendingText ++ piece) startMarkers = some (k, marker)) :
    p.consumePartText randomUUID plan piece index contentType =
      let opened := { p.inPart index contentType with
        pendingText := [], activeStartMarker := some marker }
      let rest := opened.consumeBlockText randomUUID plan marker ((p.pendingText ++ piece).drop k)
      ((if (p.pendingText ++ piece).take k ≠ [] then
          [.textDelta ((p.pendingText ++ piece).take k) index contentType] else []) ++ rest.1,
        rest.2) := by
  unfold consumePartText
  dsimp only
  rw [if_neg (by rw [hsaw]; exact Bool.false_ne_true)]
  split
  · next heq => rw [hactive] at heq; cases heq
  · rw [h]
    rfl

theorem consumePartText_absent (hsaw : p.sawDsml = false) (hactive : p.activeStartMarker = none)
    (h : earliestMarker (p.pendingText ++ piece) startMarkers = none) :
    p.consumePartText randomUUID plan piece index contentType =
      let pending := p.pendingText ++ piece
      let n := pending.length - longestPossibleMarkerPrefix pending
      (if n ≠ 0 then [.textDelta (pending.take n) index contentType] else [],
        { p.inPart index contentType with pendingText := pending.drop n }) := by
  unfold consumePartText
  dsimp only
  rw [if_neg (by rw [hsaw]; exact Bool.false_ne_true)]
  split
  · next heq => rw [hactive] at heq; cases heq
  · rw [h]
    dsimp only
    split
    · next hzero =>
        rw [hzero, List.drop_zero]
        rfl
    · rfl

theorem length_startMarkers : ∀ marker ∈ startMarkers, marker.length ≤
    ((startMarkers.map fun marker => marker.length - 1).foldl max 0) + 1 := by decide

/-- Events that show nothing but a text. -/
structure GivesText (events : List CanonicalStreamEvent) (text : JsString) : Prop where
  text_eq : streamText events = text
  calls_eq : streamCalls events = []
  not_isError : ∀ e ∈ events, isError e = false

/-- A text delta that is left out if its text is empty. -/
theorem givesText_delta {c : Prop} [Decidable c] (h : ¬c → given = []) (index : Option Nat)
    (contentType : Option ContentType) :
    GivesText (if c then [.textDelta given index contentType] else []) given := by
  split
  · exact ⟨List.append_nil given, rfl, fun e he => List.mem_singleton.mp he ▸ rfl⟩
  · next hc => exact ⟨(h hc).symm, rfl, fun e he => nomatch he⟩

/-- The first start marker in the pending text is the first one in the text. -/
theorem opened_of_pending (hclear : Clear startMarkers given pending)
    (hfirst : IsEarliest startMarkers pending k marker) :
    Opened (given ++ pending.take k) marker := by
  obtain ⟨inner, hinner⟩ := hfirst.occurs
  refine ⟨hfirst.mem, fun other hother j hj hoccurs => ?_⟩
  have hwhole : Occurs other (given ++ pending) j := by
    have hmore := hoccurs.append inner
    rwa [List.append_assoc, hinner, List.append_assoc, List.take_append_drop] at hmore
  rw [List.length_append, List.length_take] at hj
  by_cases hgiven : j < given.length
  · exact hclear.not_occurs hother hgiven hwhole
  · obtain ⟨i, rfl⟩ := Nat.exists_eq_add_of_le (not_lt.mp hgiven)
    exact hfirst.first other hother i (by omega) (occurs_append_right.mp hwhole)

theorem running_append (h : Running out p) (hevents : GivesText events given)
    (hfailed : q.failed = p.failed) (hnative : q.sawNativeTool = p.sawNativeTool)
    (hdelayed : q.delayedMessageComplete = p.delayedMessageComplete) : Running (out ++ events) q :=
  ⟨hfailed.trans h.failed, hnative.trans h.sawNativeTool, hdelayed.trans h.delayed,
    not_isError_append h.not_isError hevents.not_isError⟩

/-- Text while scanning: a start marker opens a block, else what cannot become
one is given away. -/
theorem consumePartText_scanning (h : Scanning index contentType text out p) (piece : JsString) :
    Reads randomUUID' plan index contentType (text ++ piece)
      (out ++ (p.consumePartText randomUUID plan piece index contentType).1)
      (p.consumePartText randomUUID plan piece index contentType).2 := by
  have hclear := h.clear.append piece
  rw [h.text_eq, List.append_assoc]
  cases hfound : earliestMarker (p.pendingText ++ piece) startMarkers with
  | some found =>
      obtain ⟨k, marker⟩ := found
      have hfirst := marks_startMarkers.earliest_eq_some.mp hfound
      obtain ⟨inner, hinner⟩ := hfirst.occurs
      rw [consumePartText_found h.sawDsml h.active hfound]
      generalize p.pendingText ++ piece = pending at *
      have hgives : GivesText (if pending.take k ≠ [] then
          [.textDelta (pending.take k) index contentType] else []) (pending.take k) :=
        givesText_delta not_not.mp index contentType
      generalize (if pending.take k ≠ [] then
        [CanonicalStreamEvent.textDelta (pending.take k) index contentType] else []) = events at *
      have htext : streamText (out ++ events) = streamText out ++ pending.take k := by
        rw [streamText_append, hgives.text_eq]
      have hcalls : streamCalls (out ++ events) = [] := by
        rw [streamCalls_append, h.calls, hgives.calls_eq, List.nil_append]
      have hopened : Opened (streamText (out ++ events)) marker :=
        htext ▸ opened_of_pending hclear hfirst
      have hsplit : streamText out ++ pending = streamText (out ++ events) ++ marker ++ inner := by
        rw [htext, List.append_assoc, hinner, List.append_assoc, List.take_append_drop]
      dsimp only
      rw [hsplit, ← List.append_assoc]
      refine consumeBlockText_reads (p := { p.inPart index contentType with
        pendingText := [], activeStartMarker := some marker })
        (running_append h.toRunning hgives rfl rfl rfl) hcalls rfl h.sawDsml rfl hopened ?_
      show p.block ++ pending.drop k = marker ++ inner
      rw [h.block, List.nil_append, hinner]
  | none =>
      have habsent := earliest_eq_none.mp hfound
      have hgive := hclear.give habsent length_startMarkers rfl
      rw [consumePartText_absent h.sawDsml h.active hfound]
      generalize p.pendingText ++ piece = pending at *
      dsimp only
      change Clear startMarkers (streamText out ++
        pending.take (pending.length - longestPossibleMarkerPrefix pending))
        (pending.drop (pending.length - longestPossibleMarkerPrefix pending)) at hgive
      generalize pending.length - longestPossibleMarkerPrefix pending = n at *
      have hgives : GivesText (if n ≠ 0 then [.textDelta (pending.take n) index contentType] else [])
          (pending.take n) :=
        givesText_delta (fun hn => by rw [not_not.mp hn, List.take_zero]) index contentType
      refine .scanning ⟨running_append h.toRunning hgives rfl rfl rfl, ?_, ?_, habsent.drop n, ?_,
        h.active, h.block, h.sawDsml, fun _ => ⟨rfl, rfl⟩⟩
      · rw [streamText_append, hgives.text_eq, List.append_assoc, List.take_append_drop]
      · rwa [streamText_append, hgives.text_eq]
      · rw [streamCalls_append, h.calls, hgives.calls_eq, List.nil_append]

/-- Text inside a block. -/
theorem consumePartText_inside {marker inner : JsString} (h : Inside text out p marker inner)
    (piece : JsString) :
    Reads randomUUID' plan index contentType (text ++ piece)
      (out ++ (p.consumePartText randomUUID plan piece index contentType).1)
      (p.consumePartText randomUUID plan piece index contentType).2 := by
  have hpart : p.consumePartText randomUUID plan piece index contentType =
      (p.inPart index contentType).consumeBlockText randomUUID plan marker piece := by
    unfold consumePartText
    dsimp only
    rw [if_neg (by rw [h.sawDsml]; exact Bool.false_ne_true)]
    split
    · next heq =>
        rw [h.active] at heq
        cases heq
        rfl
    · next heq => rw [h.active] at heq; cases heq
  rw [hpart, h.text_eq, List.append_assoc _ inner]
  refine consumeBlockText_reads (p := p.inPart index contentType) ⟨h.failed, h.sawNativeTool,
    h.delayed, h.not_isError⟩ h.calls h.pending h.sawDsml h.active h.opened ?_
  show p.block ++ piece = marker ++ (inner ++ piece)
  rw [h.block, List.append_assoc]

/-- Text behind a block. -/
theorem consumePartText_restored (h : Restored randomUUID' plan text out p) (piece : JsString) :
    Reads randomUUID' plan index contentType (text ++ piece)
      (out ++ (p.consumePartText randomUUID plan piece index contentType).1)
      (p.consumePartText randomUUID plan piece index contentType).2 := by
  unfold consumePartText
  dsimp only
  rw [if_pos h.sawDsml]
  split
  · next hspace =>
      rw [List.append_nil]
      refine .restored ⟨⟨h.failed, h.sawNativeTool, h.delayed, h.not_isError⟩, fun more hmore => ?_,
        fun more hmore => ?_, h.active, h.sawDsml, h.pending⟩
      · rw [List.append_assoc]
        exact h.space _ (trim_append_eq_nil_iff.mpr ⟨hspace, hmore⟩)
      · rw [List.append_assoc]
        exact h.content _ fun hnil => hmore (trim_append_eq_nil_iff.mp hnil).2
  · next hspace =>
      refine .rejected ⟨rfl, isError_of_fail _ _ _, fun more => ?_⟩
      rw [List.append_assoc]
      exact h.content _ fun hnil => hspace (trim_append_eq_nil_iff.mp hnil).1

/-- Text of one part is never flushed on the way. -/
theorem consumeText_eq (h : p.pendingText ≠ [] →
    p.pendingTextIndex = index ∧ p.pendingContentType = contentType) (piece : JsString) :
    p.consumeText randomUUID plan piece index contentType =
      p.consumePartText randomUUID plan piece index contentType := by
  unfold consumeText
  refine if_neg ?_
  rintro ⟨hpending, hother⟩
  obtain ⟨hindex, htype⟩ := h hpending
  exact hother.elim (fun hne => hne hindex.symm) fun hne => hne htype.symm

theorem transformEvent_text (hfailed : p.failed = false) (htype : contentType ≠ some .refusal)
    (piece : JsString) :
    p.transformEvent randomUUID plan (.textDelta piece index contentType) =
      p.consumeText randomUUID plan piece index contentType := by
  unfold transformEvent
  rw [if_neg (by rw [hfailed]; exact Bool.false_ne_true)]
  exact if_neg htype

/-- One text delta. -/
theorem transformEvent_reads (htype : contentType ≠ some .refusal)
    (h : Reads randomUUID' plan index contentType text out p) (piece : JsString) :
    Reads randomUUID' plan index contentType (text ++ piece)
      (out ++ (p.transformEvent randomUUID plan (.textDelta piece index contentType)).1)
      (p.transformEvent randomUUID plan (.textDelta piece index contentType)).2 := by
  cases h with
  | scanning h =>
      rw [transformEvent_text h.failed htype, consumeText_eq h.part]
      exact consumePartText_scanning h piece
  | inside marker inner h =>
      rw [transformEvent_text h.failed htype, consumeText_eq fun hne => absurd h.pending hne]
      exact consumePartText_inside h piece
  | restored h =>
      rw [transformEvent_text h.failed htype, consumeText_eq fun hne => absurd h.pending hne]
      exact consumePartText_restored h piece
  | rejected h =>
      have hskip : p.transformEvent randomUUID plan (.textDelta piece index contentType) =
          ([], p) := if_pos h.failed
      rw [hskip, List.append_nil]
      refine .rejected ⟨h.failed, h.isError, fun more => ?_⟩
      rw [List.append_assoc]
      exact h.error (piece ++ more)

/-! ## Runs -/

theorem reads_init : Reads randomUUID plan index contentType [] [] {} :=
  .scanning ⟨⟨rfl, rfl, rfl, fun _ he => nomatch he⟩, rfl, clear_nil _ _,
    earliest_eq_none.mp (by decide), rfl, rfl, rfl, rfl, fun hne => absurd rfl hne⟩

theorem transform_append (p : DeepSeekDsmlStreamParser) (events more : List CanonicalStreamEvent) :
    p.transform randomUUID plan (events ++ more) =
      ((p.transform randomUUID plan events).1 ++
          ((p.transform randomUUID plan events).2.transform randomUUID plan more).1,
        ((p.transform randomUUID plan events).2.transform randomUUID plan more).2) := by
  induction events generalizing p with
  | nil => rfl
  | cons event events ih =>
      rw [List.cons_append, transform, ih]
      simp only [transform, List.append_assoc]

theorem pushAll_eq (p : DeepSeekDsmlStreamParser) (pushed : List (List CanonicalStreamEvent)) :
    p.pushAll randomUUID plan pushed = p.transform randomUUID plan pushed.flatten := by
  induction pushed generalizing p with
  | nil => rfl
  | cons events more ih =>
      rw [List.flatten_cons, transform_append, pushAll, ih]
      rfl

/-- Text deltas of one part. -/
theorem transform_reads (htype : contentType ≠ some .refusal)
    (h : Reads randomUUID' plan index contentType text out p) (pieces : List JsString) :
    Reads randomUUID' plan index contentType (text ++ pieces.flatten)
      (out ++ (p.transform randomUUID plan
        (pieces.map fun piece => .textDelta piece index contentType)).1)
      (p.transform randomUUID plan
        (pieces.map fun piece => .textDelta piece index contentType)).2 := by
  induction pieces generalizing text out p with
  | nil =>
      rw [List.flatten_nil, List.append_nil, List.map_nil, transform, List.append_nil]
      exact h
  | cons piece pieces ih =>
      have hstep := @transformEvent_reads randomUUID randomUUID' plan index contentType text out p
        htype h piece
      have hrest := ih hstep
      rw [List.flatten_cons, ← List.append_assoc, List.map_cons, transform]
      dsimp only
      rw [← List.append_assoc]
      exact hrest

/-! ## The stop -/

/-- Nothing is left for `finish` to add. -/
def Settled (p : DeepSeekDsmlStreamParser) : Prop :=
  p.failed = true ∨ p.activeStartMarker = none ∧ p.pendingText = []

theorem finish_settled (h : Settled (p.transform randomUUID plan events).2) :
    p.finish randomUUID plan events = p.transform randomUUID plan events := by
  unfold finish
  rcases h with hfailed | ⟨hactive, hpending⟩
  · simp [hfailed]
  · simp [hactive, hpending]

/-- The events agree with what the buffered parser makes of the text. -/
structure Agrees (randomUUID : Nat → JsString) (plan : ToolBridgePlan) (text : JsString)
    (events : List CanonicalStreamEvent) : Prop where
  error_iff : (∃ e ∈ events, isError e = true) ↔
    ∃ e, parseDeepSeekDsmlBlock randomUUID text plan = .error e
  text_eq : ∀ result, parseDeepSeekDsmlBlock randomUUID text plan = .ok result →
    streamText events = result.elim text ParsedDeepSeekDsmlBlock.before
  calls_eq : ∀ result, parseDeepSeekDsmlBlock randomUUID text plan = .ok result →
    streamCalls events = result.elim [] fun block => block.calls.map called

theorem agrees_of_error (herror : ∃ e ∈ events, isError e = true)
    (hparse : ∃ e, parseDeepSeekDsmlBlock randomUUID text plan = .error e) :
    Agrees randomUUID plan text events := by
  obtain ⟨_, he⟩ := hparse
  refine ⟨⟨fun _ => ⟨_, he⟩, fun _ => herror⟩, fun result hok => ?_, fun result hok => ?_⟩
  · rw [he] at hok
    cases hok
  · rw [he] at hok
    cases hok

theorem agrees_of_ok (hparse : parseDeepSeekDsmlBlock randomUUID text plan = .ok result)
    (hquiet : ∀ e ∈ events, isError e = false)
    (htext : streamText events = result.elim text ParsedDeepSeekDsmlBlock.before)
    (hcalls : streamCalls events = result.elim [] fun block => block.calls.map called) :
    Agrees randomUUID plan text events := by
  refine ⟨⟨fun ⟨e, he, herror⟩ => ?_, fun ⟨_, he⟩ => ?_⟩, fun result' hok => ?_,
    fun result' hok => ?_⟩
  · rw [hquiet e he] at herror
    cases herror
  · rw [hparse] at he
    cases he
  · rw [hparse] at hok
    cases hok
    exact htext
  · rw [hparse] at hok
    cases hok
    exact hcalls

theorem not_isError_stop (h : ∀ e ∈ out, isError e = false)
    (hmore : ∀ e ∈ more, isError e = false) (reason : CanonicalStopReason)
    (rawReason : Option JsString) : ∀ e ∈ out ++ (more ++ [.stop reason rawReason]),
      isError e = false :=
  not_isError_append h (not_isError_append hmore fun _ he => List.mem_singleton.mp he ▸ rfl)

/-- The stop of a text without a start marker. -/
theorem transformStop_scanning (h : Scanning index contentType text out p)
    (reason : CanonicalStopReason) (rawReason : Option JsString) :
    Agrees randomUUID plan text (out ++ (p.transformStop reason rawReason).1) ∧
      Settled (p.transformStop reason rawReason).2 := by
  have hparse : parseDeepSeekDsmlBlock randomUUID text plan = .ok none := by
    have habsent : earliestMarker text startMarkers = none := by
      rw [h.text_eq]
      exact earliest_eq_none.mpr (h.clear.absent h.absent)
    rw [parseDeepSeekDsmlBlock, habsent]
  have hgives : GivesText (if p.pendingText ≠ [] then
      [.textDelta p.pendingText p.pendingTextIndex p.pendingContentType] else []) p.pendingText :=
    givesText_delta not_not.mp _ _
  have hfinish : p.finishTextAtStop = (if p.pendingText ≠ [] then
      [.textDelta p.pendingText p.pendingTextIndex p.pendingContentType] else [],
      { p with pendingText := [] }) := by
    unfold finishTextAtStop
    rw [if_neg (by rw [h.active]; exact Bool.false_ne_true)]
    by_cases hpending : p.pendingText = []
    · obtain ⟨pendingText, _, _⟩ := p
      cases hpending
      rfl
    · rw [if_neg hpending, if_pos hpending]
      simp [h.sawDsml, pendingTextEvent]
  generalize (if p.pendingText ≠ [] then
      [CanonicalStreamEvent.textDelta p.pendingText p.pendingTextIndex p.pendingContentType]
    else []) = events at *
  have hstop : p.transformStop reason rawReason =
      (events ++ [.stop reason rawReason],
        { p with pendingText := [], delayedMessageComplete := [] }) := by
    unfold transformStop
    rw [hfinish]
    simp [h.failed, h.delayed, h.sawDsml]
  rw [hstop]
  refine ⟨agrees_of_ok hparse (not_isError_stop h.not_isError hgives.not_isError _ _) ?_ ?_,
    .inr ⟨h.active, rfl⟩⟩
  · rw [streamText_append, streamText_append, hgives.text_eq, Option.elim_none, h.text_eq]
    exact congrArg (streamText out ++ ·) (List.append_nil _)
  · rw [streamCalls_append, streamCalls_append, h.calls, hgives.calls_eq]
    rfl

/-- The stop inside a block. -/
theorem transformStop_inside {marker inner : JsString} (h : Inside text out p marker inner)
    (reason : CanonicalStopReason) (rawReason : Option JsString) :
    Agrees randomUUID plan text (out ++ (p.transformStop reason rawReason).1) ∧
      Settled (p.transformStop reason rawReason).2 := by
  have hfinish : p.finishTextAtStop = p.fail endedInsideBlock := by
    unfold finishTextAtStop
    rw [h.active]
    rfl
  have hstop : p.transformStop reason rawReason =
      ((p.fail endedInsideBlock).1 ++ [.stop .error (some (js "invalid_dsml"))],
        (p.fail endedInsideBlock).2) := by
    unfold transformStop
    rw [hfinish]
    rfl
  rw [hstop]
  refine ⟨agrees_of_error ⟨_, List.mem_append_right _ List.mem_cons_self, rfl⟩ ?_, .inl rfl⟩
  rw [h.text_eq]
  exact parse_unclosed h.opened h.unclosed

/-- The stop behind a block. -/
theorem transformStop_restored (h : Restored randomUUID plan text out p)
    (reason : CanonicalStopReason) (rawReason : Option JsString) :
    Agrees randomUUID plan text (out ++ (p.transformStop reason rawReason).1) ∧
      Settled (p.transformStop reason rawReason).2 := by
  have hfinish : p.finishTextAtStop = ([], p) := by
    unfold finishTextAtStop
    rw [if_neg (by rw [h.active]; exact Bool.false_ne_true), if_pos h.pending]
  have hstop : p.transformStop reason rawReason =
      ([.stop .toolCalls (some (js "dsml_tool_calls"))],
        { p with delayedMessageComplete := [] }) := by
    unfold transformStop
    rw [hfinish]
    simp [h.failed, h.delayed, h.sawDsml]
  obtain ⟨block, hparse, hbefore, hcalls⟩ := h.space [] rfl
  rw [List.append_nil] at hparse
  rw [hstop]
  have hquiet : ∀ e ∈ out ++ [.stop .toolCalls (some (js "dsml_tool_calls"))], isError e = false :=
    not_isError_append h.not_isError fun e he => List.mem_singleton.mp he ▸ rfl
  refine ⟨agrees_of_ok hparse hquiet ?_ ?_, .inr ⟨h.active, h.pending⟩⟩
  · rw [streamText_append, Option.elim_some, hbefore]
    exact List.append_nil _
  · rw [streamCalls_append, Option.elim_some, hcalls]
    exact List.append_nil _

/-- The stop in any state. -/
theorem transformEvent_stop (h : Reads randomUUID' plan index contentType text out p)
    (reason : CanonicalStopReason) (rawReason : Option JsString) :
    Agrees randomUUID' plan text
        (out ++ (p.transformEvent randomUUID plan (.stop reason rawReason)).1) ∧
      Settled (p.transformEvent randomUUID plan (.stop reason rawReason)).2 := by
  have hrunning : p.failed = false →
      p.transformEvent randomUUID plan (.stop reason rawReason) =
        p.transformStop reason rawReason := fun hfailed =>
    if_neg (by rw [hfailed]; exact Bool.false_ne_true)
  cases h with
  | scanning h =>
      rw [hrunning h.failed]
      exact transformStop_scanning h reason rawReason
  | inside marker inner h =>
      rw [hrunning h.failed]
      exact transformStop_inside h reason rawReason
  | restored h =>
      rw [hrunning h.failed]
      exact transformStop_restored h reason rawReason
  | rejected h =>
      have hskip : p.transformEvent randomUUID plan (.stop reason rawReason) =
          ([.stop .error (some (js "invalid_dsml"))], p) := if_pos h.failed
      rw [hskip]
      obtain ⟨e, he, herror⟩ := h.isError
      obtain ⟨error, hparse⟩ := h.error []
      rw [List.append_nil] at hparse
      exact ⟨agrees_of_error ⟨e, List.mem_append_left _ he, herror⟩ ⟨error, hparse⟩, .inl h.failed⟩

/-! ## Main result -/

/-- However the text of one part is split into deltas, and however the deltas
and the stop behind them are handed over, the stream agrees with the buffered
parser: it fails exactly when that does, and else gives the same text and the
same calls. -/
theorem run_agrees (randomUUID randomUUID' : Nat → JsString) (plan : ToolBridgePlan)
    {index : Option Nat} {contentType : Option ContentType} (htype : contentType ≠ some .refusal)
    (pieces : List JsString) (reason : CanonicalStopReason) (rawReason : Option JsString)
    {pushed : List (List CanonicalStreamEvent)} {last : List CanonicalStreamEvent}
    (h : pushed.flatten ++ last =
      pieces.map (fun piece => .textDelta piece index contentType) ++ [.stop reason rawReason]) :
    Agrees randomUUID' plan pieces.flatten (run randomUUID plan pushed last) := by
  have hreads := @transform_reads randomUUID randomUUID' plan index contentType [] [] {} htype
    reads_init pieces
  have hstop := @transformEvent_stop randomUUID randomUUID' plan index contentType _ _ _ hreads
    reason rawReason
  have hsplit := @transform_append randomUUID plan {} pushed.flatten last
  rw [h, transform_append] at hsplit
  obtain ⟨hevents, hstate⟩ := Prod.mk.inj hsplit
  simp only [transform, List.append_nil] at hevents hstate
  obtain ⟨hagrees, hsettled⟩ := hstop
  rw [hstate] at hsettled
  rw [run, pushAll_eq, finish_settled hsettled, ← hevents]
  exact hagrees

def weatherBinding : ToolBridgeBinding := ⟨.function, js "weather", none, js "weather", none, none⟩

/-- A plan that declares one function. -/
def weatherPlan : ToolBridgePlan := ⟨.deepseekDsml, [weatherBinding], none⟩

/-- A block whose start marker is cut in two. -/
def weatherPieces : List JsString :=
  [js "hi <|DS", js "ML|tool_calls><|DSML|invoke name=\"weather\"></|DSML|invoke></|DSML|tool_",
    js "calls>\n"]

example : parseDeepSeekDsmlBlock (fun _ => []) weatherPieces.flatten weatherPlan =
    .ok (some ⟨js "hi ", js "\n", [⟨weatherBinding, js "call_dsml_", js "\x7b\x7d"⟩]⟩) := by
  decide +kernel

theorem run_agrees_of_split_marker :
    Agrees (fun _ => []) weatherPlan weatherPieces.flatten
      (run (fun _ => []) weatherPlan
        [weatherPieces.map fun piece => .textDelta piece (some 0) (some .text)] [.stop .stop none]) :=
  run_agrees (fun _ => []) (fun _ => []) weatherPlan (by decide) weatherPieces .stop none rfl

end DeepSeekDsmlStreamParser

end StonePlus.Dsml
