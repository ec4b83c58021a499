import Mathlib.Data.List.Flatten
import Mathlib.Data.List.Pairwise
import StonePlus.Js.SafeInteger
import StonePlus.Streaming.Parser
import StonePlus.Streaming.ToolCalls

/-!
# StonePlus.Streaming.GeminiCalls

Function calls of a Gemini stream.

A part without an id is known by its place in its chunk, and places recur from chunk to chunk
while `geminiToolIndices` lives for the whole stream.  So calls stay separate exactly when no two
of them share a key, except that parts with one explicit id may repeat a name.
-/

namespace StonePlus.Streaming

open Lib Lib.Effect

/-- A `functionCall` part. -/
structure GeminiCall where
  /-- Candidate and part, counted in the chunk. -/
  position : JsString
  id : Option JsString
  name : Option JsString
  /-- The JSON text of `args`. -/
  arguments : Option JsString

namespace GeminiCall

/-- What the parser files the call under. -/
def key (c : GeminiCall) : JsString := c.id.getD c.position

/-- The event of a call, once the keys have been numbered. -/
def delta (keys : List JsString) (c : GeminiCall) : StreamEvent :=
  .toolCallDelta (indexNumber (keys.idxOf c.key)) c.id c.name c.arguments none none

end GeminiCall

/-! ## The calls of a stream -/

def partCall (candidateIndex : Nat) (part : JsonObject × Nat) : List GeminiCall :=
  match (objectValue (part.1.prop "functionCall")).or (objectValue (part.1.prop "function_call")) with
  | none => []
  | some call =>
    [{ position := natToString candidateIndex ++ js ":" ++ natToString part.2
       id := optionalString (call.prop "id")
       name := optionalString (call.prop "name")
       arguments := (call.prop "args").map Json.stringify }]

def candidateCalls (candidate : JsonObject × Nat) : List GeminiCall :=
  let content := (objectValue (candidate.1.prop "content")).getD []
  (arrayOfObjects (content.prop "parts")).zipIdx.flatMap (partCall candidate.2)

/-- The calls of a payload; one that reports an error has none. -/
def payloadCalls (payload : Json) : List GeminiCall :=
  match objectValue (some payload) with
  | none => []
  | some payload =>
    if truthy (payload.prop "error") then []
    else (arrayOfObjects (payload.prop "candidates")).zipIdx.flatMap candidateCalls

def streamCalls (payloads : List Json) : List GeminiCall := payloads.flatMap payloadCalls

/-- What the parser emits for the payloads. -/
def geminiEvents (options : ParserOptions) (payloads : List Json) : List StreamEvent :=
  (execAll (payloads.map (handlePayload .gemini options none)) {}).1

/-! ## Numbering -/

/-- Each key is filed under its place. -/
def Numbered (keys : List JsString) (s : ParserState) : Prop :=
  s.geminiToolIndices.entries = keys.zipIdx ∧ s.nextToolIndex = keys.length

/-- The calls have been filed and emitted. -/
structure Filed (calls : List GeminiCall) (keys : List JsString) (s : ParserState)
    (out : List StreamEvent) (keys' : List JsString) : Prop where
  numbered : Numbered keys' s
  grows : keys <+: keys'
  mem : ∀ k, k ∈ keys' ↔ k ∈ keys ∨ k ∈ calls.map GeminiCall.key
  deltas : out.filter isToolDelta = calls.map (GeminiCall.delta keys')

/-- A method files these calls. -/
def Files (calls : List GeminiCall) (m : Handler Unit) : Prop :=
  ∀ s keys, Numbered keys s → ∃ keys', Filed calls keys (m s).2.1 (m s).2.2 keys'

theorem Numbered.nodup (h : Numbered keys s) : keys.Nodup := by
  have hnodup := s.geminiToolIndices.nodup
  rwa [h.1, List.zipIdx_map_fst] at hnodup

theorem delta_of_grows (h : keys <+: keys') {c : GeminiCall} (hmem : c.key ∈ keys) :
    c.delta keys' = c.delta keys := by
  obtain ⟨rest, rfl⟩ := h
  rw [GeminiCall.delta, List.idxOf_append_of_mem hmem]
  rfl

/-- A method that numbers nothing and emits no call. -/
def Silent (m : Handler Unit) : Prop :=
  Keeps (fun s : ParserState => (s.geminiToolIndices, s.nextToolIndex))
    (fun e => isToolDelta e = false) m

theorem files_of_silent (h : Silent m) : Files [] m := by
  intro s keys hnumbered
  obtain ⟨hindices, hnext⟩ := Prod.mk.inj (h s).1
  refine ⟨keys, ⟨?_, List.prefix_rfl, by simp, ?_⟩⟩
  · exact ⟨(congrArg JsMap.entries hindices).trans hnumbered.1, hnext.trans hnumbered.2⟩
  · rw [List.map_nil, List.filter_eq_nil_iff]
    intro e he
    simp [(h s).2 e he]

theorem Files.bind {as bs : List GeminiCall} {m n : Handler Unit} (hm : Files as m)
    (hn : Files bs n) : Files (as ++ bs) (do m; n) := by
  intro s keys hnumbered
  obtain ⟨mid, hmid⟩ := hm s keys hnumbered
  obtain ⟨keys', hlast⟩ := hn _ mid hmid.numbered
  have hrun : (do m; n : Handler Unit) s =
      ((n (m s).2.1).1, (n (m s).2.1).2.1, (m s).2.2 ++ (n (m s).2.1).2.2) := by
    cases hms : m s with
    | mk r rest =>
        cases r with
        | error e => exact e.elim
        | ok u => exact bind_of_ok hms
  rw [hrun]
  refine ⟨keys', ⟨hlast.numbered, hmid.grows.trans hlast.grows, fun k => ?_, ?_⟩⟩
  · rw [hlast.mem, hmid.mem, List.map_append, List.mem_append, or_assoc]
  · rw [List.filter_append, hmid.deltas, hlast.deltas, List.map_append]
    congr 1
    refine List.map_congr_left fun c hc => ?_
    exact (delta_of_grows hlast.grows ((hmid.mem _).mpr (.inr (List.mem_map_of_mem hc)))).symm

variable {calls : List GeminiCall}

theorem Silent.bind {m n : Handler Unit} (hm : Silent m) (hn : Files calls n) :
    Files calls (do m; n) := (files_of_silent hm).bind hn

theorem Files.forM {α : Type} {calls : α → List GeminiCall} {f : α → Handler PUnit}
    (h : ∀ a, Files (calls a) (f a)) (as : List α) : Files (as.flatMap calls) (as.forM f) := by
  induction as with
  | nil => exact files_of_silent (Keeps.pure _)
  | cons a as ih => exact (h a).bind ih

theorem lookup_zipIdx {keys : List JsString} {k : JsString} (n : Nat) :
    JsMap.lookup k (keys.zipIdx n) =
      if k ∈ keys then some (n + keys.idxOf k) else none := by
  induction keys generalizing n with
  | nil => rfl
  | cons key keys ih =>
      rw [List.zipIdx_cons, JsMap.lookup, ih]
      by_cases h : key = k
      · simp [h]
      · by_cases hmem : k ∈ keys
        · simp [h, hmem, Ne.symm h, List.idxOf_cons_ne, Nat.add_assoc, Nat.add_comm 1]
        · simp [h, hmem, Ne.symm h]

/-! ## One part -/

/-- A key keeps its index, or gets the next one. -/
theorem geminiToolIndex_files (h : Numbered keys s) (k : JsString) :
    ∃ keys' s', geminiToolIndex k s = (.ok (keys'.idxOf k), s', []) ∧ Numbered keys' s' ∧
      keys <+: keys' ∧ ∀ k', k' ∈ keys' ↔ k' ∈ keys ∨ k' = k := by
  have hget : s.geminiToolIndices.get? k = if k ∈ keys then some (keys.idxOf k) else none := by
    have := @lookup_zipIdx keys k 0
    rwa [← h.1, Nat.zero_add] at this
  by_cases hmem : k ∈ keys
  · rw [if_pos hmem] at hget
    refine ⟨keys, s, ?_, h, List.prefix_rfl, fun k' => ⟨.inl, ?_⟩⟩
    · unfold geminiToolIndex
      rw [bind_of_ok (rfl : get s = _)]
      simp only [hget]
      rfl
    · rintro (h | rfl)
      · exact h
      · exact hmem
  · rw [if_neg hmem] at hget
    let filed : ParserState :=
      { s with
        nextToolIndex := s.nextToolIndex + 1
        geminiToolIndices := s.geminiToolIndices.set k s.nextToolIndex }
    refine ⟨keys ++ [k], filed, ?_, ⟨?_, ?_⟩, List.prefix_append _ _, by simp⟩
    · have hidx : (keys ++ [k]).idxOf k = s.nextToolIndex := by
        rw [List.idxOf_append_of_notMem hmem, h.2]
        simp
      unfold geminiToolIndex
      rw [bind_of_ok (rfl : get s = _)]
      simp only [hget]
      rw [hidx]
      rfl
    · show JsMap.setEntries k s.nextToolIndex s.geminiToolIndices.entries = _
      rw [JsMap.setEntries_of_not_mem, h.1, h.2, List.zipIdx_append]
      · simp
      · rwa [h.1, List.zipIdx_map_fst]
    · show s.nextToolIndex + 1 = _
      rw [h.2, List.length_append, List.length_singleton]

theorem silent_emit (h : isToolDelta e = false) : Silent (emit e) := Keeps.emit h

theorem silent_modify
    (h : ∀ s, (f s).geminiToolIndices = s.geminiToolIndices ∧ (f s).nextToolIndex = s.nextToolIndex) :
    Silent (modify f) := Keeps.modify fun s => Prod.ext (h s).1 (h s).2

/-- The call of a part is filed. -/
theorem files_call (c : GeminiCall) : Files [c] (do
    let index ← geminiToolIndex c.key
    modify fun s => { s with sawToolCall := true }
    emit (.toolCallDelta (indexNumber index) c.id c.name c.arguments none none)) := by
  intro s keys hnumbered
  obtain ⟨keys', s', hrun, hnumbered', hprefix', hmem⟩ := geminiToolIndex_files hnumbered c.key
  rw [bind_of_ok hrun]
  refine ⟨keys', ⟨hnumbered', hprefix', by simpa using hmem, ?_⟩⟩
  rfl

theorem files_handleGeminiPart (options : ParserOptions) (candidateIndex : Nat)
    (part : JsonObject × Nat) :
    Files (partCall candidateIndex part) (handleGeminiPart options candidateIndex part) := by
  have htext : Silent (whenever (!(stringValue (part.1.prop "text") []).isEmpty) (
      if options.suppressGeminiThoughtText && decide (part.1.prop "thought" = some (.bool true))
      then whenever options.emitReasoningProgress (emit .reasoningProgress)
      else emit (.textDelta (stringValue (part.1.prop "text") []) none none))) := by
    refine Keeps.whenever ?_
    split
    · exact Keeps.whenever (silent_emit rfl)
    · exact silent_emit rfl
  refine Silent.bind htext ?_
  unfold partCall
  generalize (objectValue (part.1.prop "functionCall")).or
    (objectValue (part.1.prop "function_call")) = call
  cases call with
  | none => exact files_of_silent (Keeps.pure _)
  | some call =>
      exact files_call
        { position := natToString candidateIndex ++ js ":" ++ natToString part.2
          id := optionalString (call.prop "id")
          name := optionalString (call.prop "name")
          arguments := (call.prop "args").map Json.stringify }

/-! ## A payload -/

theorem silent_emitStart (id model created : Option Json) : Silent (emitStart id model created) := by
  refine Keeps.bind Keeps.get fun s => ?_
  dsimp only
  split
  · exact Keeps.pure _
  · exact Keeps.bind (silent_modify fun _ => ⟨rfl, rfl⟩) fun _ => silent_emit rfl

theorem silent_emitStop (reason : CanonicalStopReason) (raw : Option JsString) :
    Silent (emitStop reason raw) := by
  refine Keeps.bind Keeps.get fun s => ?_
  split
  · exact Keeps.pure _
  · exact Keeps.bind (silent_modify fun _ => ⟨rfl, rfl⟩) fun _ => silent_emit rfl

theorem silent_emitDone : Silent emitDone := by
  refine Keeps.bind Keeps.get fun s => ?_
  split
  · exact Keeps.pure _
  · exact Keeps.bind (silent_modify fun _ => ⟨rfl, rfl⟩) fun _ => silent_emit rfl

theorem silent_emitError (message : JsString) (code errorType : Option JsString) :
    Silent (emitError message code errorType) :=
  Keeps.bind (silent_modify fun _ => ⟨rfl, rfl⟩) fun _ => silent_emit rfl

theorem silent_emitErrorObject (value : Option Json) : Silent (emitErrorObject value) := by
  unfold emitErrorObject
  split
  · split
    · exact silent_emitError _ _ _
    · exact silent_emitError _ _ _
  · exact silent_emitError _ _ _

theorem silent_emitParsedUsage (parsed : CanonicalUsage) : Silent (emitParsedUsage parsed) := by
  unfold emitParsedUsage
  split
  · exact Keeps.pure _
  · refine Keeps.bind (silent_modify fun _ => ⟨rfl, rfl⟩) fun _ => Keeps.bind Keeps.get fun s => ?_
    split
    · exact Keeps.pure _
    · exact Keeps.bind (silent_modify fun _ => ⟨rfl, rfl⟩) fun _ => silent_emit rfl

theorem silent_emitUsage (usage : Option JsonObject) (inputKey outputKey : String)
    (totalKey : Option String) : Silent (emitUsage usage inputKey outputKey totalKey) := by
  unfold emitUsage
  split
  · exact Keeps.pure _
  · exact silent_emitParsedUsage _

theorem files_handleGemini (options : ParserOptions) {payload : JsonObject}
    (herror : truthy (payload.prop "error") = false) :
    Files ((arrayOfObjects (payload.prop "candidates")).zipIdx.flatMap candidateCalls)
      (handleGemini options payload) := by
  have hcandidate : ∀ candidate,
      Files (candidateCalls candidate) (handleGeminiCandidate options candidate) := fun candidate =>
    .forM (files_handleGeminiPart options candidate.2) _
  unfold handleGemini
  rw [if_neg (by simp [herror]),
    ← List.append_nil ((arrayOfObjects (payload.prop "candidates")).zipIdx.flatMap candidateCalls)]
  refine Silent.bind (silent_emitStart _ _ _) ((Files.forM hcandidate _).bind (files_of_silent ?_))
  refine Keeps.bind (silent_emitUsage _ _ _ _) fun _ => ?_
  split
  · exact Keeps.pure _
  · refine Keeps.bind Keeps.get fun s => Keeps.bind (silent_emitStop _ _) fun _ => ?_
    exact silent_emitDone

theorem files_handlePayload (options : ParserOptions) (payload : Json) :
    Files (payloadCalls payload) (handlePayload .gemini options none payload) := by
  unfold payloadCalls handlePayload
  cases objectValue (some payload) with
  | none => exact files_of_silent (silent_emitError _ _ _)
  | some payload =>
      dsimp only
      refine Silent.bind (Keeps.whenever (silent_modify fun _ => ⟨rfl, rfl⟩)) ?_
      by_cases herror : truthy (payload.prop "error") = true
      · rw [if_pos herror]
        unfold handleGemini
        rw [if_pos herror]
        exact files_of_silent (silent_emitErrorObject _)
      · rw [if_neg herror]
        exact files_handleGemini options (by simpa using herror)

/-! ## A stream -/

/-- Every stream files its calls. -/
theorem files_stream (options : ParserOptions) (payloads : List Json) {s : ParserState}
    {keys : List JsString} (h : Numbered keys s) :
    ∃ keys', Filed (streamCalls payloads) keys
      (execAll (payloads.map (handlePayload .gemini options none)) s).2
      (execAll (payloads.map (handlePayload .gemini options none)) s).1 keys' := by
  have hrun : ∀ s, execAll (payloads.map (handlePayload .gemini options none)) s =
      exec (payloads.forM (handlePayload .gemini options none)) s := by
    induction payloads with
    | nil => exact fun _ => rfl
    | cons payload payloads ih =>
        intro s
        rw [List.map_cons, execAll, ih]
        show _ = exec (do handlePayload .gemini options none payload; payloads.forM _) s
        unfold exec
        cases hs : handlePayload .gemini options none payload s with
        | mk r rest =>
            cases r with
            | error e => exact e.elim
            | ok u => rw [bind_of_ok hs]
  rw [hrun]
  exact Files.forM (files_handlePayload options) payloads s keys h

/-! ## Separate calls -/

/-- What tells calls apart: an explicit id, or else that they are different parts. -/
def callIdentity (c : GeminiCall × Nat) : JsString ⊕ Nat :=
  match c.1.id with
  | some id => .inl id
  | none => .inr c.2

/-- The tool calls of the stream are its calls, in order, parts with one explicit id counted
once, each with the name and the arguments of its parts. -/
def CallsSeparate (options : ParserOptions) (payloads : List Json) : Prop :=
  List.Forall₂
    (fun tool parts => ∀ c ∈ parts,
      tool.name = c.1.name.getD [] ∧ tool.arguments = c.1.arguments.getD [])
    (foldTools (geminiEvents options payloads)).values
    (groups callIdentity (streamCalls payloads).zipIdx)

/-- A later call may come under the key of an earlier one: it repeats its id and its name, and
neither has arguments. -/
def Repeats (c d : GeminiCall) : Prop :=
  c.id.isSome ∧ d.id = c.id ∧ d.name.getD [] = c.name.getD [] ∧ c.arguments = none ∧
    d.arguments = none

/-- Calls share a key only as repetitions, and their numbers stay safe. -/
def KeysSeparate (calls : List GeminiCall) : Prop :=
  calls.Pairwise (fun c d => c.key = d.key → Repeats c d) ∧
    (calls.map GeminiCall.key).dedup.length ≤ 2 ^ 53 + 1

theorem mapKey_index {n : Nat} (h : n ≤ 2 ^ 53) :
    mapKey (indexNumber n) = indexNumber n ∧ (indexNumber n).toRat? = some (n : ℚ) := by
  rcases Nat.lt_or_eq_of_le h with hlt | rfl
  · have hsafe : (n : Int).natAbs < 2 ^ 53 := by omega
    refine ⟨?_, JsNumber.toRat?_ofInt hsafe⟩
    unfold mapKey
    split
    · next hzero =>
      rw [(JsNumber.ofInt_beq_zero hsafe).mp hzero]
      rfl
    · rfl
  · constructor
    · decide +kernel
    · decide +kernel

theorem mapKey_index_injective {m n : Nat} (hm : m ≤ 2 ^ 53) (hn : n ≤ 2 ^ 53)
    (h : mapKey (indexNumber m) = mapKey (indexNumber n)) : m = n := by
  rw [(mapKey_index hm).1, (mapKey_index hn).1] at h
  have hrat := (mapKey_index hm).2
  rw [h, (mapKey_index hn).2] at hrat
  exact_mod_cast (Option.some.inj hrat).symm

/-- The number the call of an occurrence comes with. -/
def filedUnder (keys : List JsString) (c : GeminiCall × Nat) : JsNumber :=
  mapKey (indexNumber (keys.idxOf c.1.key))

/-- The name and the arguments of the parts that come under one number. -/
abbrev mergedParts (parts : List (GeminiCall × Nat)) : JsString × JsString :=
  mergedCall (fun c => c.1.name) (fun c => c.1.arguments) parts

/-- The tools of a stream are its calls, merged number by number. -/
theorem exists_numbering (options : ParserOptions) (payloads : List Json) :
    ∃ keys : List JsString, keys.Nodup ∧
      (∀ k, k ∈ keys ↔ k ∈ (streamCalls payloads).map GeminiCall.key) ∧
      (foldTools (geminiEvents options payloads)).values.map
          (fun tool => (tool.name, tool.arguments)) =
        (groups (filedUnder keys) (streamCalls payloads).zipIdx).map mergedParts := by
  have hempty : Numbered [] {} := ⟨rfl, rfl⟩
  obtain ⟨keys, hfiled⟩ := files_stream options payloads hempty
  refine ⟨keys, hfiled.numbered.nodup, fun k => by simpa using hfiled.mem k, ?_⟩
  have hcalls : (geminiEvents options payloads).filter isToolDelta =
      (streamCalls payloads).zipIdx.map fun c => c.1.delta keys := by
    have hfst := List.zipIdx_map_fst 0 (streamCalls payloads)
    calc _ = (streamCalls payloads).map (GeminiCall.delta keys) := hfiled.deltas
      _ = ((streamCalls payloads).zipIdx.map Prod.fst).map (GeminiCall.delta keys) := by rw [hfst]
      _ = _ := List.map_map ..
  rw [← foldTools_filter, hcalls]
  exact values_foldTools (fun c : GeminiCall × Nat => indexNumber (keys.idxOf c.1.key))
    (fun c => c.1.id) (fun c => c.1.name) (fun c => c.1.arguments) _

theorem mem_of_zipIdx (h : c ∈ calls.zipIdx) : c.1 ∈ calls := by
  rw [← List.zipIdx_map_fst 0 calls]
  exact List.mem_map_of_mem h

theorem lt_of_sublist (h : [c, d].Sublist calls.zipIdx) : c.2 < d.2 := by
  have hsnd := h.map Prod.snd
  rw [List.zipIdx_map_snd] at hsnd
  have hlt := List.Pairwise.sublist hsnd List.pairwise_lt_range'
  simpa using hlt

theorem key_eq_of_identity (hc : c ∈ calls.zipIdx) (hd : d ∈ calls.zipIdx)
    (h : callIdentity c = callIdentity d) : c.1.key = d.1.key := by
  unfold callIdentity at h
  cases hcid : c.1.id with
  | some id =>
      cases hdid : d.1.id with
      | some id' =>
          simp only [hcid, hdid, Sum.inl.injEq] at h
          rw [GeminiCall.key, GeminiCall.key, hcid, hdid, h]
          rfl
      | none => simp [hcid, hdid] at h
  | none =>
      cases hdid : d.1.id with
      | some id' => simp [hcid, hdid] at h
      | none =>
          simp only [hcid, hdid, Sum.inr.injEq] at h
          rw [List.mem_zipIdx_iff_getElem?] at hc hd
          rw [h, hd] at hc
          rw [Option.some.inj hc]

theorem identity_of_repeats (h : Repeats c.1 d.1) : callIdentity c = callIdentity d := by
  obtain ⟨id, hid⟩ := Option.isSome_iff_exists.mp h.1
  rw [callIdentity, callIdentity, h.2.1, hid]

/-- Parts that repeat one another come out as any of them says. -/
theorem mergedParts_of_repeats (h : parts.Pairwise fun c d => Repeats c.1 d.1) (hc : c ∈ parts) :
    mergedParts parts = (c.1.name.getD [], c.1.arguments.getD []) := by
  have hmerge : ∀ (name : Option JsString),
      (name.map (mergeStreamedIdentity [])).getD [] = name.getD [] := by
    intro name
    rcases name with _ | ⟨_ | ⟨u, us⟩⟩ <;> simp [mergeStreamedIdentity]
  cases parts with
  | nil => simp at hc
  | cons d rest =>
      obtain ⟨hrest, -⟩ := List.pairwise_cons.mp h
      have hfold : ∀ rest : List (GeminiCall × Nat), (∀ e ∈ rest, Repeats d.1 e.1) →
          rest.foldl (fun call e => mergeCall (some call) e.1.name e.1.arguments)
            (d.1.name.getD [], d.1.arguments.getD []) =
            (d.1.name.getD [], d.1.arguments.getD []) := by
        intro rest hrest
        induction rest with
        | nil => rfl
        | cons e rest ih =>
            obtain ⟨-, -, hname, -, hargs⟩ := hrest e List.mem_cons_self
            have hsame : mergeCall (some (d.1.name.getD [], d.1.arguments.getD [])) e.1.name
                e.1.arguments = (d.1.name.getD [], d.1.arguments.getD []) := by
              rw [← hname, hargs]
              cases e.1.name <;> simp [mergeCall, mergeStreamedIdentity]
            rw [List.foldl_cons, hsame]
            exact ih fun e he => hrest e (List.mem_cons_of_mem _ he)
      have hd : mergedParts (d :: rest) = (d.1.name.getD [], d.1.arguments.getD []) := by
        rw [mergedParts, mergedCall, List.foldl_cons]
        have hfirst : mergeCall (some ([], [])) d.1.name d.1.arguments =
            (d.1.name.getD [], d.1.arguments.getD []) := by simp [mergeCall, hmerge]
        rw [hfirst, hfold rest hrest]
      rcases List.mem_cons.mp hc with rfl | hc
      · exact hd
      · obtain ⟨-, -, hname, hdargs, hcargs⟩ := hrest c hc
        rw [hd, hname, hdargs, hcargs]

/-- The arguments of every part stand in what comes out. -/
theorem flatMap_arguments (parts : List (GeminiCall × Nat)) :
    (mergedParts parts).2 = parts.flatMap fun c => c.1.arguments.getD [] := by
  induction parts using List.reverseRecOn with
  | nil => rfl
  | append_singleton parts c ih =>
      rw [mergedParts, mergedCall_append, List.flatMap_append, ← ih]
      simp [mergeCall]

section

variable {calls : List GeminiCall} {keys : List JsString}

theorem filedUnder_of_identity : ∀ c ∈ calls.zipIdx, ∀ d ∈ calls.zipIdx,
    callIdentity c = callIdentity d → filedUnder keys c = filedUnder keys d := by
  intro c hc d hd heq
  rw [filedUnder, filedUnder, key_eq_of_identity hc hd heq]

variable {c : GeminiCall × Nat}

/-- Parts that come out as each of them says repeat one another. -/
theorem repeats_of_mergedParts (hargs : ∀ c ∈ calls, c.arguments ≠ some [])
    (h : ∀ parts ∈ groups callIdentity calls.zipIdx, ∀ c ∈ parts,
      mergedParts parts = (c.1.name.getD [], c.1.arguments.getD []))
    (hsub : [c, d].Sublist calls.zipIdx) (hidentity : callIdentity c = callIdentity d) :
    Repeats c.1 d.1 := by
  have hc : c ∈ calls.zipIdx := hsub.subset (by simp)
  have hd : d ∈ calls.zipIdx := hsub.subset (by simp)
  obtain ⟨parts, hparts, hsubparts⟩ := exists_group hsub hidentity
  have hctold := h parts hparts c (hsubparts.subset (by simp))
  have hdtold := h parts hparts d (hsubparts.subset (by simp))
  obtain ⟨hname, hsame⟩ := Prod.mk.inj (hctold.symm.trans hdtold)
  -- The arguments of both parts stand one after the other in those of the call.
  have hlength := (hsubparts.flatMap fun c => c.1.arguments.getD []).length_le
  rw [← flatMap_arguments parts, hctold] at hlength
  simp only [List.flatMap_cons, List.flatMap_nil, List.append_nil, List.length_append] at hlength
  have hdnil : d.1.arguments.getD [] = [] := List.eq_nil_of_length_eq_zero (by omega)
  have hnone : ∀ {e : GeminiCall × Nat}, e ∈ calls.zipIdx → e.1.arguments.getD [] = [] →
      e.1.arguments = none := by
    intro e he hnil
    cases hea : e.1.arguments with
    | none => rfl
    | some text =>
        rw [hea] at hnil
        exact absurd (hnil ▸ hea) (hargs _ (mem_of_zipIdx he))
  have hids : c.1.id.isSome ∧ d.1.id = c.1.id := by
    have hlt := lt_of_sublist hsub
    unfold callIdentity at hidentity
    cases hcid : c.1.id <;> cases hdid : d.1.id <;> simp [hcid, hdid] at hidentity ⊢
    · omega
    · exact hidentity.symm
  exact ⟨hids.1, hids.2, hname.symm, hnone hc (hsame.trans hdnil), hnone hd hdnil⟩

/-- Calls whose keys repeat only with their ids are told apart by their keys. -/
theorem identity_of_key (h : calls.Pairwise fun c d => c.key = d.key → Repeats c d) :
    ∀ c ∈ calls.zipIdx, ∀ d ∈ calls.zipIdx, c.1.key = d.1.key →
      callIdentity c = callIdentity d := by
  rw [← List.zipIdx_map_fst 0 calls, List.pairwise_map] at h
  have : Std.Symm fun c d : GeminiCall × Nat => c.1.key = d.1.key →
      callIdentity c = callIdentity d := ⟨fun c d h hkey => (h hkey.symm).symm⟩
  exact List.Pairwise.forall_of_forall (fun c _ _ => rfl)
    (h.imp fun h hkey => identity_of_repeats (h hkey))

variable (hnodup : keys.Nodup) (hmem : ∀ k, k ∈ keys ↔ k ∈ calls.map GeminiCall.key)

include hmem

theorem mem_keys_of_zipIdx (hc : c ∈ calls.zipIdx) : c.1.key ∈ keys :=
  (hmem _).mpr (List.mem_map_of_mem (mem_of_zipIdx hc))

include hnodup

theorem length_keys : keys.length = (calls.map GeminiCall.key).dedup.length :=
  List.Perm.length_eq ((List.perm_ext_iff_of_nodup hnodup (List.nodup_dedup _)).mpr fun k => by
    rw [hmem, List.mem_dedup])

/-- Numbers that tell calls apart are safe. -/
theorem length_le_of_separate
    (hfine : ∀ c ∈ calls.zipIdx, ∀ d ∈ calls.zipIdx, filedUnder keys c = filedUnder keys d →
      c.1.key = d.1.key) : (calls.map GeminiCall.key).dedup.length ≤ 2 ^ 53 + 1 := by
  rw [← length_keys hnodup hmem]
  by_contra hlong
  have hcall : ∀ {n} (hn : n < keys.length), ∃ c ∈ calls.zipIdx, c.1.key = keys[n] := by
    intro n hn
    obtain ⟨c, hc, hkey⟩ := List.mem_map.mp ((hmem _).mp (List.getElem_mem hn))
    rw [← List.zipIdx_map_fst 0 calls] at hc
    obtain ⟨c', hc', rfl⟩ := List.mem_map.mp hc
    exact ⟨c', hc', hkey⟩
  obtain ⟨c, hc, hckey⟩ := @hcall (2 ^ 53) (by omega)
  obtain ⟨d, hd, hdkey⟩ := @hcall (2 ^ 53 + 1) (by omega)
  -- The two numbers round to one.
  have hsame : filedUnder keys c = filedUnder keys d := by
    rw [filedUnder, filedUnder, hckey, hdkey, hnodup.idxOf_getElem, hnodup.idxOf_getElem]
    decide +kernel
  have hkeys := hfine c hc d hd hsame
  rw [hckey, hdkey, hnodup.getElem_inj_iff] at hkeys
  omega

/-- Safe numbers tell calls with different keys apart. -/
theorem key_of_filedUnder (hlength : (calls.map GeminiCall.key).dedup.length ≤ 2 ^ 53 + 1)
    {d : GeminiCall × Nat} (hc : c ∈ calls.zipIdx) (hd : d ∈ calls.zipIdx)
    (h : filedUnder keys c = filedUnder keys d) : c.1.key = d.1.key := by
  rw [← length_keys hnodup hmem] at hlength
  have hle : ∀ {e}, e ∈ calls.zipIdx → keys.idxOf e.1.key ≤ 2 ^ 53 := fun he => by
    have := List.idxOf_lt_length_of_mem (mem_keys_of_zipIdx hmem he)
    omega
  have hidx := mapKey_index_injective (hle hc) (hle hd) h
  exact (List.idxOf_inj (mem_keys_of_zipIdx hmem hc)).mp hidx

theorem separate_iff (hargs : ∀ c ∈ calls, c.arguments ≠ some []) :
    List.Forall₂
        (fun call parts => ∀ c ∈ parts, call = (c.1.name.getD [], c.1.arguments.getD []))
        ((groups (filedUnder keys) calls.zipIdx).map mergedParts)
        (groups callIdentity calls.zipIdx) ↔ KeysSeparate calls := by
  rw [List.forall₂_map_left_iff]
  constructor
  · intro h
    have hfine : ∀ c ∈ calls.zipIdx, ∀ d ∈ calls.zipIdx, filedUnder keys c = filedUnder keys d →
        callIdentity c = callIdentity d := fun c hc d hd =>
      key_eq_of_length_groups filedUnder_of_identity h.length_eq hc hd
    rw [groups_congr fun c hc d hd => ⟨hfine c hc d hd, filedUnder_of_identity c hc d hd⟩,
      List.forall₂_same] at h
    refine ⟨?_, length_le_of_separate hnodup hmem fun c hc d hd heq =>
      key_eq_of_identity hc hd (hfine c hc d hd heq)⟩
    rw [← List.zipIdx_map_fst 0 calls, List.pairwise_map, List.pairwise_iff_forall_sublist]
    intro c d hsub hkey
    refine repeats_of_mergedParts hargs h hsub (hfine c (hsub.subset (by simp)) d
      (hsub.subset (by simp)) ?_)
    rw [filedUnder, filedUnder, hkey]
  · rintro ⟨hpair, hlength⟩
    have hfine : ∀ c ∈ calls.zipIdx, ∀ d ∈ calls.zipIdx, filedUnder keys c = filedUnder keys d →
        callIdentity c = callIdentity d := fun c hc d hd heq =>
      identity_of_key hpair c hc d hd (key_of_filedUnder hnodup hmem hlength hc hd heq)
    rw [groups_congr fun c hc d hd => ⟨hfine c hc d hd, filedUnder_of_identity c hc d hd⟩,
      List.forall₂_same]
    intro parts hparts c hc
    refine mergedParts_of_repeats ?_ hc
    rw [← List.zipIdx_map_fst 0 calls, List.pairwise_map] at hpair
    have hsub := sublist_of_mem_groups hparts
    refine (hpair.sublist hsub).imp_of_mem fun hd he h => h ?_
    exact key_eq_of_identity (hsub.subset hd) (hsub.subset he) (key_eq_of_mem_groups hparts hd he)

end

theorem stringify_ne_nil (value : Json) : Json.stringify value ≠ [] := by
  cases value with
  | null => decide
  | bool b => cases b <;> decide
  | number n =>
      rw [Json.stringify, Json.stringifyNumber]
      split
      · exact JsNumber.toJsString_ne_nil n
      · decide
  | string s => simp [Json.stringify, Json.quote, js]
  | array items => simp [Json.stringify, js]
  | object entries => simp [Json.stringify, js]

/-- The JSON text of a value is never empty. -/
theorem arguments_ne_nil (h : c ∈ streamCalls payloads) : c.arguments ≠ some [] := by
  obtain ⟨payload, -, hpayload⟩ := List.mem_flatMap.mp h
  unfold payloadCalls at hpayload
  split at hpayload
  · simp at hpayload
  · split at hpayload
    · simp at hpayload
    · obtain ⟨candidate, -, hcandidate⟩ := List.mem_flatMap.mp hpayload
      obtain ⟨part, -, hpart⟩ := List.mem_flatMap.mp hcandidate
      unfold partCall at hpart
      split at hpart
      · simp at hpart
      · next call _ =>
        rw [List.mem_singleton.mp hpart]
        cases call.prop "args" with
        | none => simp
        | some args => simpa using stringify_ne_nil args

/-- Function calls stay separate exactly when no two calls share a key, except for repetitions. -/
theorem callsSeparate_iff (options : ParserOptions) (payloads : List Json) :
    CallsSeparate options payloads ↔ KeysSeparate (streamCalls payloads) := by
  obtain ⟨keys, hnodup, hmem, hvalues⟩ := exists_numbering options payloads
  rw [← separate_iff hnodup hmem fun c hc => arguments_ne_nil hc, ← hvalues,
    List.forall₂_map_left_iff]
  simp only [CallsSeparate, Prod.mk.injEq]

/-- A chunk with one call without an id. -/
def lookupChunk (city : String) : Json :=
  .object [(js "candidates", .array [.object [(js "content", .object [(js "parts", .array [.object
    [(js "functionCall", .object [(js "name", .string (js "lookup")),
      (js "args", .object [(js "city", .string (js city))])])]])])]])]

/-- Calls of two chunks are merged into one. -/
theorem callsSeparate_fails : ¬CallsSeparate {} [lookupChunk "Oslo", lookupChunk "Rome"] := by
  intro h
  exact absurd h.length_eq (by decide +kernel)

end StonePlus.Streaming
