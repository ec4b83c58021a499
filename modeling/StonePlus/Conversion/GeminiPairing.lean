import StonePlus.Conversion.GeminiIds

/-!
# StonePlus.Conversion.GeminiPairing

Results and calls in converted Gemini requests.

`answersOf` says which call each result answers.  The converters queue the ids of all calls of a
name in one list, so a result without id takes the first of them, also when that call has an id
of its own.  `pairsCalls_iff` says that nothing else goes wrong.
-/

namespace StonePlus.Conversion

open Streaming

/-! ## What answers what -/

/-- The ids the calls bring. -/
def explicitIds (events : List Event) : List JsString :=
  events.filterMap fun
    | .call _ id => id
    | .answer _ _ => none

/-! ## What answers what -/

/-- A call without an answer, the `index`-th of all calls. -/
structure OpenCall where
  index : Nat
  name : JsString
  id : Option JsString
  deriving DecidableEq

/-- A response answers a call of its name with the same id; both may have none. -/
def OpenCall.answeredBy (name : JsString) (id : Option JsString) (c : OpenCall) : Bool :=
  c.name = name ∧ c.id = id

/-- The indexes of the calls the responses answer, unless one answers no open call. -/
def answersOf : List Event → Nat → List OpenCall → Option (List Nat)
  | [], _, _ => some []
  | .call name id :: events, next, unanswered =>
    answersOf events (next + 1) (unanswered ++ [⟨next, name, id⟩])
  | .answer name id :: events, next, unanswered => do
    let c ← unanswered.find? (OpenCall.answeredBy name id)
    let rest ← answersOf events next (unanswered.eraseP (OpenCall.answeredBy name id))
    pure (c.index :: rest)

/-- When a response has no id, the first open call of its name has none. -/
def InOrder : List Event → Nat → List OpenCall → Prop
  | [], _, _ => True
  | .call name id :: events, next, unanswered =>
    InOrder events (next + 1) (unanswered ++ [⟨next, name, id⟩])
  | .answer name id :: events, next, unanswered =>
    (id = none → ∀ c ∈ unanswered.find? (fun c => c.name = name), c.id = none) ∧
      InOrder events next (unanswered.eraseP (OpenCall.answeredBy name id))

instance decideInOrder : ∀ events next unanswered, Decidable (InOrder events next unanswered)
  | [], _, _ => .isTrue trivial
  | .call name id :: events, next, unanswered =>
    decideInOrder events (next + 1) (unanswered ++ [(⟨next, name, id⟩ : OpenCall)])
  | .answer name id :: events, next, unanswered =>
    haveI := decideInOrder events next (unanswered.eraseP (OpenCall.answeredBy name id))
    inferInstanceAs (Decidable ((id = none →
      ∀ c ∈ unanswered.find? (fun c => c.name = name), c.id = none) ∧
      InOrder events next (unanswered.eraseP (OpenCall.answeredBy name id))))

/-- Contents whose calls and results pair up: `answers` holds the call of each result. -/
structure WellPaired (events : List Event) (answers : List Nat) : Prop where
  answered : answersOf events 0 [] = some answers
  distinct : (explicitIds events).Nodup
  notGenerated : ∀ id ∈ explicitIds events, ∀ n, id ≠ generatedId n

/-! ## Queues -/

/-- A call that has no answer is queued with its id under its name. -/
structure Tracks (p : Pairing) (ids : List JsString) (unanswered : List OpenCall) : Prop where
  queued : ∀ name, (p.queuedIds name).map some =
    (unanswered.filter fun c => c.name = name).map fun c => ids[c.index]?
  explicit : ∀ c ∈ unanswered, ∀ id, c.id = some id →
    ids[c.index]? = some id ∧ ∀ n, id ≠ generatedId n
  generated : ∀ c ∈ unanswered, c.id = none → ∃ n, ids[c.index]? = some (generatedId n)

theorem queuedIds_set (p : Pairing) (name name' : JsString) (queue : List JsString) (n : Nat) :
    Pairing.queuedIds ⟨p.pendingCallIds.set name queue, n⟩ name' =
      if name' = name then queue else p.queuedIds name' := by
  unfold Pairing.queuedIds
  rw [JsMap.get?_set]
  split <;> rfl

variable {id : Option JsString}

/-- The first call that passes goes; the others of a name stay. -/
theorem filter_eraseP_of_ne (h : name' ≠ name) (unanswered : List OpenCall) :
    (unanswered.eraseP (OpenCall.answeredBy name id)).filter (fun c => c.name = name') =
      unanswered.filter fun c => c.name = name' := by
  induction unanswered with
  | nil => rfl
  | cons c rest ih =>
    rw [List.eraseP_cons]
    cases hc : OpenCall.answeredBy name id c with
    | true =>
      have hname : c.name ≠ name' := by
        simp only [OpenCall.answeredBy, decide_eq_true_eq] at hc
        exact fun heq => h (heq.symm.trans hc.1)
      simp [hname]
    | false =>
      simp only [cond_false, List.filter_cons, ih]

/-- Within a name only the ids are compared. -/
theorem filter_eraseP_self (name : JsString) (id : Option JsString) (unanswered : List OpenCall) :
    (unanswered.eraseP (OpenCall.answeredBy name id)).filter (fun c => c.name = name) =
      (unanswered.filter fun c => c.name = name).eraseP fun c => c.id = id := by
  induction unanswered with
  | nil => rfl
  | cons c rest ih =>
    rw [List.eraseP_cons]
    by_cases hname : c.name = name
    · by_cases hid : c.id = id
      · simp [OpenCall.answeredBy, hname, hid]
      · simp [OpenCall.answeredBy, hname, hid, ih]
    · simp [OpenCall.answeredBy, hname, ih]

theorem Tracks.lookup (h : Tracks p ids unanswered) (hc : c ∈ unanswered) :
    ∃ id, ids[c.index]? = some id := by
  cases hid : c.id with
  | some id => exact ⟨id, (h.explicit c hc id hid).1⟩
  | none =>
    obtain ⟨n, hn⟩ := h.generated c hc hid
    exact ⟨generatedId n, hn⟩

theorem Tracks.lookup_append (h : Tracks p ids unanswered) (hc : c ∈ unanswered)
    (more : List JsString) : (ids ++ more)[c.index]? = ids[c.index]? := by
  obtain ⟨id, hid⟩ := h.lookup hc
  exact List.getElem?_append_left (List.getElem?_eq_some_iff.mp hid).1

/-- A call is queued. -/
theorem Tracks.call (h : Tracks p ids unanswered) (name : JsString)
    (hid : ∀ e, id = some e → ∀ n, e ≠ generatedId n) :
    Tracks (p.callId name id).2 (ids ++ [(p.callId name id).1])
      (unanswered ++ [⟨ids.length, name, id⟩]) := by
  have hqueue : ∀ name', (p.callId name id).2.queuedIds name' =
      if name' = name then p.queuedIds name ++ [(p.callId name id).1] else p.queuedIds name' := by
    intro name'
    cases id <;> exact queuedIds_set _ _ _ _ _
  have hkept : ∀ name', ((unanswered.filter fun c => c.name = name').map fun c =>
      (ids ++ [(p.callId name id).1])[c.index]?) = (p.queuedIds name').map some := by
    intro name'
    rw [h.queued]
    exact List.map_congr_left fun c hc => h.lookup_append (List.mem_of_mem_filter hc) _
  constructor
  · intro name'
    rw [hqueue, List.filter_append, List.map_append, hkept]
    by_cases heq : name = name'
    · subst heq
      simp
    · simp [heq, Ne.symm heq]
  · intro c hc e he
    rcases List.mem_append.mp hc with hold | hnew
    · rw [h.lookup_append hold]
      exact h.explicit c hold e he
    · cases List.mem_singleton.mp hnew
      subst he
      exact ⟨by simp [Pairing.callId], hid e rfl⟩
  · intro c hc he
    rcases List.mem_append.mp hc with hold | hnew
    · rw [h.lookup_append hold]
      exact h.generated c hold he
    · cases List.mem_singleton.mp hnew
      subst he
      exact ⟨p.generatedCallId + 1, by simp [Pairing.callId]⟩

/-- A call is no longer queued, once the queue of its name is shown to have lost its id. -/
theorem Tracks.answer (h : Tracks p ids unanswered)
    (hqueue : queue.map some =
      ((unanswered.filter fun c => c.name = name).eraseP fun c => c.id = id).map fun c =>
        ids[c.index]?) : Tracks ⟨p.pendingCallIds.set name queue, n⟩ ids
      (unanswered.eraseP (OpenCall.answeredBy name id)) := by
  constructor
  · intro name'
    rw [queuedIds_set]
    by_cases heq : name' = name
    · subst heq
      rw [if_pos rfl, filter_eraseP_self, hqueue]
    · rw [if_neg heq, filter_eraseP_of_ne heq, h.queued]
  · intro c hc
    exact h.explicit c (List.mem_of_mem_eraseP hc)
  · intro c hc
    exact h.generated c (List.mem_of_mem_eraseP hc)

/-- An id of its own finds its place in the queue. -/
theorem map_erase_eq {queue : List JsString} {calls : List OpenCall} {ids : List JsString}
    (hqueue : queue.map some = calls.map fun c => ids[c.index]?)
    (hid : ∀ c ∈ calls, ids[c.index]? = some e ↔ c.id = some e) :
    (queue.erase e).map some = (calls.eraseP fun c => c.id = some e).map fun c => ids[c.index]? := by
  induction calls generalizing queue with
  | nil =>
    rw [List.map_nil, List.map_eq_nil_iff] at hqueue
    rw [hqueue]
    rfl
  | cons c calls ih =>
    obtain ⟨first, queue, rfl⟩ : ∃ first rest, queue = first :: rest := by
      cases queue with
      | nil => cases hqueue
      | cons first rest => exact ⟨first, rest, rfl⟩
    rw [List.map_cons, List.map_cons, List.cons.injEq] at hqueue
    have hfirst := hid c List.mem_cons_self
    rw [← hqueue.1, Option.some.injEq] at hfirst
    rw [List.erase_cons, List.eraseP_cons]
    by_cases heq : c.id = some e
    · simp [heq, hfirst.mpr heq, hqueue.2]
    · have hne : first ≠ e := fun hf => heq (hfirst.mp hf)
      simp [heq, hne, hqueue.1, ih hqueue.2 fun c hc => hid c (List.mem_cons_of_mem _ hc)]

/-- The first that passes the weaker test, if it passes the stronger one. -/
theorem find?_eq_of_imp {calls : List OpenCall} (h : calls.find? weak = some c)
    (himp : ∀ c, strong c → weak c) (hc : strong c) : calls.find? strong = some c := by
  obtain ⟨-, before, after, rfl, hbefore⟩ := List.find?_eq_some_iff_append.mp h
  refine List.find?_eq_some_iff_append.mpr ⟨hc, before, after, rfl, fun c hc => ?_⟩
  have := hbefore c hc
  cases hs : strong c with
  | false => rfl
  | true => simp [himp c hs] at this

/-- A response with an id takes it out of the queue. -/
theorem Tracks.responseId_some {p : Pairing} (h : Tracks p ids unanswered) {name : JsString}
    (hfound : unanswered.find? (OpenCall.answeredBy name (some e)) = some c) :
    ids[c.index]? = some e ∧ Tracks (p.responseId name (some e)).2 ids
      (unanswered.eraseP (OpenCall.answeredBy name (some e))) := by
  have hans := List.find?_some hfound
  simp only [OpenCall.answeredBy, decide_eq_true_eq] at hans
  obtain ⟨hlookup, hgenerated⟩ := h.explicit c (List.mem_of_find?_eq_some hfound) e hans.2
  have hid : ∀ c ∈ unanswered.filter fun c => c.name = name,
      ids[c.index]? = some e ↔ c.id = some e := by
    intro c hc
    have hmem := List.mem_of_mem_filter hc
    constructor
    · intro hsome
      cases hid : c.id with
      | some e' => rw [← hsome, (h.explicit c hmem e' hid).1]
      | none =>
        obtain ⟨n, hn⟩ := h.generated c hmem hid
        exact absurd (Option.some.inj (hsome.symm.trans hn)) (hgenerated n)
    · exact fun hid => (h.explicit c hmem e hid).1
  exact ⟨hlookup, h.answer (map_erase_eq (h.queued name) hid)⟩

/-- A response without id takes the first of its name out of the queue. -/
theorem Tracks.responseId_none {unanswered : List OpenCall} (h : Tracks p ids unanswered)
    (hfound : unanswered.find? (fun c => c.name = name) = some c) :
    ids[c.index]? = some (p.responseId name none).1 ∧
      (c.id = none → Tracks (p.responseId name none).2 ids
        (unanswered.eraseP (OpenCall.answeredBy name none))) := by
  obtain ⟨calls, hcalls⟩ : ∃ calls, (unanswered.filter fun c => c.name = name) = c :: calls := by
    rw [← List.head?_filter] at hfound
    cases hfilter : unanswered.filter fun c => c.name = name with
    | nil => simp [hfilter] at hfound
    | cons first calls =>
      rw [hfilter] at hfound
      cases hfound
      exact ⟨calls, rfl⟩
  have hqueue := h.queued name
  rw [hcalls, List.map_cons] at hqueue
  obtain ⟨id, rest, hids⟩ : ∃ id rest, p.queuedIds name = id :: rest := by
    cases hids : p.queuedIds name with
    | nil =>
      rw [hids] at hqueue
      cases hqueue
    | cons id rest => exact ⟨id, rest, rfl⟩
  rw [hids, List.map_cons, List.cons.injEq] at hqueue
  have hresponse : p.responseId name none =
      (id, { p with pendingCallIds := p.pendingCallIds.set name rest }) := by
    simp only [Pairing.responseId, hids]
  rw [hresponse]
  refine ⟨hqueue.1.symm, fun hid => h.answer ?_⟩
  rw [hcalls, List.eraseP_cons_of_pos (by simpa using hid)]
  exact hqueue.2

/-- A response that answers a call gets its id just when it comes in order. -/
theorem Tracks.responseId (h : Tracks p ids unanswered) {name : JsString}
    (hfound : unanswered.find? (OpenCall.answeredBy name id) = some c) :
    (some (p.responseId name id).1 = ids[c.index]? ↔
        (id = none → ∀ c ∈ unanswered.find? (fun c => c.name = name), c.id = none)) ∧
      ((id = none → ∀ c ∈ unanswered.find? (fun c => c.name = name), c.id = none) →
        Tracks (p.responseId name id).2 ids (unanswered.eraseP (OpenCall.answeredBy name id))) := by
  cases id with
  | some e =>
    obtain ⟨hlookup, htracks⟩ := h.responseId_some hfound
    exact ⟨⟨fun _ hnone => (nomatch hnone), fun _ => hlookup.symm⟩, fun _ => htracks⟩
  | none =>
    have hmem := List.mem_of_find?_eq_some hfound
    have hans := List.find?_some hfound
    simp only [OpenCall.answeredBy, decide_eq_true_eq] at hans
    obtain ⟨first, hfirst⟩ : ∃ first, unanswered.find? (fun c => c.name = name) = some first := by
      rw [← Option.isSome_iff_exists, List.find?_isSome]
      exact ⟨c, hmem, by simpa using hans.1⟩
    obtain ⟨hlookup, htracks⟩ := h.responseId_none hfirst
    rw [hfirst]
    cases hid : first.id with
    | none =>
      have hsame : unanswered.find? (OpenCall.answeredBy name none) = some first := by
        refine find?_eq_of_imp hfirst (fun c hc => ?_) ?_
        · simp only [OpenCall.answeredBy, decide_eq_true_eq] at hc ⊢
          exact hc.1
        · have hname := List.find?_some hfirst
          simp only [OpenCall.answeredBy, decide_eq_true_eq] at hname ⊢
          exact ⟨hname, hid⟩
      cases hfound.symm.trans hsame
      exact ⟨⟨fun _ _ c hc => Option.some.inj hc ▸ hid, fun _ => hlookup.symm⟩,
        fun _ => htracks hid⟩
    | some e =>
      -- the queue gives the id of another call
      obtain ⟨hown, hgenerated⟩ := h.explicit first (List.mem_of_find?_eq_some hfirst) e hid
      obtain ⟨n, hn⟩ := h.generated c hmem hans.2
      have hnot : ¬((none : Option JsString) = none → ∀ c ∈ some first, c.id = none) := by
        intro hall
        rw [hall rfl first rfl] at hid
        cases hid
      refine ⟨⟨fun hsome => ?_, fun hall => absurd hall hnot⟩, fun hall => absurd hall hnot⟩
      rw [hn, ← hlookup, hown] at hsome
      exact absurd (Option.some.inj hsome) (hgenerated n)

/-! ## Runs -/

/-- The results carry the ids of the calls they answer just as long as responses without id come
in order: by induction on the events, the queues being those of `Tracks`. -/
theorem resultIds_eq_iff {unanswered : List OpenCall} (htracks : Tracks p ids unanswered)
    (hnew : ∀ id ∈ explicitIds events, ∀ n, id ≠ generatedId n)
    (hanswers : answersOf events ids.length unanswered = some answers) :
    (resultIds (given p events)).map some =
        answers.map (fun i => (ids ++ callIds (given p events))[i]?) ↔
      InOrder events ids.length unanswered := by
  induction events generalizing p ids unanswered answers with
  | nil =>
    cases hanswers
    simp [given, resultIds, InOrder]
  | cons e events ih =>
    cases e with
    | call name id =>
      have hid : ∀ e, id = some e → ∀ n, e ≠ generatedId n := by
        rintro e rfl
        exact hnew e (by simp [explicitIds])
      have hrest := ih (htracks.call name hid)
        (fun id hid => hnew id (by simp only [explicitIds, List.filterMap_cons] at hid ⊢; grind))
        (by simpa [answersOf] using hanswers)
      rw [List.length_append, List.append_assoc] at hrest
      exact hrest
    | answer name id =>
      rw [answersOf] at hanswers
      cases hfound : unanswered.find? (OpenCall.answeredBy name id) with
      | none => simp [hfound] at hanswers
      | some c =>
        obtain ⟨rest, hrest, rfl⟩ : ∃ rest, answersOf events ids.length
            (unanswered.eraseP (OpenCall.answeredBy name id)) = some rest ∧
            answers = c.index :: rest := by
          cases hrest : answersOf events ids.length
              (unanswered.eraseP (OpenCall.answeredBy name id)) with
          | none => simp [hfound, hrest] at hanswers
          | some rest => exact ⟨rest, rfl, by simpa [hfound, hrest] using hanswers.symm⟩
        obtain ⟨hfirst, htracks'⟩ := htracks.responseId hfound
        show some (p.responseId name id).1 :: (resultIds (given (p.responseId name id).2 events)).map
          some = (ids ++ callIds (given (p.responseId name id).2 events))[c.index]? :: _ ↔ _ ∧ _
        rw [List.cons.injEq, htracks.lookup_append (List.mem_of_find?_eq_some hfound), hfirst]
        exact and_congr_right fun hall => ih (htracks' hall) hnew hrest

theorem generatedId_injective (h : generatedId m = generatedId n) : m = n :=
  natToString_injective (List.append_cancel_left h)

theorem generatedCallId_le_responseId (p : Pairing) (name : JsString) (id : Option JsString) :
    p.generatedCallId ≤ (p.responseId name id).2.generatedCallId := by
  unfold Pairing.responseId
  split
  · exact le_rfl
  · split
    · exact le_rfl
    · exact Nat.le_succ _

/-- The ids of calls stay distinct: a generated one is counted, the others are not of its form. -/
theorem nodup_callIds {events : List Event} {p : Pairing} {ids : List JsString}
    (hfresh : ∀ n, p.generatedCallId < n → generatedId n ∉ ids)
    (hnew : ∀ id ∈ explicitIds events, ∀ n, id ≠ generatedId n)
    (hnodup : (ids ++ explicitIds events).Nodup) : (ids ++ callIds (given p events)).Nodup := by
  induction events generalizing p ids with
  | nil => exact hnodup
  | cons e events ih =>
    cases e with
    | call name id =>
      cases id with
      | some id =>
        have hrest := @ih (p.callId name (some id)).2 (ids ++ [id])
          (fun n hn hmem => ?_) (fun id hid => hnew id (by simp_all [explicitIds]))
          (by simpa [explicitIds] using hnodup)
        · simpa [given, callIds, Pairing.take, Pairing.callId] using hrest
        · rcases List.mem_append.mp hmem with hold | hlast
          · exact hfresh n hn hold
          · exact hnew id (by simp [explicitIds]) n (List.mem_singleton.mp hlast).symm
      | none =>
        have hrest := @ih (p.callId name none).2 (ids ++ [generatedId (p.generatedCallId + 1)])
          (fun n hn hmem => ?_) hnew ?_
        · simpa [given, callIds, Pairing.take, Pairing.callId] using hrest
        · have hn : p.generatedCallId + 1 < n := hn
          rcases List.mem_append.mp hmem with hold | hlast
          · exact hfresh n (by omega) hold
          · have := generatedId_injective (List.mem_singleton.mp hlast)
            omega
        · rw [List.append_assoc, List.singleton_append, List.nodup_middle, List.nodup_cons]
          refine ⟨fun hmem => ?_, hnodup⟩
          rcases List.mem_append.mp hmem with hold | hlater
          · exact hfresh _ (Nat.lt_succ_self _) hold
          · exact hnew _ hlater _ rfl
    | answer name id =>
      refine ih (fun n hn => hfresh n ?_) hnew hnodup
      exact Nat.lt_of_le_of_lt (generatedCallId_le_responseId p name id) hn

/-- Distinct ids for the calls, and for every result the id of the call it answers. -/
structure PairsCalls (calls results : List JsString) (answers : List Nat) : Prop where
  distinct : calls.Nodup
  paired : results.map some = answers.map fun i => calls[i]?

/-- What the three converters emit pairs up. -/
structure AllPair (contents : List JsonObject) (answers : List Nat) : Prop where
  chat : PairsCalls ((geminiRequestToChat contents).flatMap chatCallsOf)
    ((geminiRequestToChat contents).flatMap chatResultsOf) answers
  responses : PairsCalls ((geminiRequestToResponses contents).flatMap responsesCallsOf)
    ((geminiRequestToResponses contents).flatMap responsesResultsOf) answers
  anthropic : ∀ messages, geminiRequestToAnthropic contents = .ok messages →
    PairsCalls (messages.flatMap anthropicCallsOf) (messages.flatMap anthropicResultsOf) answers

/-- The converters pair results with calls if and only if a result without id never comes while
the earliest open call of its name has an id. -/
theorem pairsCalls_iff {contents : List JsonObject} {answers : List Nat}
    (h : WellPaired (contentsEvents contents) answers) :
    AllPair contents answers ↔ InOrder (contentsEvents contents) 0 [] := by
  have htracks : Tracks {} [] [] := ⟨fun _ => rfl, by simp, by simp⟩
  have hnodup := @nodup_callIds (contentsEvents contents) {} [] (by simp) h.notGenerated
    (by simpa using h.distinct)
  have hiff := resultIds_eq_iff htracks h.notGenerated h.answered
  have hpairs : PairsCalls (callIds (given {} (contentsEvents contents)))
      (resultIds (given {} (contentsEvents contents))) answers ↔
      InOrder (contentsEvents contents) 0 [] :=
    ⟨fun hp => hiff.mp (by simpa using hp.paired), fun ho => ⟨by simpa using hnodup, by
      simpa using hiff.mpr ho⟩⟩
  constructor
  · intro hall
    have hchat := hall.chat
    rw [(chatIds_geminiRequestToChat contents).1, (chatIds_geminiRequestToChat contents).2] at hchat
    exact hpairs.mp hchat
  · intro horder
    constructor
    · rw [(chatIds_geminiRequestToChat contents).1, (chatIds_geminiRequestToChat contents).2]
      exact hpairs.mpr horder
    · rw [(responsesIds_geminiRequestToResponses contents).1,
        (responsesIds_geminiRequestToResponses contents).2]
      exact hpairs.mpr horder
    · intro messages hmessages
      rw [(anthropicIds_geminiRequestToAnthropic hmessages).1,
        (anthropicIds_geminiRequestToAnthropic hmessages).2]
      exact hpairs.mpr horder

/-! ## Examples -/

/-- A model turn with one call. -/
def callTurn (name : String) (id : Option Json) : JsonObject :=
  [(js "role", .string (js "model")), (js "parts", .array [.object [(js "functionCall",
    .object (omitUndefined [("name", literal name), ("id", id)]))]])]

/-- A user turn with one response. -/
def answerTurn (name : String) (id : Option Json) : JsonObject :=
  [(js "role", .string (js "user")), (js "parts", .array [.object [(js "functionResponse",
    .object (omitUndefined [("name", literal name), ("id", id)]))]])]

/-- The id of the second call. -/
def ownId : Option Json := literal "a"

theorem notGenerated_ownId {id : JsString} (hid : id = js "a") (n : Nat) : id ≠ generatedId n := by
  intro h
  have hlength := congrArg List.length (hid.symm.trans h)
  rw [generatedId, List.length_append] at hlength
  have hshort : (js "a").length < (js "call_gemini_").length := by decide
  omega

/-- The call without id comes first and is answered first. -/
theorem pairsCalls_ordered :
    AllPair [callTurn "f" none, callTurn "f" ownId, answerTurn "f" none, answerTurn "f" ownId]
      [0, 1] := by
  refine (pairsCalls_iff ⟨by decide +kernel, by decide +kernel, fun id hid => ?_⟩).mpr
    (by decide +kernel)
  have hids : explicitIds (contentsEvents [callTurn "f" none, callTurn "f" ownId,
      answerTurn "f" none, answerTurn "f" ownId]) = [js "a"] := by decide +kernel
  rw [hids] at hid
  exact notGenerated_ownId (List.mem_singleton.mp hid)

/-- The call with the id comes first, the other one is answered first. -/
theorem pairsCalls_fails : ¬∀ contents answers, WellPaired (contentsEvents contents) answers →
    AllPair contents answers := by
  intro hall
  have hpaired : WellPaired (contentsEvents [callTurn "f" ownId, callTurn "f" none,
      answerTurn "f" none, answerTurn "f" ownId]) [1, 0] := by
    refine ⟨by decide +kernel, by decide +kernel, fun id hid => ?_⟩
    have hids : explicitIds (contentsEvents [callTurn "f" ownId, callTurn "f" none,
        answerTurn "f" none, answerTurn "f" ownId]) = [js "a"] := by decide +kernel
    rw [hids] at hid
    exact notGenerated_ownId (List.mem_singleton.mp hid)
  have hchat := (hall _ _ hpaired).chat.paired
  exact absurd hchat (by decide +kernel)

end StonePlus.Conversion
