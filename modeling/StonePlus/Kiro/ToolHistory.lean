import StonePlus.Js.Json
import StonePlus.Js.Map
import StonePlus.Lib.Except

/-!
# StonePlus.Kiro.ToolHistory

The order of the messages and the tool history of a Kiro Claude request:
`validateMessageOrder` and `validateAndOrderToolHistory` of `kiro-claude-request.ts`.

The history is checked in one pass that carries the uses and the results seen and the
uses the next message has to answer.  `toolHistory_accepted_iff_sound` says what passes, in
terms of each message and the one before it.
-/

namespace StonePlus.Kiro

open Lib

/-! ## Parsed messages -/

inductive MessageRole where
  | user | assistant
  deriving DecidableEq, Repr

def MessageRole.text : MessageRole → JsString
  | .user => js "user"
  | .assistant => js "assistant"

structure KiroClaudeImage where
  format : JsString
  bytes : JsString
  deriving DecidableEq

structure ParsedToolUse where
  id : JsString
  name : JsString
  input : Json
  path : JsString

structure ParsedToolResult where
  toolUseId : JsString
  isError : Bool
  content : JsString
  path : JsString
  deriving DecidableEq

structure ParsedMessage where
  role : MessageRole
  text : JsString
  images : List KiroClaudeImage
  toolUses : List ParsedToolUse
  toolResults : List ParsedToolResult
  path : JsString

inductive KiroClaudeRequestConversionErrorCode where
  | invalidMessageOrder | invalidToolHistory
  deriving DecidableEq, Repr

/-- A request is refused, or the code runs into a value that is not there. -/
inductive ConversionFailure where
  | conversionError (code : KiroClaudeRequestConversionErrorCode) (path reason : JsString)
  | typeError
  deriving DecidableEq

/-! ## The order of the messages -/

/-- Users and assistants take turns; the user begins. -/
def expectedRole (index : Nat) : MessageRole := if index % 2 = 0 then .user else .assistant

def validateRoles : Nat → List ParsedMessage → Except ConversionFailure Unit
  | _, [] => .ok ()
  | index, message :: rest =>
    if message.role ≠ expectedRole index then
      .error (.conversionError .invalidMessageOrder (message.path ++ js ".role")
        (js "expected " ++ (expectedRole index).text ++
          js "; Kiro Claude requires alternating user and assistant turns"))
    else validateRoles (index + 1) rest

def validateMessageOrder (messages : List ParsedMessage) : Except ConversionFailure Unit := do
  validateRoles 0 messages
  match messages.getLast? with
  | none => .error .typeError
  | some last =>
    if last.role ≠ .user then
      .error (.conversionError .invalidMessageOrder (last.path ++ js ".role")
        (js "the current turn must be an explicit user message"))
    else .ok ()

/-! ## The tool history -/

/-- What the pass over the messages carries. -/
structure ToolHistory where
  seenUses : List JsString
  seenResults : List JsString
  pending : List ParsedToolUse

def ToolHistory.init : ToolHistory := ⟨[], [], []⟩

def toolHistoryError (path reason : JsString) : ConversionFailure :=
  .conversionError .invalidToolHistory path reason

/-- Every use of a turn is new. -/
def registerUses (seenUses : List JsString) :
    List ParsedToolUse → Except ConversionFailure (List JsString)
  | [] => .ok seenUses
  | toolUse :: rest =>
    if toolUse.id ∈ seenUses then
      .error (toolHistoryError (toolUse.path ++ js ".id") (js "duplicate tool_use ID " ++ toolUse.id))
    else registerUses (seenUses ++ [toolUse.id]) rest

/-- The results of a turn by the use they answer. -/
def collectResults (seenResults : List JsString) (resultsById : JsMap JsString ParsedToolResult) :
    List ParsedToolResult → Except ConversionFailure (JsMap JsString ParsedToolResult)
  | [] => .ok resultsById
  | result :: rest =>
    if result.toolUseId ∈ seenResults ∨ resultsById.has result.toolUseId = true then
      .error (toolHistoryError (result.path ++ js ".tool_use_id")
        (js "duplicate tool_result ID " ++ result.toolUseId))
    else collectResults seenResults (resultsById.set result.toolUseId result) rest

def missingResults (message : ParsedMessage) (missing : List ParsedToolUse) : ConversionFailure :=
  toolHistoryError (message.path ++ js ".content")
    (js "missing tool_result blocks for " ++ Json.join (js ", ") (missing.map (·.id)))

/-- The results of a user turn, in the order of the uses they answer. -/
def orderResults (state : ToolHistory) (message : ParsedMessage) (first : ParsedToolResult) :
    Except ConversionFailure (ParsedMessage × ToolHistory) :=
  if state.pending = [] then
    .error (toolHistoryError (first.path ++ js ".tool_use_id")
      (js "tool_result has no immediately preceding assistant tool_use batch"))
  else do
    let resultsById ← collectResults state.seenResults ∅ message.toolResults
    let pendingIds := state.pending.map (·.id)
    match message.toolResults.find? (fun result => decide (result.toolUseId ∉ pendingIds)) with
    | some unexpected =>
      .error (toolHistoryError (unexpected.path ++ js ".tool_use_id")
        (js "tool_result " ++ unexpected.toolUseId ++
          js " does not belong to the preceding parallel batch"))
    | none =>
      let missing := state.pending.filter fun toolUse => !resultsById.has toolUse.id
      if missing ≠ [] then
        .error (missingResults message missing)
      else
        let toolResults := state.pending.filterMap fun toolUse => resultsById.get? toolUse.id
        .ok ({ message with toolResults },
          { state with
            seenResults := state.seenResults ++ toolResults.map (·.toolUseId)
            pending := [] })

def orderMessage (state : ToolHistory) (message : ParsedMessage) :
    Except ConversionFailure (ParsedMessage × ToolHistory) :=
  match message.role with
  | .assistant => do
    let seenUses ← registerUses state.seenUses message.toolUses
    .ok (message, { state with seenUses, pending := message.toolUses })
  | .user =>
    match message.toolResults with
    | [] =>
      if state.pending ≠ [] then .error (missingResults message state.pending)
      else .ok (message, state)
    | first :: _ => orderResults state message first

def orderMessages (state : ToolHistory) :
    List ParsedMessage → Except ConversionFailure (List ParsedMessage)
  | [] => .ok []
  | message :: rest => do
    let (ordered, state) ← orderMessage state message
    let rest ← orderMessages state rest
    .ok (ordered :: rest)

/-- The messages, with the results of each turn in the order of the uses they answer. -/
def validateAndOrderToolHistory (messages : List ParsedMessage) :
    Except ConversionFailure (List ParsedMessage) :=
  orderMessages .init messages

/-! ## What a history should be -/

/-- The uses that a message makes. -/
def ParsedMessage.toolUseIds (message : ParsedMessage) : List JsString :=
  match message.role with
  | .user => []
  | .assistant => message.toolUses.map (·.id)

/-- Each message with the uses of the message before it, `previous` being those before the
first. -/
def withPrevious (previous : List JsString) (messages : List ParsedMessage) :
    List (List JsString × ParsedMessage) :=
  (previous :: messages.map ParsedMessage.toolUseIds).zip messages

/-- A user turn answers each of some uses once, and nothing else. -/
def Answers (previous : List JsString) (message : ParsedMessage) : Prop :=
  message.role = .user → (message.toolResults.map (·.toolUseId)).Nodup ∧
    ∀ id, id ∈ message.toolResults.map (·.toolUseId) ↔ id ∈ previous

/-- The messages take turns, beginning and ending with the user. -/
structure Alternates (messages : List ParsedMessage) : Prop where
  turns : ∀ index, ∀ message, messages[index]? = some message → message.role = expectedRole index
  ends : (messages.getLast?).map (·.role) = some .user

/-- No use is made twice, and each user turn answers the uses of the turn before it. -/
structure SoundHistory (previous : List JsString) (messages : List ParsedMessage) : Prop where
  unique : (messages.flatMap ParsedMessage.toolUseIds).Nodup
  answered : ∀ turn ∈ withPrevious previous messages, Answers turn.1 turn.2

/-- `ordered` is `message` with its results in the order of the uses they answer. -/
structure OrderedBy (previous : List JsString) (message ordered : ParsedMessage) : Prop where
  same : { ordered with toolResults := message.toolResults } = message
  perm : ordered.toolResults.Perm message.toolResults
  order : message.role = .user → ordered.toolResults.map (·.toolUseId) = previous

/-! ## Passing over the uses and the results -/

theorem registerUses_ok_iff {seenUses out : List JsString} {toolUses : List ParsedToolUse} :
    registerUses seenUses toolUses = .ok out ↔
      (toolUses.map (·.id)).Nodup ∧ (∀ toolUse ∈ toolUses, toolUse.id ∉ seenUses) ∧
        out = seenUses ++ toolUses.map (·.id) := by
  induction toolUses generalizing seenUses with
  | nil => simp [registerUses, eq_comm]
  | cons toolUse rest ih =>
      by_cases h : toolUse.id ∈ seenUses
      · simp [registerUses, h]
      · simp only [registerUses, h, if_false, ih, List.map_cons, List.nodup_cons, List.mem_cons,
          List.mem_append, List.mem_map, forall_eq_or_imp]
        constructor
        · rintro ⟨hn, hf, hout⟩
          refine ⟨⟨?_, hn⟩, ⟨not_false, fun u hu => ?_⟩, by simpa using hout⟩
          · rintro ⟨u, hu, hid⟩
            exact hf u hu (Or.inr (Or.inl hid))
          · exact fun hs => hf u hu (Or.inl hs)
        · rintro ⟨⟨hnot, hn⟩, ⟨_, hf⟩, hout⟩
          refine ⟨hn, fun u hu hin => ?_, by simpa using hout⟩
          rcases hin with hs | hid | hnil
          · exact hf u hu hs
          · exact hnot ⟨u, hu, hid⟩
          · simp at hnil

/-- The results by the use they answer. -/
def byUse (results : List ParsedToolResult) (m : JsMap JsString ParsedToolResult) :
    JsMap JsString ParsedToolResult :=
  results.foldl (fun m result => m.set result.toolUseId result) m

variable {results : List ParsedToolResult}

theorem collectResults_ok_iff {seenResults : List JsString}
    {resultsById out : JsMap JsString ParsedToolResult} :
    collectResults seenResults resultsById results = .ok out ↔
      (results.map (·.toolUseId)).Nodup ∧
        (∀ result ∈ results, result.toolUseId ∉ seenResults ∧ result.toolUseId ∉ resultsById.keys) ∧
        out = byUse results resultsById := by
  induction results generalizing resultsById with
  | nil => simp [collectResults, byUse, eq_comm]
  | cons result rest ih =>
      by_cases h : result.toolUseId ∈ seenResults ∨ resultsById.has result.toolUseId = true
      · simp only [collectResults, h, if_true, List.mem_cons, forall_eq_or_imp]
        rw [JsMap.has_eq_true_iff] at h
        simp
        tauto
      · have hkeys : result.toolUseId ∉ resultsById.keys := by
          simpa [JsMap.has_eq_true_iff] using fun hk => h (Or.inr hk)
        simp only [collectResults, h, if_false, ih, List.map_cons, List.nodup_cons, List.mem_cons,
          List.mem_map, forall_eq_or_imp, JsMap.mem_keys_set, byUse, List.foldl_cons]
        constructor
        · rintro ⟨hn, hf, hout⟩
          refine ⟨⟨?_, hn⟩, ⟨⟨fun hs => h (Or.inl hs), hkeys⟩, fun r hr => ?_⟩, hout⟩
          · rintro ⟨r, hr, hid⟩
            exact (hf r hr).2 (by simp [hid])
          · exact ⟨(hf r hr).1, fun hk => (hf r hr).2 (by simp [hk])⟩
        · rintro ⟨⟨hnot, hn⟩, ⟨_, hf⟩, hout⟩
          refine ⟨hn, fun r hr => ⟨(hf r hr).1, fun hk => ?_⟩, hout⟩
          rcases hk with hid | hk
          · exact hnot ⟨r, hr, hid⟩
          · exact (hf r hr).2 hk

theorem get?_byUse (hn : (results.map (·.toolUseId)).Nodup) (m : JsMap JsString ParsedToolResult) :
    (∀ result ∈ results, (byUse results m).get? result.toolUseId = some result) ∧
      ∀ id, id ∉ results.map (·.toolUseId) → (byUse results m).get? id = m.get? id := by
  induction results generalizing m with
  | nil => simp [byUse]
  | cons result rest ih =>
      simp only [List.map_cons, List.nodup_cons] at hn
      obtain ⟨hin, hout⟩ := ih hn.2 (m.set result.toolUseId result)
      constructor
      · intro r hr
        cases hr with
        | head => exact (hout _ hn.1).trans (JsMap.get?_set_self m _ _)
        | tail _ hr => exact hin r hr
      · intro id hid
        simp only [List.map_cons, List.mem_cons, not_or] at hid
        exact (hout id hid.2).trans (JsMap.get?_set_of_ne m _ hid.1)

theorem has_byUse (hn : (results.map (·.toolUseId)).Nodup) (id : JsString) :
    (byUse results ∅).has id = true ↔ id ∈ results.map (·.toolUseId) := by
  obtain ⟨hin, hout⟩ := get?_byUse hn ∅
  constructor
  · intro h
    by_contra hid
    simp [JsMap.has, hout id hid] at h
  · intro h
    obtain ⟨result, hr, rfl⟩ := List.mem_map.mp h
    simp [JsMap.has, hin result hr]

/-- The results by use, taken in an order of the uses, are the results in that order. -/
theorem filterMap_byUse {ids : List JsString} (hn : (results.map (·.toolUseId)).Nodup)
    (hids : ids.Nodup) (hall : ∀ id, id ∈ results.map (·.toolUseId) ↔ id ∈ ids) :
    (ids.filterMap (byUse results ∅).get?).map (·.toolUseId) = ids ∧
      (ids.filterMap (byUse results ∅).get?).Perm results := by
  obtain ⟨hin, _⟩ := get?_byUse hn ∅
  -- each use finds the one result that answers it
  have hget : ∀ id ∈ ids, ∃ result ∈ results, result.toolUseId = id ∧
      (byUse results ∅).get? id = some result := by
    intro id hid
    obtain ⟨result, hr, rfl⟩ := List.mem_map.mp ((hall id).mpr hid)
    exact ⟨result, hr, rfl, hin result hr⟩
  have hmap : (ids.filterMap (byUse results ∅).get?).map (·.toolUseId) = ids := by
    clear hall hids
    induction ids with
    | nil => rfl
    | cons id rest ih =>
        obtain ⟨result, -, hid, hg⟩ := hget id List.mem_cons_self
        have hrest := ih fun i hi => hget i (List.mem_cons_of_mem _ hi)
        simp [hg, hid, hrest]
  refine ⟨hmap, ?_⟩
  have hnodup : (ids.filterMap (byUse results ∅).get?).Nodup :=
    List.Nodup.of_map (·.toolUseId) (hmap.symm ▸ hids)
  rw [List.perm_ext_iff_of_nodup hnodup (List.Nodup.of_map (·.toolUseId) hn)]
  intro r
  rw [List.mem_filterMap]
  constructor
  · rintro ⟨id, hid, hg⟩
    obtain ⟨result, hr, -, hg'⟩ := hget id hid
    rw [hg, Option.some.injEq] at hg'
    exact hg' ▸ hr
  · intro hr
    exact ⟨r.toolUseId, (hall _).mp (List.mem_map_of_mem hr), hin r hr⟩

/-! ## One message -/

/-- The state after messages whose last made the uses `previous`. -/
structure Consistent (previous : List JsString) (state : ToolHistory) : Prop where
  pending : state.pending.map (·.id) = previous
  nodup : previous.Nodup
  subset : ∀ id ∈ previous, id ∈ state.seenUses
  results : ∀ id ∈ state.seenResults, id ∈ state.seenUses ∧ id ∉ previous

theorem Consistent.init : Consistent [] .init :=
  ⟨rfl, List.nodup_nil, by simp, by simp [ToolHistory.init]⟩

/-- The uses of a message are new. -/
def FreshUses (seenUses : List JsString) (message : ParsedMessage) : Prop :=
  message.toolUseIds.Nodup ∧ ∀ id ∈ message.toolUseIds, id ∉ seenUses

/-- What a message that passes leaves behind. -/
structure Passed (previous : List JsString) (state : ToolHistory) (message : ParsedMessage)
    (r : ParsedMessage × ToolHistory) : Prop where
  ordered : OrderedBy previous message r.1
  consistent : Consistent message.toolUseIds r.2
  seenUses : r.2.seenUses = state.seenUses ++ message.toolUseIds

theorem find?_unexpected {pending : List ParsedToolUse} :
    results.find? (fun result => decide (result.toolUseId ∉ pending.map (·.id))) = none ↔
      ∀ id ∈ results.map (·.toolUseId), id ∈ pending.map (·.id) := by
  simp only [List.find?_eq_none, decide_eq_true_eq, not_not, List.forall_mem_map]

theorem filter_missing {pending : List ParsedToolUse} {results : List ParsedToolResult}
    (hn : (results.map (·.toolUseId)).Nodup) :
    pending.filter (fun toolUse => !(byUse results ∅).has toolUse.id) = [] ↔
      ∀ id ∈ pending.map (·.id), id ∈ results.map (·.toolUseId) := by
  simp only [List.filter_eq_nil_iff, Bool.not_eq_true', Bool.not_eq_false, has_byUse hn,
    List.forall_mem_map]

variable {message : ParsedMessage}

/-- A turn with results passes when they answer the previous uses, and they come out in the
order of these. -/
theorem orderResults_ok_iff {previous : List JsString} {state : ToolHistory}
    {first : ParsedToolResult} {r : ParsedMessage × ToolHistory} (hc : Consistent previous state)
    (hfirst : first ∈ message.toolResults) : orderResults state message first = .ok r ↔
      ((message.toolResults.map (·.toolUseId)).Nodup ∧
        ∀ id, id ∈ message.toolResults.map (·.toolUseId) ↔ id ∈ previous) ∧
      r = ({ message with
              toolResults := previous.filterMap (byUse message.toolResults ∅).get? },
            { state with
              seenResults := state.seenResults ++
                (previous.filterMap (byUse message.toolResults ∅).get?).map (·.toolUseId)
              pending := [] }) := by
  have hfirstId : first.toolUseId ∈ message.toolResults.map (·.toolUseId) :=
    List.mem_map_of_mem hfirst
  by_cases hp : state.pending = []
  · have hprev : previous = [] := by rw [← hc.pending, hp, List.map_nil]
    simp only [orderResults, hp, if_true, reduceCtorEq, false_iff, not_and]
    rintro ⟨_, hall⟩ _
    have := (hall first.toolUseId).mp hfirstId
    simp [hprev] at this
  have horder (m : JsMap JsString ParsedToolResult) :
      state.pending.filterMap (fun toolUse => m.get? toolUse.id) = previous.filterMap m.get? := by
    rw [← hc.pending, List.filterMap_map]
    rfl
  simp only [orderResults, hp, if_false, bind_eq_ok, collectResults_ok_iff, horder]
  constructor
  · rintro ⟨m, ⟨hn, _, hm⟩, h⟩
    subst hm
    split at h
    · cases h
    · rename_i hfind
      rw [find?_unexpected, hc.pending] at hfind
      split at h
      · cases h
      · rename_i hmissing
        rw [ne_eq, not_not, filter_missing hn, hc.pending] at hmissing
        exact ⟨⟨hn, fun id => ⟨hfind id, hmissing id⟩⟩, (Except.ok.inj h).symm⟩
  · rintro ⟨⟨hn, hall⟩, hr⟩
    refine ⟨byUse message.toolResults ∅, ⟨hn, fun result hr => ⟨fun hs => ?_, ?_⟩, rfl⟩, ?_⟩
    · exact (hc.results _ hs).2 ((hall _).mp (List.mem_map_of_mem hr))
    · simp
    · rw [find?_unexpected.mpr fun id hid => hc.pending ▸ (hall id).mp hid]
      have hmissing := (@filter_missing state.pending _ hn).mpr
        fun id hid => (hall id).mpr (hc.pending ▸ hid)
      simp only [hmissing, ne_eq, not_true_eq_false, if_false, hr]

theorem toolUseIds_of_user (h : message.role = .user) : message.toolUseIds = [] := by
  simp [ParsedMessage.toolUseIds, h]

theorem toolUseIds_of_assistant (h : message.role = .assistant) :
    message.toolUseIds = message.toolUses.map (·.id) := by
  simp [ParsedMessage.toolUseIds, h]

/-- A message passes when its uses are new and it answers the previous ones. -/
theorem orderMessage_ok_iff (hc : Consistent previous state) :
    (∃ r, orderMessage state message = .ok r) ↔
      FreshUses state.seenUses message ∧ Answers previous message := by
  cases hrole : message.role with
  | assistant =>
      simp only [orderMessage, hrole, bind_eq_ok, registerUses_ok_iff, FreshUses, Answers,
        toolUseIds_of_assistant hrole, List.forall_mem_map]
      constructor
      · rintro ⟨_, _, ⟨hn, hf, _⟩, _⟩
        exact ⟨⟨hn, hf⟩, fun h => by cases h⟩
      · rintro ⟨⟨hn, hf⟩, _⟩
        exact ⟨_, _, ⟨hn, hf, rfl⟩, rfl⟩
  | user =>
      have hfresh : FreshUses state.seenUses message := by
        simp [FreshUses, toolUseIds_of_user hrole]
      simp only [hfresh, true_and, Answers, hrole, true_implies]
      cases hres : message.toolResults with
      | nil =>
          have hempty : (∀ id : JsString, id ∉ previous) ↔ state.pending = [] := by
            rw [← List.eq_nil_iff_forall_not_mem, ← hc.pending, List.map_eq_nil_iff]
          simp only [orderMessage, hrole, hres, List.map_nil, List.nodup_nil, true_and,
            List.not_mem_nil, false_iff, hempty]
          by_cases hp : state.pending = [] <;> simp [hp]
      | cons first rest =>
          have hfirst : first ∈ message.toolResults := hres ▸ List.mem_cons_self
          simp only [orderMessage, hrole, hres]
          simp only [orderResults_ok_iff hc hfirst, hres, exists_and_left, exists_eq, and_true]

theorem orderMessage_passed (hc : Consistent previous state)
    (h : orderMessage state message = .ok r) : Passed previous state message r := by
  have hfresh := ((orderMessage_ok_iff hc).mp ⟨r, h⟩).1
  cases hrole : message.role with
  | assistant =>
      simp only [FreshUses, toolUseIds_of_assistant hrole] at hfresh
      simp only [orderMessage, hrole, bind_eq_ok, registerUses_ok_iff] at h
      obtain ⟨seenUses, ⟨_, _, rfl⟩, h⟩ := h
      cases h
      refine ⟨⟨rfl, List.Perm.refl _, fun h => ?_⟩, ?_, ?_⟩
      · rw [hrole] at h
        cases h
      · rw [toolUseIds_of_assistant hrole]
        refine ⟨rfl, hfresh.1, fun id hid => List.mem_append_right _ hid, fun id hid => ?_⟩
        have hseen := (hc.results id hid).1
        exact ⟨List.mem_append_left _ hseen, fun h => hfresh.2 id h hseen⟩
      · rw [toolUseIds_of_assistant hrole]
  | user =>
      have huses := toolUseIds_of_user hrole
      simp only [orderMessage, hrole] at h
      split at h
      · rename_i hres
        split at h
        · cases h
        · rename_i hp
          rw [ne_eq, not_not] at hp
          cases h
          have hprev : previous = [] := by rw [← hc.pending, hp, List.map_nil]
          refine ⟨⟨rfl, List.Perm.refl _, fun _ => by simp [hres, hprev]⟩, ?_, by simp [huses]⟩
          rw [huses, ← hprev]
          exact hc
      · rename_i first rest hres
        have hfirst : first ∈ message.toolResults := hres ▸ List.mem_cons_self
        obtain ⟨⟨hn, hall⟩, rfl⟩ := (orderResults_ok_iff hc hfirst).mp h
        obtain ⟨hmap, hperm⟩ := filterMap_byUse hn hc.nodup hall
        refine ⟨⟨rfl, hperm, fun _ => hmap⟩, ?_, by simp [huses]⟩
        rw [huses]
        refine ⟨rfl, List.nodup_nil, by simp, fun id hid => ⟨?_, by simp⟩⟩
        rw [hmap, List.mem_append] at hid
        rcases hid with hold | hnew
        · exact (hc.results id hold).1
        · exact hc.subset id hnew

/-! ## All messages -/

theorem withPrevious_cons (previous : List JsString) (message : ParsedMessage)
    (rest : List ParsedMessage) : withPrevious previous (message :: rest) =
      (previous, message) :: withPrevious message.toolUseIds rest := rfl

/-- By induction on the messages: the state carries the uses of all that passed. -/
theorem orderMessages_ok_iff {previous : List JsString} {state : ToolHistory}
    {messages : List ParsedMessage} (hc : Consistent previous state) :
    (∃ ordered, orderMessages state messages = .ok ordered) ↔
      SoundHistory previous messages ∧
        ∀ id ∈ messages.flatMap ParsedMessage.toolUseIds, id ∉ state.seenUses := by
  induction messages generalizing previous state with
  | nil => exact ⟨fun _ => ⟨⟨List.nodup_nil, by simp [withPrevious]⟩, by simp⟩, fun _ => ⟨[], rfl⟩⟩
  | cons message rest ih =>
      constructor
      · rintro ⟨_, h⟩
        simp only [orderMessages, bind_eq_ok] at h
        obtain ⟨⟨ordered, next⟩, hm, tail, hrest, _⟩ := h
        have hp := orderMessage_passed hc hm
        obtain ⟨⟨hnodup, hfresh⟩, hans⟩ := (orderMessage_ok_iff hc).mp ⟨_, hm⟩
        obtain ⟨hsound, hnew⟩ := (ih hp.consistent).mp ⟨tail, hrest⟩
        have hseen : next.seenUses = state.seenUses ++ message.toolUseIds := hp.seenUses
        simp only [hseen, List.mem_append, not_or] at hnew
        refine ⟨⟨?_, ?_⟩, ?_⟩
        · rw [List.flatMap_cons, List.nodup_append']
          exact ⟨hnodup, hsound.unique, fun id hid hin => (hnew id hin).2 hid⟩
        · rw [withPrevious_cons, List.forall_mem_cons]
          exact ⟨hans, hsound.answered⟩
        · intro id hid
          rw [List.flatMap_cons, List.mem_append] at hid
          exact hid.elim (hfresh id) fun hin => (hnew id hin).1
      · rintro ⟨hsound, hnew⟩
        have hunique := hsound.unique
        rw [List.flatMap_cons, List.nodup_append'] at hunique
        have hanswered := hsound.answered
        rw [withPrevious_cons, List.forall_mem_cons] at hanswered
        simp only [List.flatMap_cons, List.mem_append] at hnew
        obtain ⟨r, hm⟩ := (orderMessage_ok_iff hc).mpr
          ⟨⟨hunique.1, fun id hid => hnew id (Or.inl hid)⟩, hanswered.1⟩
        have hp := orderMessage_passed hc hm
        obtain ⟨tail, hrest⟩ := (ih hp.consistent).mpr ⟨⟨hunique.2.1, hanswered.2⟩, by
          intro id hid
          rw [hp.seenUses, List.mem_append, not_or]
          exact ⟨hnew id (Or.inr hid), fun h => hunique.2.2 h hid⟩⟩
        exact ⟨r.1 :: tail, by simp [orderMessages, bind_eq_ok, hm, hrest]⟩

theorem orderMessages_ordered (hc : Consistent previous state)
    (h : orderMessages state messages = .ok ordered) :
    List.Forall₂ (fun turn message => OrderedBy turn.1 turn.2 message)
      (withPrevious previous messages) ordered := by
  induction messages generalizing previous state ordered with
  | nil =>
      cases h
      exact .nil
  | cons message rest ih =>
      simp only [orderMessages, bind_eq_ok] at h
      obtain ⟨⟨first, next⟩, hm, tail, hrest, h⟩ := h
      cases h
      have hp := orderMessage_passed hc hm
      exact .cons hp.ordered (ih hp.consistent hrest)

theorem validateRoles_ok_iff :
    validateRoles index messages = .ok () ↔ ∀ offset, ∀ message, messages[offset]? = some message →
      message.role = expectedRole (index + offset) := by
  induction messages generalizing index with
  | nil => simp [validateRoles]
  | cons message rest ih =>
      by_cases h : message.role = expectedRole index
      · simp only [validateRoles, h, ne_eq, not_true_eq_false, if_false, ih]
        constructor
        · intro hrest offset m hm
          cases offset with
          | zero =>
              cases hm
              exact h
          | succ n => rw [hrest n m hm, Nat.add_right_comm, Nat.add_assoc]
        · intro hall offset m hm
          rw [hall (offset + 1) m hm, Nat.add_right_comm, Nat.add_assoc]
      · simp only [validateRoles, h, ne_eq, not_false_eq_true, if_true, reduceCtorEq, false_iff,
          not_forall]
        exact ⟨0, message, rfl, h⟩

theorem validateMessageOrder_ok_iff :
    validateMessageOrder messages = .ok () ↔ Alternates messages := by
  simp only [validateMessageOrder, bind_eq_ok]
  constructor
  · rintro ⟨_, hroles, hlast⟩
    refine ⟨by simpa using validateRoles_ok_iff.mp hroles, ?_⟩
    cases hl : messages.getLast? with
    | none => simp [hl] at hlast
    | some last => simpa [hl] using hlast
  · intro h
    refine ⟨(), validateRoles_ok_iff.mpr (by simpa using h.turns), ?_⟩
    obtain ⟨last, hl, hrole⟩ := Option.map_eq_some_iff.mp h.ends
    simp [hl, hrole]

/-- Exactly the sound histories of alternating turns pass, and each turn keeps its results, in
the order of the uses they answer. -/
theorem toolHistory_accepted_iff_sound (messages : List ParsedMessage) :
    ((validateMessageOrder messages = .ok () ∧
        ∃ ordered, validateAndOrderToolHistory messages = .ok ordered) ↔
      Alternates messages ∧ SoundHistory [] messages) ∧
    ∀ ordered, validateAndOrderToolHistory messages = .ok ordered →
      List.Forall₂ (fun turn message => OrderedBy turn.1 turn.2 message)
        (withPrevious [] messages) ordered := by
  have hall := @orderMessages_ok_iff _ _ messages Consistent.init
  simp only [ToolHistory.init, List.not_mem_nil, not_false_eq_true, implies_true, and_true] at hall
  exact ⟨and_congr validateMessageOrder_ok_iff hall, fun _ => orderMessages_ordered .init⟩

end StonePlus.Kiro
