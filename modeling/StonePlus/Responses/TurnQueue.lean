import StonePlus.Js.Object
import StonePlus.Js.TextEncoder
import StonePlus.Lib.Run
import StonePlus.Responses.ForwardSse
import Mathlib.Data.List.Nodup

/-!
# StonePlus.Responses.TurnQueue

`ResponsesWebSocketAdapter.attachConnection` of `gateway/responses-websocket.ts`: the turns a
client asks for over one connection are dispatched one after another.

Everything that may call into the connection is an event: messages, the end of a dispatch,
timeouts of a send, the socket's `close` and `error`.  What a dispatch sends is left out, so that
its success and its failure are the same event.
-/

namespace StonePlus.Responses

open Lib Json

def maxQueuedTurns : Nat := 32
def maxQueuedPayloadBytes : Nat := 128 * 1024 * 1024

/-! ## Messages of the client -/

inductive ParsedEvent
  | create (body : List (JsString × Json))
  | cancel
  | invalid (message : JsString)

def parseClientEvent (raw : Bytes) : ParsedEvent :=
  match Json.parse (utf8Text raw) with
  | none => .invalid (js "Messages must contain one valid JSON object.")
  | some (.object value) =>
    match property? value (js "type") with
    | some (.string type) =>
      if type = js "response.cancel" then .cancel
      else if type ≠ js "response.create" then
        .invalid (js "Unsupported message type: " ++ type ++ js ".")
      else if (property? value (js "stream")).isSome || (property? value (js "background")).isSome then
        .invalid (js "stream and background are not used in Responses WebSocket mode.")
      else
        match property? value (js "model") with
        | some (.string model) =>
          if model.trim = [] then .invalid (js "response.create requires a model.")
          else
            .create (setProperty (js "stream") (.bool true)
              (setProperty (js "model") (.string model.trim) (deleteProperty (js "type") value)))
        | _ => .invalid (js "response.create requires a model.")
    | _ => .invalid (js "A message type is required.")
  | some _ => .invalid (js "A message type is required.")

/-- What is sent back at once: an error event or `response.cancelled`. -/
inductive Reply
  | error (status : Nat) (code message : JsString)
  | cancelled
  deriving DecidableEq

/-! ## The connection -/

/-- A queued turn; `arrival` numbers the `response.create` events. -/
structure Turn where
  arrival : Nat
  body : List (JsString × Json)
  byteLength : Nat
  deriving DecidableEq

inductive AbortReason
  | cancelled
  | disconnected
  | failed
  | slowConsumer
  deriving DecidableEq

/-- The `AbortController` of a dispatch. -/
structure Controller where
  turn : Turn
  aborted : Option AbortReason

/-- What `attachConnection` closes over.  The controllers are those of all dispatches so far, and
`running` are the dispatches whose promise has not been settled. -/
structure Connection where
  queued : List Turn
  queuedPayloadBytes : Nat
  inFlight : Option Nat
  closed : Bool
  controllers : List Controller
  running : List Nat
  arrivals : Nat
  replies : List Reply
  terminated : Bool

inductive Event
  | message (raw : Bytes) (isBinary : Bool)
  | settled (controller : Nat)
  | dispatchTimedOut (controller : Nat)
  | sendTimedOut
  | close
  | error

namespace Connection

def new : Connection := ⟨[], 0, none, false, [], [], 0, [], false⟩

/-- `if (controller && !controller.signal.aborted) controller.abort(reason)`. -/
def abort (s : Connection) (controller : Option Nat) (reason : AbortReason) : Connection :=
  match controller with
  | none => s
  | some c =>
    { s with controllers := s.controllers.modify c fun controller =>
        { controller with aborted := controller.aborted.or (some reason) } }

/-- `queued.length = 0; queuedPayloadBytes = 0`. -/
def clear (s : Connection) : Connection := { s with queued := [], queuedPayloadBytes := 0 }

def sendBestEffort (s : Connection) (payload : Reply) : Connection :=
  { s with replies := s.replies ++ [payload] }

def closeSlowConsumer (s : Connection) (controller : Option Nat) : Connection :=
  { ({ s with closed := true }.clear.abort controller .slowConsumer) with terminated := true }

def dispatchNext (s : Connection) : Connection :=
  if s.closed || s.inFlight.isSome then s
  else
    match s.queued with
    | [] => s
    | queuedTurn :: rest =>
      let controller := s.controllers.length
      { s with
        queued := rest
        queuedPayloadBytes := s.queuedPayloadBytes - queuedTurn.byteLength
        inFlight := some controller
        controllers := s.controllers ++ [⟨queuedTurn, none⟩]
        running := s.running ++ [controller] }

/-- The turn of a `response.create`, or the error it is answered with. -/
def checkQueue (s : Connection) (body : List (JsString × Json)) (byteLength : Nat) :
    Except Reply Turn :=
  if s.queued.length ≥ maxQueuedTurns then
    .error (.error 429 (js "websocket_queue_full")
      (js "Too many response.create events are queued."))
  else if s.queuedPayloadBytes + byteLength > maxQueuedPayloadBytes then
    .error (.error 429 (js "websocket_queue_full")
      (js "The queued response.create payload budget is full."))
  else .ok ⟨s.arrivals, body, byteLength⟩

def enqueue (s : Connection) (turn : Turn) : Connection :=
  { s with
    queued := s.queued ++ [turn]
    queuedPayloadBytes := s.queuedPayloadBytes + turn.byteLength }

/-- The `message` listener. -/
def onMessage (s : Connection) (raw : Bytes) (isBinary : Bool) : Connection :=
  if isBinary then
    s.sendBestEffort (.error 400 (js "invalid_message") (js "Binary messages are not supported."))
  else
    match parseClientEvent raw with
    | .invalid message => s.sendBestEffort (.error 400 (js "invalid_message") message)
    | .cancel => (s.abort s.inFlight .cancelled).clear.sendBestEffort .cancelled
    | .create body =>
      let numbered := { s with arrivals := s.arrivals + 1 }
      match s.checkQueue body raw.length with
      | .error reply => numbered.sendBestEffort reply
      | .ok turn => (numbered.enqueue turn).dispatchNext

/-- The `finally` of a dispatch. -/
def settle (s : Connection) (controller : Nat) : Connection :=
  { s with
    running := s.running.erase controller
    inFlight := if s.inFlight = some controller then none else s.inFlight }.dispatchNext

def step (s : Connection) : Event → Connection
  | .message raw isBinary => s.onMessage raw isBinary
  | .settled controller => if controller ∈ s.running then s.settle controller else s
  | .dispatchTimedOut controller =>
    if controller ∈ s.running then s.closeSlowConsumer (some controller) else s
  | .sendTimedOut => s.closeSlowConsumer s.inFlight
  | .close => { s with closed := true }.clear.abort s.inFlight .disconnected
  | .error => s.abort s.inFlight .failed

/-! ## What happens to a turn -/

/-- The turns that have been dispatched, in that order. -/
def dispatched (s : Connection) : List Turn := s.controllers.map (·.turn)

/-- The turn an event adds to the queue. -/
def accepted (s : Connection) : Event → Option Turn
  | .message raw false =>
    match parseClientEvent raw with
    | .create body => (s.checkQueue body raw.length).toOption
    | _ => none
  | _ => none

/-- An event that drops what is queued: a cancel, or a close of any kind. -/
def Interrupts (s : Connection) : Event → Prop
  | .message raw isBinary => isBinary = false ∧ parseClientEvent raw = .cancel
  | .settled _ => False
  | .dispatchTimedOut controller => controller ∈ s.running
  | .sendTimedOut => True
  | .close => True
  | .error => False

/-- The turns that have been dispatched and those that wait, in line. -/
def line (s : Connection) : List Turn := s.dispatched ++ s.queued

end Connection

end StonePlus.Responses

/-!
## The order of turns

What holds of a connection after any events, in any order: one dispatch at a time, the queue
within its budget, turns in their order of arrival, and none of them lost or dispatched twice.

Every step keeps the line of the dispatched and the waiting turns, adds to its end, or drops
what waits.
-/

namespace StonePlus.Responses.Connection

open Lib

variable {s : Connection}

/-! ## Fields -/

@[simp] theorem dispatched_abort (controller : Option Nat) (reason : AbortReason) :
    (s.abort controller reason).dispatched = s.dispatched := by
  cases controller with
  | none => rfl
  | some c =>
    simp only [abort, dispatched]
    apply List.ext_getElem?
    intro i
    rw [List.getElem?_map, List.getElem?_map, List.getElem?_modify]
    cases s.controllers[i]? with
    | none => rfl
    | some k =>
      simp only [Option.map_some]
      split <;> rfl

theorem abort_eq (controller : Option Nat) (reason : AbortReason) :
    s.abort controller reason =
      { s with controllers := (s.abort controller reason).controllers } := by
  cases controller <;> rfl

/-! ## The invariant -/

/-- What holds between the listeners, but for an idle connection with a queue. -/
structure Ready (s : Connection) : Prop where
  running : s.running = s.inFlight.toList
  bytes : s.queuedPayloadBytes = (s.queued.map (·.byteLength)).sum
  budget : s.queuedPayloadBytes ≤ maxQueuedPayloadBytes
  ordered : s.line.Pairwise fun a b => a.arrival < b.arrival
  old : ∀ turn ∈ s.line, turn.arrival < s.arrivals

structure Inv (s : Connection) : Prop extends Ready s where
  idle : s.inFlight = none → s.closed = false → s.queued = []

theorem inv_new : Inv new :=
  ⟨⟨rfl, rfl, Nat.zero_le _, .nil, by simp [line, dispatched, new]⟩, fun _ _ => rfl⟩

theorem Ready.congr (h : Ready s) (hrunning : s'.running = s.running)
    (hinFlight : s'.inFlight = s.inFlight) (hqueued : s'.queued = s.queued)
    (hbytes : s'.queuedPayloadBytes = s.queuedPayloadBytes)
    (hdispatched : s'.dispatched = s.dispatched) (harrivals : s.arrivals ≤ s'.arrivals) :
    Ready s' := by
  have hline : s'.line = s.line := by rw [line, line, hdispatched, hqueued]
  exact ⟨by rw [hrunning, hinFlight, h.running], by rw [hbytes, hqueued, h.bytes],
    hbytes ▸ h.budget, hline ▸ h.ordered,
    fun turn hturn => (h.old turn (hline ▸ hturn)).trans_le harrivals⟩

theorem Ready.abort (h : Ready s) (controller : Option Nat) (reason : AbortReason) :
    Ready (s.abort controller reason) := by
  rw [abort_eq]
  exact h.congr rfl rfl rfl rfl (dispatched_abort controller reason) le_rfl

theorem Ready.clear (h : Ready s) : Ready s.clear := by
  have hsub : s.clear.line.Sublist s.line := by
    simp only [line, Connection.clear, List.append_nil]
    exact List.sublist_append_left _ _
  exact ⟨h.running, rfl, Nat.zero_le _, h.ordered.sublist hsub,
    fun turn hturn => h.old turn (hsub.subset hturn)⟩

/-- Dispatching the next turn leaves the line as it is. -/
theorem line_dispatchNext (s : Connection) : s.dispatchNext.line = s.line := by
  unfold dispatchNext
  split
  · rfl
  · split
    · rfl
    · rename_i turn rest hqueued
      simp [line, dispatched, hqueued]

theorem Ready.dispatchNext (h : Ready s) : Inv s.dispatchNext := by
  have hline := line_dispatchNext s
  have hordered := hline ▸ h.ordered
  unfold Connection.dispatchNext at hline hordered ⊢
  split
  · rename_i hbusy
    refine ⟨h, fun hnone hopen => ?_⟩
    simp [hnone, hopen] at hbusy
  · rename_i hfree
    have hnone : s.inFlight = none := by
      cases hinFlight : s.inFlight <;> simp_all
    split
    · rename_i hqueued
      exact ⟨h, fun _ _ => hqueued⟩
    · rename_i turn rest hqueued
      have hbytes := h.bytes
      have hbudget := h.budget
      rw [hqueued, List.map_cons, List.sum_cons] at hbytes
      rw [if_neg hfree, hqueued] at hline hordered
      refine ⟨⟨by simp [h.running, hnone], ?_, ?_, hordered, ?_⟩, fun hsome => by simp at hsome⟩
      · show s.queuedPayloadBytes - turn.byteLength = (rest.map (·.byteLength)).sum
        omega
      · show s.queuedPayloadBytes - turn.byteLength ≤ _
        omega
      · intro other hother
        exact h.old other (hline ▸ hother)

theorem Inv.abort (h : Inv s) (controller : Option Nat) (reason : AbortReason) :
    Inv (s.abort controller reason) := by
  refine ⟨h.toReady.abort controller reason, ?_⟩
  rw [abort_eq]
  exact h.idle

theorem Ready.drop (h : Ready s) (controller : Option Nat) (reason : AbortReason) :
    Inv (s.clear.abort controller reason) :=
  Inv.abort ⟨h.clear, fun _ _ => rfl⟩ controller reason

/-- What a timeout of a send leaves. -/
theorem Inv.closeSlowConsumer (h : Inv s) (controller : Option Nat) :
    Inv (s.closeSlowConsumer controller) := by
  have hclosed : Ready { s with closed := true } := h.toReady.congr rfl rfl rfl rfl rfl le_rfl
  have hdrop := hclosed.drop controller .slowConsumer
  exact ⟨hdrop.toReady.congr rfl rfl rfl rfl rfl le_rfl, hdrop.idle⟩

theorem Inv.sendBestEffort (h : Inv s) (payload : Reply) : Inv (s.sendBestEffort payload) :=
  ⟨h.toReady.congr rfl rfl rfl rfl rfl le_rfl, h.idle⟩

theorem checkQueue_eq_ok (h : s.checkQueue body byteLength = .ok turn) :
    turn = ⟨s.arrivals, body, byteLength⟩ ∧
      s.queuedPayloadBytes + byteLength ≤ maxQueuedPayloadBytes := by
  unfold checkQueue at h
  split at h
  · cases h
  · split at h
    · cases h
    · cases h
      exact ⟨rfl, by omega⟩

theorem Ready.enqueue (h : Ready s) (hturn : turn.arrival = s.arrivals)
    (hfits : s.queuedPayloadBytes + turn.byteLength ≤ maxQueuedPayloadBytes) :
    Ready ({ s with arrivals := s.arrivals + 1 }.enqueue turn) := by
  have hline : ({ s with arrivals := s.arrivals + 1 }.enqueue turn).line = s.line ++ [turn] :=
    (List.append_assoc s.dispatched s.queued [turn]).symm
  refine ⟨h.running, ?_, hfits, ?_, ?_⟩
  · show s.queuedPayloadBytes + turn.byteLength =
      ((s.queued ++ [turn]).map (·.byteLength)).sum
    simp [h.bytes]
  · rw [hline, List.pairwise_append]
    refine ⟨h.ordered, List.pairwise_singleton _ _, fun a ha b hb => ?_⟩
    rw [List.mem_singleton.mp hb, hturn]
    exact h.old a ha
  · intro other hother
    show other.arrival < s.arrivals + 1
    rw [hline, List.mem_append, List.mem_singleton] at hother
    obtain hother | rfl := hother
    · have := h.old other hother
      omega
    · omega

theorem Inv.onMessage (h : Inv s) (raw : Bytes) (isBinary : Bool) : Inv (s.onMessage raw isBinary) := by
  unfold Connection.onMessage
  split
  · exact h.sendBestEffort _
  · split
    · exact h.sendBestEffort _
    · have hdrop := (h.toReady.abort s.inFlight .cancelled).clear
      exact (Inv.mk hdrop fun _ _ => rfl).sendBestEffort _
    · have hnumbered : Inv { s with arrivals := s.arrivals + 1 } :=
        ⟨h.toReady.congr rfl rfl rfl rfl rfl (Nat.le_succ _), h.idle⟩
      dsimp only
      split
      · exact hnumbered.sendBestEffort _
      · rename_i turn hok
        obtain ⟨rfl, hfits⟩ := checkQueue_eq_ok hok
        exact (h.toReady.enqueue rfl hfits).dispatchNext

/-- A dispatch that is running is the one in flight. -/
theorem Ready.inFlight_of_mem (h : Ready s) (hmem : controller ∈ s.running) :
    s.inFlight = some controller := by
  rw [h.running, Option.mem_toList] at hmem
  exact hmem

theorem Ready.settle (h : Ready s) (hmem : controller ∈ s.running) : Inv (s.settle controller) := by
  have hrunning := h.running
  rw [h.inFlight_of_mem hmem] at hrunning
  refine Ready.dispatchNext ⟨?_, h.bytes, h.budget, h.ordered, h.old⟩
  simp [hrunning, h.inFlight_of_mem hmem]

theorem Inv.step (h : Inv s) (event : Event) : Inv (s.step event) := by
  cases event with
  | message raw isBinary => exact h.onMessage raw isBinary
  | settled controller =>
    show Inv (if controller ∈ s.running then s.settle controller else s)
    split
    · rename_i hmem
      exact h.toReady.settle hmem
    · exact h
  | dispatchTimedOut controller =>
    show Inv (if controller ∈ s.running then s.closeSlowConsumer (some controller) else s)
    split
    · exact h.closeSlowConsumer _
    · exact h
  | sendTimedOut => exact h.closeSlowConsumer _
  | close =>
    have hclosed : Ready { s with closed := true } := h.toReady.congr rfl rfl rfl rfl rfl le_rfl
    exact hclosed.drop s.inFlight .disconnected
  | error => exact h.abort s.inFlight .failed

theorem inv_run (events : List Event) : Inv (run step new events) :=
  invariant_run Inv (fun _ event h => h.step event) inv_new events

/-! ## What a step does to the line -/

theorem dispatchNext_spec (s : Connection) :
    s.dispatched <+: s.dispatchNext.dispatched ∧ s.dispatchNext.closed = s.closed := by
  unfold dispatchNext
  split
  · exact ⟨List.prefix_rfl, rfl⟩
  · split
    · exact ⟨List.prefix_rfl, rfl⟩
    · refine ⟨?_, rfl⟩
      simp only [dispatched, List.map_append]
      exact List.prefix_append _ _

/-- What has been dispatched stays so. -/
theorem dispatched_step (s : Connection) (event : Event) :
    s.dispatched <+: (s.step event).dispatched := by
  have htimedOut : ∀ controller, (s.closeSlowConsumer controller).dispatched = s.dispatched :=
    fun controller =>
      @dispatched_abort (clear { s with closed := true }) controller .slowConsumer
  cases event with
  | message raw isBinary =>
    show s.dispatched <+: (s.onMessage raw isBinary).dispatched
    unfold onMessage
    split
    · exact List.prefix_rfl
    · split
      · exact List.prefix_rfl
      · show s.dispatched <+: (s.abort s.inFlight .cancelled).dispatched
        rw [dispatched_abort]
      · dsimp only
        split
        · exact List.prefix_rfl
        · rename_i turn _
          exact (dispatchNext_spec ({ s with arrivals := s.arrivals + 1 }.enqueue turn)).1
  | settled controller =>
    show s.dispatched <+: (if controller ∈ s.running then s.settle controller else s).dispatched
    split
    · exact (dispatchNext_spec { s with
        running := s.running.erase controller
        inFlight := if s.inFlight = some controller then none else s.inFlight }).1
    · exact List.prefix_rfl
  | dispatchTimedOut controller =>
    show s.dispatched <+:
      (if controller ∈ s.running then s.closeSlowConsumer (some controller) else s).dispatched
    split
    · rw [htimedOut]
    · exact List.prefix_rfl
  | sendTimedOut =>
    show s.dispatched <+: (s.closeSlowConsumer s.inFlight).dispatched
    rw [htimedOut]
  | close =>
    show s.dispatched <+: ({ s with closed := true }.clear.abort s.inFlight .disconnected).dispatched
    rw [dispatched_abort]
    exact List.prefix_rfl
  | error =>
    show s.dispatched <+: (s.abort s.inFlight .failed).dispatched
    rw [dispatched_abort]

/-- Without an interruption the line only grows at its end, and the connection stays open. -/
theorem line_step (h : ¬s.Interrupts event) :
    s.line <+: (s.step event).line ∧ (s.step event).closed = s.closed := by
  cases event with
  | message raw isBinary =>
    show s.line <+: (s.onMessage raw isBinary).line ∧ (s.onMessage raw isBinary).closed = s.closed
    unfold onMessage
    split
    · exact ⟨List.prefix_rfl, rfl⟩
    · rename_i htext
      split
      · exact ⟨List.prefix_rfl, rfl⟩
      · rename_i hcancel
        exact absurd ⟨by simpa using htext, hcancel⟩ h
      · dsimp only
        split
        · exact ⟨List.prefix_rfl, rfl⟩
        · rw [line_dispatchNext, (dispatchNext_spec _).2]
          refine ⟨?_, rfl⟩
          show s.dispatched ++ s.queued <+: s.dispatched ++ (s.queued ++ [_])
          rw [← List.append_assoc]
          exact List.prefix_append _ _
  | settled controller =>
    show s.line <+: (if controller ∈ s.running then s.settle controller else s).line ∧
      (if controller ∈ s.running then s.settle controller else s).closed = s.closed
    split
    · rw [settle, line_dispatchNext, (dispatchNext_spec _).2]
      exact ⟨List.prefix_rfl, rfl⟩
    · exact ⟨List.prefix_rfl, rfl⟩
  | dispatchTimedOut controller =>
    have hnot : controller ∉ s.running := h
    simp [step, hnot]
  | sendTimedOut => exact absurd trivial h
  | close => exact absurd trivial h
  | error =>
    show s.line <+: (s.abort s.inFlight .failed).line ∧ (s.abort s.inFlight .failed).closed = s.closed
    rw [line, line, dispatched_abort, abort_eq]
    exact ⟨List.prefix_rfl, rfl⟩

theorem dispatched_run (s : Connection) (events : List Event) :
    s.dispatched <+: (run step s events).dispatched :=
  run_rel (r := fun s s' => s.dispatched <+: s'.dispatched) (fun _ => List.prefix_rfl)
    (fun a b c (hab : a.dispatched <+: b.dispatched) (hbc : b.dispatched <+: c.dispatched) =>
      hab.trans hbc) dispatched_step s events

/-- A turn in line is dispatched, waits, or was dropped by an interruption before its dispatch. -/
theorem fate {turn : Turn} {events : List Event} (hturn : turn ∈ s.line) :
    turn ∈ (run step s events).dispatched ∨
      (turn ∈ (run step s events).queued ∧ (run step s events).closed = s.closed) ∨
      ∃ before event after, events = before ++ event :: after ∧
        (run step s before).Interrupts event ∧ turn ∉ (run step s before).dispatched := by
  induction events generalizing s with
  | nil =>
    obtain hdone | hwaits := List.mem_append.mp hturn
    · exact .inl hdone
    · exact .inr (.inl ⟨hwaits, rfl⟩)
  | cons event events ih =>
    by_cases hdone : turn ∈ s.dispatched
    · exact .inl ((dispatched_run s (event :: events)).subset hdone)
    · by_cases hevent : s.Interrupts event
      · exact .inr (.inr ⟨[], event, events, rfl, hevent, hdone⟩)
      · obtain ⟨hline, hclosed⟩ := line_step hevent
        obtain hrun | ⟨hqueued, hsame⟩ | ⟨before, next, after, rfl, hnext, hnot⟩ :=
          ih (hline.subset hturn)
        · exact .inl hrun
        · exact .inr (.inl ⟨hqueued, hsame.trans hclosed⟩)
        · exact .inr (.inr ⟨event :: before, next, after, rfl, hnext, hnot⟩)

/-- An accepted turn is the last in line. -/
theorem mem_line_of_accepted (h : s.accepted event = some turn) :
    turn ∈ (s.step event).line ∧ (s.step event).closed = s.closed := by
  unfold accepted at h
  split at h
  · rename_i raw
    show turn ∈ (s.onMessage raw false).line ∧ (s.onMessage raw false).closed = s.closed
    unfold onMessage
    split at h
    · rename_i body hparse
      cases hcheck : s.checkQueue body raw.length with
      | error reply => simp [hcheck, Except.toOption] at h
      | ok other =>
        have hsame : other = turn := by simpa [hcheck, Except.toOption] using h
        simp only [hparse, hcheck, hsame, Bool.false_eq_true, if_false]
        rw [line_dispatchNext, (dispatchNext_spec _).2]
        exact ⟨by simp [line, enqueue], rfl⟩
    · cases h
  · cases h

/-! ## What holds of a connection -/

/-- After any events: at most one dispatch is running and its end dispatches the turn that is
first in the queue; the queue's bytes are counted right and within the budget; the turns were
dispatched in their order of arrival; and a turn that was accepted has been dispatched exactly
once, or not at all and then it waits for the running dispatch, or the connection was closed
already, or a cancel or a close has come before its dispatch. -/
theorem turns_dispatched (events : List Event) :
    let s := run step new events
    s.running.length ≤ 1 ∧
    (∀ controller ∈ s.running, s.closed = false →
      (s.step (.settled controller)).dispatched = s.dispatched ++ s.queued.take 1) ∧
    s.queuedPayloadBytes = (s.queued.map (·.byteLength)).sum ∧
    s.queuedPayloadBytes ≤ maxQueuedPayloadBytes ∧
    s.dispatched.Pairwise (fun a b => a.arrival < b.arrival) ∧
    ∀ before event after turn, events = before ++ event :: after →
      (run step new before).accepted event = some turn →
      s.dispatched.count turn = 1 ∨
      (s.dispatched.count turn = 0 ∧
        ((turn ∈ s.queued ∧ s.running ≠ []) ∨ (run step new before).closed = true ∨
          ∃ between interruption rest, after = between ++ interruption :: rest ∧
            (run step new (before ++ event :: between)).Interrupts interruption ∧
            turn ∉ (run step new (before ++ event :: between)).dispatched)) := by
  intro s
  have h : Inv s := inv_run events
  have hnodup : s.line.Nodup := h.ordered.imp fun hlt heq => by simp [heq] at hlt
  have hrunning : s.running.length ≤ 1 := by
    rw [h.running]
    cases s.inFlight <;> simp
  have hsettled : ∀ controller ∈ s.running, s.closed = false →
      (s.step (.settled controller)).dispatched = s.dispatched ++ s.queued.take 1 := by
    intro controller hmem hopen
    rw [step, if_pos hmem, settle, dispatchNext]
    simp only [hopen, h.inFlight_of_mem hmem, if_true, Option.isSome_none, Bool.or_self,
      Bool.false_eq_true, if_false]
    cases hqueued : s.queued <;> simp [dispatched]
  refine ⟨hrunning, hsettled, h.bytes, h.budget, h.ordered.sublist (List.sublist_append_left _ _),
    fun before event after turn hevents haccepted => ?_⟩
  obtain ⟨hline, hclosed⟩ := mem_line_of_accepted haccepted
  have hsplit : s = run step ((run step new before).step event) after := by
    show run step new events = _
    rw [hevents, run_append, run_cons]
  obtain hdone | ⟨hwaits, hsame⟩ | ⟨between, interruption, rest, rfl, hinterrupts, hnot⟩ :=
    @fate _ _ after hline
  · rw [← hsplit] at hdone
    exact .inl (List.count_eq_one_of_mem (hnodup.sublist (List.sublist_append_left _ _)) hdone)
  · rw [← hsplit] at hwaits hsame
    have hnot : turn ∉ s.dispatched := fun hdone =>
      List.disjoint_of_nodup_append hnodup hdone hwaits
    refine .inr ⟨List.count_eq_zero.mpr hnot, ?_⟩
    by_cases hopen : s.closed = true
    · exact .inr (.inl (by rw [← hclosed, ← hsame, hopen]))
    · refine .inl ⟨hwaits, fun hnone => ?_⟩
      have hidle : s.inFlight = none := by
        have := h.running.symm.trans hnone
        cases hinFlight : s.inFlight <;> simp_all
      simp [h.idle hidle (by simpa using hopen)] at hwaits
  · by_cases hdone : turn ∈ s.dispatched
    · exact .inl (List.count_eq_one_of_mem (hnodup.sublist (List.sublist_append_left _ _)) hdone)
    · refine .inr ⟨List.count_eq_zero.mpr hdone, .inr (.inr ⟨between, interruption, rest, rfl, ?_⟩)⟩
      rw [run_append, run_cons]
      exact ⟨hinterrupts, hnot⟩

/-- A client's request for a turn. -/
def createMessage : Event :=
  .message (bufferFrom (js "\x7b\"type\":\"response.create\",\"model\":\"m\"\x7d")) false

/-- Of two turns the second is dispatched when the first has ended. -/
theorem turns_dispatched_two :
    (run step new [createMessage, createMessage, .settled 0]).dispatched.count
      ⟨1, [(js "model", .string (js "m")), (js "stream", .bool true)], 38⟩ = 1 := by
  obtain hdone | ⟨hnever, -⟩ := (turns_dispatched
      [createMessage, createMessage, .settled 0]).2.2.2.2.2 [createMessage] createMessage
      [.settled 0] ⟨1, [(js "model", .string (js "m")), (js "stream", .bool true)], 38⟩ rfl
      (by decide +kernel)
  · exact hdone
  · exact absurd hnever (by decide +kernel)

end StonePlus.Responses.Connection
