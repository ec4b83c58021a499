import StonePlus.Lib.Run
import Mathlib.Algebra.Group.Int.Defs
import Mathlib.Algebra.GroupWithZero.Nat
import Mathlib.Data.List.Basic
import Mathlib.Data.Int.Order.Basic

/-!
# StonePlus.Auth.OAuthRefreshGate

The gate of one provider in `auth/oauth-refresh-gate.ts`: at most two refresh requests at a time,
waiters in turn, and a pace that slows down when the endpoint fails.

A step is what runs without a break: a call, a microtask, a timer, an abort.  Continuations of
`acquire` run in the order in which their promises were resolved.  The log of the reservations,
with the busy period of each, is kept for the specification.
-/

namespace StonePlus.Auth

/-- Where a request is.  From `granted` on, up to its `finally`, it holds a slot. -/
inductive Stage
  | queued
  | granted
  | delaying (admissionAt : Int)
  | woken
  | operating
  | settled
  | ended
  deriving DecidableEq

/-- A request; `waited` is whether `acquire` made a waiter for it, and `settlements` how often the
promise of that was settled. -/
structure RefreshRequest where
  stage : Stage
  aborted : Bool
  waited : Bool
  settlements : Nat
  reservedAt : Option Int
  startedAt : Option Int
  deriving DecidableEq

structure Reservation where
  request : Nat
  admissionAt : Int
  deferUntil : Int
  period : Nat
  deriving DecidableEq

structure ProviderGateState where
  active : Nat
  queue : List Nat
  nextAdmissionAt : Int
  transientFailures : Nat
  deferUntil : Int
  now : Int
  requests : List RefreshRequest
  /-- The requests whose continuation of `acquire` is in the microtask queue. -/
  resumptions : List Nat
  reservations : List Reservation
  period : Nat
  deriving DecidableEq

def maxConcurrentRefreshes : Nat := 2

def minAdmissionIntervalMs : Int := 100

def maxProviderDeferMs : Int := 5000

def ProviderGateState.initial (now : Int) : ProviderGateState where
  active := 0
  queue := []
  nextAdmissionAt := 0
  transientFailures := 0
  deferUntil := 0
  now := now
  requests := []
  resumptions := []
  reservations := []
  period := 0

variable (s : ProviderGateState)

def setRequest (i : Nat) (r : RefreshRequest) : ProviderGateState :=
  { s with requests := s.requests.set i r }

/-! ## Slots -/

/-- The loop of `release`, over the queue. -/
def handOver (s : ProviderGateState) : List Nat → ProviderGateState
  | [] => { s with queue := [] }
  | i :: queue =>
    if s.active < maxConcurrentRefreshes then
      match s.requests[i]? with
      | none => handOver s queue
      | some r =>
        if r.aborted then
          let r :=
            { r with
              stage := .ended
              settlements := r.settlements + 1 }
          handOver (setRequest s i r) queue
        else
          let r :=
            { r with
              stage := .granted
              settlements := r.settlements + 1 }
          handOver
            { setRequest s i r with
              active := s.active + 1
              resumptions := s.resumptions ++ [i] }
            queue
    else { s with queue := i :: queue }

/-- The `finally` of a request, which is over then. -/
def release (i : Nat) (r : RefreshRequest) : ProviderGateState :=
  let s := setRequest s i { r with stage := .ended }
  let s := handOver { s with active := s.active - 1 } s.queue
  if s.active = 0 ∧ s.queue = [] then
    { s with
      nextAdmissionAt := 0
      transientFailures := 0
      deferUntil := 0 }
  else s

def acquire : ProviderGateState :=
  if s.active < maxConcurrentRefreshes ∧ s.queue = [] then
    { s with
      active := s.active + 1
      requests := s.requests ++ [⟨.granted, false, false, 0, none, none⟩]
      resumptions := s.resumptions ++ [s.requests.length] }
  else
    { s with
      requests := s.requests ++ [⟨.queued, false, true, 0, none, none⟩]
      queue := s.queue ++ [s.requests.length] }

/-! ## Operations -/

def recordTransientFailure : ProviderGateState :=
  let s := { s with transientFailures := s.transientFailures + 1 }
  if s.transientFailures < 3 then s
  else
    let delayMs := min maxProviderDeferMs (250 * 2 ^ min 4 (s.transientFailures - 3))
    { s with deferUntil := max s.deferUntil (s.now + delayMs) }

def recordHealthyEndpoint : ProviderGateState :=
  { s with
    transientFailures := 0
    deferUntil := 0 }

/-- `runOperation`, up to its first `await`; the operation may throw at once. -/
def runOperation (i : Nat) (r : RefreshRequest) (throws : Bool) : ProviderGateState :=
  if r.aborted then release s i r
  else
    let r := { r with startedAt := some s.now }
    if throws then release (recordTransientFailure s) i r
    else setRequest s i { r with stage := .operating }

/-- `reserveAdmission`, and what follows up to the next `await`. -/
def letIn (i : Nat) (r : RefreshRequest) (throws : Bool) : ProviderGateState :=
  if r.aborted then release s i r
  else
    let admissionAt := max s.now (max s.nextAdmissionAt s.deferUntil)
    let r := { r with reservedAt := some admissionAt }
    let s :=
      { s with
        nextAdmissionAt := admissionAt + minAdmissionIntervalMs
        reservations := s.reservations ++ [⟨i, admissionAt, s.deferUntil, s.period⟩] }
    if s.now < admissionAt then setRequest s i { r with stage := .delaying admissionAt }
    else runOperation s i r throws

/-- `runOAuthRefreshRequest`; `elapsed` is the time between the two looks at the clock.  With a
signal that is aborted it throws. -/
def runOAuthRefreshRequest (aborted throws : Bool) (elapsed : Nat) : ProviderGateState :=
  if aborted then s
  else if s.active < maxConcurrentRefreshes ∧ s.queue = [] ∧
      max s.nextAdmissionAt s.deferUntil ≤ s.now then
    let r : RefreshRequest := ⟨.granted, false, false, 0, none, none⟩
    letIn
      { s with
        active := s.active + 1
        requests := s.requests ++ [r]
        now := s.now + elapsed }
      s.requests.length r throws
  else acquire s

/-- The continuation of `acquire` runs. -/
def resume (throws : Bool) : ProviderGateState :=
  match s.resumptions with
  | [] => s
  | i :: resumptions =>
    match s.requests[i]? with
    | none => { s with resumptions := resumptions }
    | some r => letIn { s with resumptions := resumptions } i r throws

/-- How an operation settles. -/
inductive Outcome
  | response (status : Nat)
  | error

def recordOutcome (r : RefreshRequest) : Outcome → ProviderGateState
  | .response status =>
    if status = 429 ∨ 500 ≤ status then recordTransientFailure s else recordHealthyEndpoint s
  | .error => if r.aborted then s else recordTransientFailure s

/-- The signal of a request is aborted. -/
def abort (i : Nat) (r : RefreshRequest) : ProviderGateState :=
  if r.aborted then s
  else
    let r := { r with aborted := true }
    match r.stage with
    | .queued =>
      { setRequest s i
          { r with
            stage := .ended
            settlements := r.settlements + 1 } with
        queue := s.queue.erase i }
    | .delaying _ => setRequest s i { r with stage := .settled }
    | _ => setRequest s i r

/-! ## Steps -/

/-- `timer` is the end of a delay, `proceed` the microtask after it, `settle` that in which the
result of an operation is seen, and `finish` the `finally`. -/
inductive Event
  | request (aborted throws : Bool) (elapsed : Nat)
  | resume (throws : Bool)
  | timer (request : Nat)
  | proceed (request : Nat) (throws : Bool)
  | settle (request : Nat) (outcome : Outcome)
  | finish (request : Nat)
  | abort (request : Nat)
  | elapse (ms : Nat)

/-- A request goes on, if it is there. -/
def withRequest (i : Nat) (f : RefreshRequest → ProviderGateState) : ProviderGateState :=
  match s.requests[i]? with
  | some r => f r
  | none => s

/-- A timer fires when its time has come. -/
def wake (i : Nat) (r : RefreshRequest) : ProviderGateState :=
  match r.stage with
  | .delaying admissionAt =>
    if admissionAt ≤ s.now then setRequest s i { r with stage := .woken } else s
  | _ => s

def apply : Event → ProviderGateState
  | .request aborted throws elapsed => runOAuthRefreshRequest s aborted throws elapsed
  | .resume throws => resume s throws
  | .timer i => withRequest s i (wake s i)
  | .proceed i throws =>
    withRequest s i fun r => if r.stage = .woken then runOperation s i r throws else s
  | .settle i outcome =>
    withRequest s i fun r =>
      if r.stage = .operating then
        setRequest (recordOutcome s r outcome) i { r with stage := .settled }
      else s
  | .finish i => withRequest s i fun r => if r.stage = .settled then release s i r else s
  | .abort i => withRequest s i (abort s i)
  | .elapse ms => { s with now := s.now + ms }

/-- No request holds a slot or waits for one. -/
def ProviderGateState.isIdle : Bool := s.active = 0 && s.queue.isEmpty

/-- A step; a busy period ends when the gate is idle. -/
def step (event : Event) : ProviderGateState :=
  let s := apply s event
  if s.isIdle then { s with period := s.period + 1 } else s

end StonePlus.Auth
