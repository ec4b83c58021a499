import StonePlus.Lib.Run
import Mathlib.Data.List.Basic

/-!
# StonePlus.Proxy.Retirement

The generations of the built-in route in `proxy/built-in/route-coordinator.ts`, with the requests
each of them has taken: how a request is released, and how a generation that has been replaced
comes to be disposed of.

Timers fire at any time once they are set.  How often a request was released, and whether a
generation was forced, is kept for the specification.
-/

namespace StonePlus.Proxy.Retirement

/-- Where a request is: it waits for the headers, its body waits for a reader, a read of the body
is pending, and so when the body was cancelled. -/
inductive Stage
  | fetching
  | idle
  | reading
  | cancelled
  | ended
  deriving DecidableEq

structure Request where
  stage : Stage
  released : Bool
  releases : Nat
  deriving DecidableEq

/-- `BuiltInRouteGeneration`; `listed` is whether it is one of the `retiredRoutes`, and
`disposalQueued` whether the call of `dispose` is in the microtask queue. -/
structure Generation where
  inFlight : Nat
  pendingFetches : Nat
  activeBodyReads : Nat
  lastActivityAt : Int
  retired : Bool
  disposalStarted : Bool
  retirementDeadlineAt : Int
  retirementTimer : Bool
  listed : Bool
  requests : List Request
  disposalQueued : Bool
  disposals : Nat
  forced : Bool
  deriving DecidableEq

structure Options where
  retirementDrainTimeoutMs : Int
  retirementFinalTimeoutMs : Int

variable (options : Options)

/-! ## Disposal -/

def scheduleRetirementCheck (g : Generation) : Generation :=
  if g.disposalStarted || g.retirementTimer then g else { g with retirementTimer := true }

def startDisposal (g : Generation) : Generation :=
  if g.disposalStarted then g
  else
    { g with
      disposalStarted := true
      retirementTimer := false
      disposalQueued := true }

def retire (g : Generation) (now : Int) : Generation :=
  if g.retired then g
  else
    let g :=
      { g with
        retired := true
        listed := true
        retirementDeadlineAt := now + options.retirementFinalTimeoutMs }
    if g.inFlight = 0 then startDisposal g else scheduleRetirementCheck g

def checkRetirement (g : Generation) (now : Int) : Generation :=
  if g.disposalStarted then g
  else if g.inFlight = 0 then startDisposal g
  else if g.retirementDeadlineAt ≤ now then startDisposal g
  else if 0 < g.pendingFetches ∨ 0 < g.activeBodyReads then scheduleRetirementCheck g
  else if now - g.lastActivityAt < options.retirementDrainTimeoutMs then scheduleRetirementCheck g
  else startDisposal g

/-- The microtask that calls `dispose`. -/
def dispose (g : Generation) : Generation :=
  if g.disposalQueued then
    { g with
      disposalQueued := false
      disposals := g.disposals + 1 }
  else g

/-- The timer fires.  There is no other microtask then, so `dispose` comes next. -/
def tick (g : Generation) (now : Int) : Generation :=
  if g.retirementTimer then dispose (checkRetirement options { g with retirementTimer := false } now)
  else g

/-- `drainRetired` with `force`. -/
def force (g : Generation) : Generation :=
  if g.listed then startDisposal { g with forced := true } else g

/-- The disposal has settled, or took too long. -/
def settleDisposal (g : Generation) : Generation :=
  if g.disposalStarted then { g with listed := false } else g

/-! ## Requests -/

/-- A response without a body, with one that is read through `responseWithTrackedBody`, or one
that cannot be reconstructed. -/
inductive Body
  | none
  | tracked
  | untracked

inductive ReadResult
  | chunk
  | done
  | error

/-- What happens to a request next. -/
inductive Progress
  | responds (body : Body)
  | fails
  | pull
  | settles (result : ReadResult)
  | cancel

/-- `executeBuiltIn`, up to its `await`. -/
def executeBuiltIn (g : Generation) : Generation :=
  { g with
    inFlight := g.inFlight + 1
    pendingFetches := g.pendingFetches + 1
    requests := g.requests ++ [⟨.fetching, false, 0⟩] }

def release (g : Generation) (r : Request) : Generation × Request :=
  if r.released then (g, r)
  else
    let g := { g with inFlight := g.inFlight - 1 }
    (if g.retired ∧ g.inFlight = 0 then startDisposal g else g,
      { r with
        released := true
        releases := r.releases + 1 })

def beginRead (g : Generation) (now : Int) : Generation :=
  { g with
    activeBodyReads := g.activeBodyReads + 1
    lastActivityAt := now }

def endRead (g : Generation) (now : Int) : Generation :=
  { g with
    activeBodyReads := g.activeBodyReads - 1
    lastActivityAt := now }

/-- A request and its generation after what happens next, where that can happen. -/
def progress (g : Generation) (r : Request) (p : Progress) (now : Int) : Generation × Request :=
  match r.stage, p with
  | .fetching, .responds body =>
    let g :=
      { g with
        pendingFetches := g.pendingFetches - 1
        lastActivityAt := now }
    match body with
    | .tracked => (g, { r with stage := .idle })
    | .none | .untracked =>
      let (g, r) := release g r
      (g, { r with stage := .ended })
  | .fetching, .fails =>
    let (g, r) := release { g with pendingFetches := g.pendingFetches - 1 } r
    (g, { r with stage := .ended })
  | .idle, .pull => (beginRead g now, { r with stage := .reading })
  | .idle, .cancel =>
    let (g, r) := release g r
    (g, { r with stage := .ended })
  | .reading, .cancel =>
    let (g, r) := release g r
    (g, { r with stage := .cancelled })
  | .reading, .settles .chunk => (endRead g now, { r with stage := .idle })
  -- A chunk that comes after the cancellation is refused by the closed stream.
  | .reading, .settles _ | .cancelled, .settles _ =>
    let (g, r) := release g r
    (endRead g now, { r with stage := .ended })
  | _, _ => (g, r)

def advance (g : Generation) (i : Nat) (p : Progress) (now : Int) : Generation :=
  match g.requests[i]? with
  | none => g
  | some r =>
    let (g, r) := progress g r p now
    { g with requests := g.requests.set i r }

/-! ## The coordinator -/

/-- All generations there have been, and the one that is the route. -/
structure Coordinator where
  generations : List Generation
  route : Option Nat

def Coordinator.initial : Coordinator := ⟨[], none⟩

def modify (s : Coordinator) (i : Nat) (f : Generation → Generation) : Coordinator :=
  { s with generations := s.generations.modify i f }

def publish (s : Coordinator) (next : Option Nat) (now : Int) : Coordinator :=
  match s.route with
  | some previous => modify { s with route := next } previous fun g => retire options g now
  | none => { s with route := next }

/-- `activate`, for an activation that is valid. -/
def activate (s : Coordinator) (now : Int) : Coordinator :=
  let next : Generation :=
    { inFlight := 0
      pendingFetches := 0
      activeBodyReads := 0
      lastActivityAt := now
      retired := false
      disposalStarted := false
      retirementDeadlineAt := 0
      retirementTimer := false
      listed := false
      requests := []
      disposalQueued := false
      disposals := 0
      forced := false }
  publish options { s with generations := s.generations ++ [next] } (some s.generations.length) now

/-- `leave` is `failClosed` or `completeDisable`; `invoke` is a request, or a warm round's, that
takes the built-in route. -/
inductive Event
  | activate (now : Int)
  | leave (now : Int)
  | invoke
  | advance (generation request : Nat) (p : Progress) (now : Int)
  | tick (generation : Nat) (now : Int)
  | dispose (generation : Nat)
  | settleDisposal (generation : Nat)
  | drainRetired

def step (s : Coordinator) : Event → Coordinator
  | .activate now => activate options s now
  | .leave now => publish options s none now
  | .invoke =>
    match s.route with
    | some current => modify s current executeBuiltIn
    | none => s
  | .advance generation request p now => modify s generation fun g => advance g request p now
  | .tick generation now => modify s generation fun g => tick options g now
  | .dispose generation => modify s generation dispose
  | .settleDisposal generation => modify s generation settleDisposal
  | .drainRetired => { s with generations := s.generations.map force }

end StonePlus.Proxy.Retirement
