import StonePlus.Js.Str
import StonePlus.Lib.Run
import Mathlib.Logic.Function.Basic

/-!
# StonePlus.Proxy.RouteCoordinator

`BuiltInProxyRouteCoordinator` of `proxy/built-in/route-coordinator.ts`: the
pointer to the route of all requests, the generations of the built-in route and
the requests they execute.

An operation that throws leaves the coordinator as it is.  Parsed URLs are
given: `none` is a text that is no URL.
-/

namespace StonePlus.Proxy.Coordination

structure Url where
  protocol : JsString
  hostname : JsString
  port : Option Nat
  username : JsString
  password : JsString
  deriving DecidableEq

inductive BuiltInRouteKind
  | mixed
  | tun
  deriving DecidableEq

inductive RouteStatus
  | disabled
  | starting
  | ready
  | stopping
  | error
  deriving DecidableEq

/-! ## Errors -/

structure RouteError where
  category : JsString
  message : JsString
  retryable : Bool
  deriving DecidableEq

/-- What an operation is told of an error. -/
inductive ReportedError
  | text (message : JsString)
  | error (code : Option JsString) (message : JsString)
  | failure (category message : JsString) (retryable : Bool)

def builtInErrorCategories : List JsString :=
  [js "core-missing", js "core-integrity", js "configuration-invalid", js "node-handshake",
    js "mixed-port", js "tun-elevation", js "subscription-update", js "system-proxy",
    js "health-check", js "core-crashed"]

def builtInErrorCategory (value : JsString) : JsString :=
  let normalized := (toLowerCase value).map fun c => if c = 0x5F then 0x2D else c
  if normalized ∈ builtInErrorCategories then normalized else js "unknown"

def normalizeRouteError : ReportedError → RouteError
  | .text message => ⟨js "unknown", message, true⟩
  | .error code message =>
    ⟨(code.map builtInErrorCategory).getD (js "unknown"), message, true⟩
  | .failure category message retryable => ⟨builtInErrorCategory category, message, retryable⟩

/-! ## Routes -/

/-- What is shown of a route, apart from its generation and kind. -/
structure RouteMetadata where
  profileId : Option JsString
  nodeId : Option JsString
  mixedPort : Option Nat
  activatedAt : Option Int
  deriving DecidableEq

/-- A generation of the built-in route. -/
structure BuiltInGeneration where
  kind : BuiltInRouteKind
  metadata : RouteMetadata
  directLoopbackPorts : List Nat
  inFlight : Nat
  pendingFetches : Nat
  activeBodyReads : Nat
  lastActivityAt : Int
  retired : Bool
  disposalStarted : Bool
  retirementDeadlineAt : Int

inductive Route
  | external (generation : Nat)
  | builtIn (generation : Nat)
  | blocked (generation : Nat) (error : RouteError) (metadata : RouteMetadata)
      (directLoopbackPorts : List Nat)

/-- Who executes a request. -/
inductive Executor
  | loopback
  | external
  | builtIn (generation : Nat)
  deriving DecidableEq

inductive RequestStage
  | fetching
  | body (reading : Bool)
  | over
  deriving DecidableEq

/-- A request that has been handed over. -/
structure Running where
  target : Option Url
  executor : Executor
  stage : RequestStage

inductive Rebuild
  | scheduled
  | retrying
  | refreshing
  | warming

structure Coordinator where
  nextGeneration : Nat
  route : Route
  generations : Nat → Option BuiltInGeneration
  desiredEnabled : Bool
  status : RouteStatus
  hasActivated : Bool
  error : Option RouteError
  permanentDirectLoopbackPorts : List Nat
  pendingRebuildOrigins : List Url
  rebuildFlight : Option Rebuild
  closed : Bool
  requests : List Running

/-- The options, and `isLoopbackHostname`. -/
structure CoordinatorOptions where
  isLoopbackHostname : JsString → Bool
  /-- Whether there is a retry handler. -/
  retry : Bool
  retirementDrainTimeoutMs : Int
  retirementFinalTimeoutMs : Int

def Coordinator.initial : Coordinator where
  nextGeneration := 1
  route := .external 0
  generations _ := none
  desiredEnabled := false
  status := .disabled
  hasActivated := false
  error := none
  permanentDirectLoopbackPorts := []
  pendingRebuildOrigins := []
  rebuildFlight := none
  closed := false
  requests := []

variable (options : CoordinatorOptions)

/-! ## Retirement -/

def modifyGeneration (s : Coordinator) (generation : Nat)
    (f : BuiltInGeneration → BuiltInGeneration) : Coordinator :=
  { s with
    generations := Function.update s.generations generation ((s.generations generation).map f) }

def startDisposal (s : Coordinator) (generation : Nat) : Coordinator :=
  modifyGeneration s generation fun g => { g with disposalStarted := true }

/-- Disposal starts once nothing is in flight. -/
def disposeIdle (s : Coordinator) (generation : Nat) : Coordinator :=
  match s.generations generation with
  | some g => if g.retired ∧ g.inFlight = 0 then startDisposal s generation else s
  | none => s

def retire (s : Coordinator) (generation : Nat) (now : Int) : Coordinator :=
  match s.generations generation with
  | some g =>
    if g.retired then s
    else
      disposeIdle
        (modifyGeneration s generation fun g =>
          { g with
            retired := true
            retirementDeadlineAt := now + options.retirementFinalTimeoutMs })
        generation
  | none => s

/-- The timer of a generation that is retired. -/
def checkRetirement (s : Coordinator) (generation : Nat) (now : Int) : Coordinator :=
  match s.generations generation with
  | some g =>
    if !g.retired ∨ g.disposalStarted then s
    else if g.inFlight = 0 then startDisposal s generation
    else if g.retirementDeadlineAt ≤ now then startDisposal s generation
    else if 0 < g.pendingFetches ∨ 0 < g.activeBodyReads then s
    else if now - g.lastActivityAt < options.retirementDrainTimeoutMs then s
    else startDisposal s generation
  | none => s

def publish (s : Coordinator) (next : Route) (now : Int) : Coordinator :=
  match s.route with
  | .builtIn generation => retire options { s with route := next } generation now
  | _ => { s with route := next }

/-! ## Operations -/

def assertOpen (s : Coordinator) : Option Unit := if s.closed then none else some ()

/-- `requestEnable`, and `markStarting`. -/
def requestEnable (s : Coordinator) : Option Coordinator := do
  assertOpen s
  return { s with
    desiredEnabled := true
    status := .starting
    error := none }

def markStarting (s : Coordinator) : Option Coordinator := do
  assertOpen s
  return { s with
    desiredEnabled := true
    status := .starting
    error := none }

def restoreReady (s : Coordinator) : Option Coordinator := do
  assertOpen s
  match s.route with
  | .builtIn _ =>
    return { s with
      desiredEnabled := true
      status := .ready
      error := none }
  | _ => none

/-- What `activate` is given. -/
structure Activation where
  mixedEndpoint : Option Url
  routeKind : Option BuiltInRouteKind
  profileId : Option JsString
  nodeId : Option JsString
  activatedAt : Option Int
  directLoopbackPorts : List Nat

def validateMixedEndpoint (endpoint : Option Url) : Option Nat := do
  let url ← endpoint
  let port ← url.port
  if url.protocol = js "http:" ∧ options.isLoopbackHostname url.hostname ∧ 1 ≤ port ∧ port ≤ 65535 ∧
      url.username = [] ∧ url.password = [] then
    return port
  else none

def validPorts (ports : List Nat) : List Nat := ports.filter fun port => 1 ≤ port ∧ port ≤ 65535

def activate (s : Coordinator) (activation : Activation) (now : Int) : Option Coordinator := do
  assertOpen s
  let mixedPort ← validateMixedEndpoint options activation.mixedEndpoint
  let generation := s.nextGeneration
  let next : BuiltInGeneration :=
    { kind := activation.routeKind.getD .mixed
      metadata :=
        { profileId := activation.profileId.filter (· ≠ [])
          nodeId := activation.nodeId.filter (· ≠ [])
          mixedPort := some mixedPort
          activatedAt := some (activation.activatedAt.getD now) }
      directLoopbackPorts := validPorts (mixedPort :: activation.directLoopbackPorts)
      inFlight := 0
      pendingFetches := 0
      activeBodyReads := 0
      lastActivityAt := now
      retired := false
      disposalStarted := false
      retirementDeadlineAt := 0 }
  let s :=
    { s with
      nextGeneration := generation + 1
      generations := Function.update s.generations generation (some next) }
  return { publish options s (.builtIn generation) now with
    desiredEnabled := true
    status := .ready
    hasActivated := true
    error := none }

def Coordinator.metadata (s : Coordinator) : RouteMetadata :=
  match s.route with
  | .external _ => ⟨none, none, none, none⟩
  | .builtIn generation => ((s.generations generation).map (·.metadata)).getD ⟨none, none, none, none⟩
  | .blocked _ _ metadata _ => metadata

/-- The loopback ports of the route itself. -/
def Coordinator.routePorts (s : Coordinator) : List Nat :=
  match s.route with
  | .external _ => []
  | .builtIn generation => ((s.generations generation).map (·.directLoopbackPorts)).getD []
  | .blocked _ _ _ directLoopbackPorts => directLoopbackPorts

def failClosed (s : Coordinator) (error : ReportedError) (now : Int) : Option Coordinator := do
  assertOpen s
  let failure := normalizeRouteError error
  let generation := s.nextGeneration
  let blocked := publish options { s with nextGeneration := generation + 1 }
    (.blocked generation failure s.metadata s.routePorts) now
  return { blocked with
    status := .error
    error := some failure }

def Route.isExternal : Route → Bool
  | .external _ => true
  | _ => false

def reportError (s : Coordinator) (error : ReportedError) (now : Int) : Option Coordinator :=
  if s.hasActivated ∨ !s.route.isExternal then failClosed options s error now
  else
    some { s with
      status := .error
      error := some (normalizeRouteError error) }

def beginDisable (s : Coordinator) : Option Coordinator := do
  assertOpen s
  return { s with
    desiredEnabled := false
    error := none
    status := if s.route.isExternal then .disabled else .stopping }

def disableFailed (s : Coordinator) (error : ReportedError) : Option Coordinator := do
  assertOpen s
  return { s with
    desiredEnabled := false
    status := .error
    error := some (normalizeRouteError error) }

def completeDisable (s : Coordinator) (now : Int) : Option Coordinator := do
  assertOpen s
  let s :=
    { s with
      desiredEnabled := false
      status := .disabled
      error := none }
  let s :=
    if s.route.isExternal then s
    else publish options { s with nextGeneration := s.nextGeneration + 1 } (.external s.nextGeneration) now
  return { s with hasActivated := false }

def addDirectLoopbackPorts (s : Coordinator) (ports : List Nat) : Coordinator :=
  { s with permanentDirectLoopbackPorts := s.permanentDirectLoopbackPorts ++ validPorts ports }

def setDirectLoopbackPorts (s : Coordinator) (ports : List Nat) : Coordinator :=
  addDirectLoopbackPorts { s with permanentDirectLoopbackPorts := [] } ports

/-! ## Requests -/

/-- The port of a local target, where a URL without one has that of its protocol. -/
def localPort (target : Option Url) : Option Nat := do
  let url ← target
  if options.isLoopbackHostname url.hostname then
    return url.port.getD (if url.protocol = js "https:" then 443 else 80)
  else none

def shouldDirectLoopback (s : Coordinator) (target : Option Url) : Bool :=
  (localPort options target).any fun port =>
    s.permanentDirectLoopbackPorts.contains port || s.routePorts.contains port

/-- The facade that `bind` returns; `none` if it throws. -/
def dispatch (s : Coordinator) (target : Option Url) : Option Executor :=
  if s.closed then none
  else if shouldDirectLoopback options s target then some .loopback
  else
    match s.route with
    | .external _ => some .external
    | .blocked _ _ _ _ => none
    | .builtIn generation => some (.builtIn generation)

/-- A request is handed to its executor, which counts it. -/
def execute (s : Coordinator) (target : Option Url) (executor : Executor) : Coordinator :=
  let s := { s with requests := s.requests ++ [⟨target, executor, .fetching⟩] }
  match executor with
  | .builtIn generation =>
    modifyGeneration s generation fun g =>
      { g with
        inFlight := g.inFlight + 1
        pendingFetches := g.pendingFetches + 1 }
  | .loopback | .external => s

def fetch (s : Coordinator) (target : Option Url) : Coordinator :=
  match dispatch options s target with
  | some executor => execute s target executor
  | none => s

def setRequest (s : Coordinator) (index : Nat) (stage : RequestStage) : Coordinator :=
  { s with requests := s.requests.modify index fun request => { request with stage } }

/-- A request is not in flight any more. -/
def release (s : Coordinator) (executor : Executor) : Coordinator :=
  match executor with
  | .builtIn generation =>
    disposeIdle (modifyGeneration s generation fun g => { g with inFlight := g.inFlight - 1 }) generation
  | .loopback | .external => s

/-- A counter of the generation that executes a request changes. -/
def touch (s : Coordinator) (executor : Executor) (f : BuiltInGeneration → BuiltInGeneration) :
    Coordinator :=
  match executor with
  | .builtIn generation => modifyGeneration s generation f
  | .loopback | .external => s

/-- What happens to a request next. -/
inductive Progress
  | responds (hasBody : Bool)
  | fails
  | read
  | chunk
  | bodyEnds
  | cancel

def advance (s : Coordinator) (index : Nat) (progress : Progress) (now : Int) : Coordinator :=
  match s.requests[index]? with
  | none => s
  | some request =>
    let settled (g : BuiltInGeneration) : BuiltInGeneration :=
      { g with
        pendingFetches := g.pendingFetches - 1
        lastActivityAt := now }
    let ended (g : BuiltInGeneration) : BuiltInGeneration :=
      { g with
        activeBodyReads := g.activeBodyReads - 1
        lastActivityAt := now }
    match request.stage, progress with
    | .fetching, .responds true =>
      setRequest (touch s request.executor settled) index (.body false)
    | .fetching, .responds false =>
      setRequest (release (touch s request.executor settled) request.executor) index .over
    | .fetching, .fails =>
      let unsettled (g : BuiltInGeneration) : BuiltInGeneration :=
        { g with pendingFetches := g.pendingFetches - 1 }
      setRequest (release (touch s request.executor unsettled) request.executor) index .over
    | .body false, .read =>
      let reading (g : BuiltInGeneration) : BuiltInGeneration :=
        { g with
          activeBodyReads := g.activeBodyReads + 1
          lastActivityAt := now }
      setRequest (touch s request.executor reading) index (.body true)
    | .body true, .chunk => setRequest (touch s request.executor ended) index (.body false)
    | .body true, .bodyEnds =>
      setRequest (touch (release s request.executor) request.executor ended) index .over
    | .body _, .cancel => setRequest (release s request.executor) index .over
    | _, _ => s

/-! ## Rebuilding -/

/-- `normalizeWarmTargets`, apart from the form of the targets. -/
def normalizeWarmTargets (origins : List (Option Url)) : List Url :=
  (origins.filterMap id).filter fun url => !options.isLoopbackHostname url.hostname

def rebuild (s : Coordinator) (origins : List (Option Url)) : Option Coordinator := do
  assertOpen s
  return { s with
    pendingRebuildOrigins := (s.pendingRebuildOrigins ++ normalizeWarmTargets options origins).dedup
    rebuildFlight := s.rebuildFlight.or (some .scheduled) }

/-- The rebuild is over. -/
def endRebuild (s : Coordinator) : Coordinator := { s with rebuildFlight := none }

/-- `warmTarget`: only the built-in route is warmed. -/
def warmTarget (s : Coordinator) (target : Url) : Coordinator :=
  match s.route with
  | .builtIn generation => execute s (some target) (.builtIn generation)
  | _ => s

/-- The targets that have accumulated are warmed, or the rebuild is over. -/
def warmPending (s : Coordinator) : Coordinator :=
  if s.pendingRebuildOrigins.isEmpty then endRebuild s
  else
    let warmed := s.pendingRebuildOrigins.foldl warmTarget { s with pendingRebuildOrigins := [] }
    match s.route with
    | .builtIn _ => { warmed with rebuildFlight := some .warming }
    | _ => endRebuild warmed

/-- The route that is to be refreshed, once it is not blocked any more. -/
def refreshRoute (s : Coordinator) : Coordinator :=
  match s.route with
  | .builtIn _ => { s with rebuildFlight := some .refreshing }
  | _ => endRebuild s

/-- `runRebuild` goes on; `succeeds` is how the call it awaits has settled. -/
def runRebuild (s : Coordinator) (succeeds : Bool) : Coordinator :=
  match s.rebuildFlight with
  | none => s
  | some .scheduled =>
    match s.route with
    | .blocked _ _ _ _ =>
      if options.retry then { s with rebuildFlight := some .retrying } else endRebuild s
    | _ => refreshRoute s
  | some .retrying => if succeeds then refreshRoute s else endRebuild s
  | some .refreshing => if succeeds then warmPending s else endRebuild s
  | some .warming => if succeeds then warmPending s else endRebuild s

/-- `close`, whose last part comes when the rebuild has settled or taken too long. -/
def close (s : Coordinator) : Coordinator :=
  { s with
    closed := true
    pendingRebuildOrigins := [] }

def finishClose (s : Coordinator) (now : Int) : Coordinator :=
  if !s.closed then s
  else
    match s.route with
    | .builtIn generation => retire options s generation now
    | _ => s

/-! ## Steps -/

inductive Event
  | requestEnable
  | markStarting
  | restoreReady
  | activate (activation : Activation) (now : Int)
  | reportError (error : ReportedError) (now : Int)
  | failClosed (error : ReportedError) (now : Int)
  | beginDisable
  | disableFailed (error : ReportedError)
  | completeDisable (now : Int)
  | addDirectLoopbackPorts (ports : List Nat)
  | setDirectLoopbackPorts (ports : List Nat)
  | fetch (target : Option Url)
  | advance (index : Nat) (progress : Progress) (now : Int)
  | checkRetirement (generation : Nat) (now : Int)
  | forceDisposal (generation : Nat)
  | rebuild (origins : List (Option Url))
  | runRebuild (succeeds : Bool)
  | close
  | finishClose (now : Int)

def step (s : Coordinator) : Event → Coordinator
  | .requestEnable => (requestEnable s).getD s
  | .markStarting => (markStarting s).getD s
  | .restoreReady => (restoreReady s).getD s
  | .activate activation now => (activate options s activation now).getD s
  | .reportError error now => (reportError options s error now).getD s
  | .failClosed error now => (failClosed options s error now).getD s
  | .beginDisable => (beginDisable s).getD s
  | .disableFailed error => (disableFailed s error).getD s
  | .completeDisable now => (completeDisable options s now).getD s
  | .addDirectLoopbackPorts ports => addDirectLoopbackPorts s ports
  | .setDirectLoopbackPorts ports => setDirectLoopbackPorts s ports
  | .fetch target => fetch options s target
  | .advance index progress now => advance s index progress now
  | .checkRetirement generation now => checkRetirement options s generation now
  | .forceDisposal generation => startDisposal s generation
  | .rebuild origins => (rebuild options s origins).getD s
  | .runRebuild succeeds => runRebuild options s succeeds
  | .close => close s
  | .finishClose now => finishClose options s now

end StonePlus.Proxy.Coordination
