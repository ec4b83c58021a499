import StonePlus.Js.Str
import StonePlus.Lib.Run

/-!
# StonePlus.Proxy.SystemProxyLease

`SystemProxyLease` of `proxy/built-in/system-proxy-lease.ts`: the operations
that take over the system's proxy settings and give them back, one after
another, over an adapter and a journal that may fail at any call.

Every call that is awaited is one step: it settles as the environment likes.
The process may die between any two steps; the journal and the system's
settings stay.
-/

namespace StonePlus.Proxy

inductive LeaseStatus
  | idle
  | recovering
  | acquiring
  | active
  | releasing
  | error
  deriving DecidableEq

inductive LeaseErrorCode
  | invalidMixedEndpoint
  | leaseAlreadyActive
  | snapshotFailed
  | journalFailed
  | applyFailed
  | restoreFailed
  deriving DecidableEq

/-- What is compared of a `NormalizedSystemProxyLeaseTarget`. -/
structure LeaseTarget where
  proxyUrl : JsString
  bypassRules : List JsString
  deriving DecidableEq

/-- `SystemProxyLeaseRecoveryRecord`; `N` are the snapshots of native settings. -/
structure RecoveryRecord (N : Type) where
  leaseId : JsString
  createdAt : Int
  mixedProxyUrl : JsString
  original : N
  applied : N
  deriving DecidableEq

inductive CompareResult
  | applied
  | partially
  | mismatch
  deriving DecidableEq

/-- An operation of the lease; a target is missing when it cannot be normalized. -/
inductive Operation
  | acquire (target : Option LeaseTarget)
  | release
  | recoverStaleLease
  | verifyActive (target : Option LeaseTarget) (expectedLeaseId : JsString)
  | verifyFromMonitor (leaseId : JsString) (epoch : Nat)

/-- What follows when a record has been looked for or restored. -/
inductive Continuation
  | acquiring (target : LeaseTarget)
  | releasing
  | recovering

/-- The call that the running operation awaits. -/
inductive Awaiting (N : Type)
  | load (next : Continuation)
  | compareAndApplySnapshot (record : RecoveryRecord N) (next : Continuation)
  | clear (record : RecoveryRecord N) (result : CompareResult) (next : Continuation)
  | captureSnapshot (target : LeaseTarget)
  | createMixedProxySnapshot (target : LeaseTarget) (original : N)
  | save (record : RecoveryRecord N)
  | applySnapshot (record : RecoveryRecord N)
  | confirmApplied (record : RecoveryRecord N)
  | verifyApplied (record : RecoveryRecord N)
  | monitorApplied (record : RecoveryRecord N) (leaseId : JsString) (epoch : Nat)

/-- The fields of a `SystemProxyLease`, and the operations that wait in its queue. -/
structure Process (N : Type) where
  status : LeaseStatus
  target : Option LeaseTarget
  record : Option (RecoveryRecord N)
  lastError : Option LeaseErrorCode
  activeLeaseMonitor : Option (JsString × Nat)
  activeLeaseMonitorEpoch : Nat
  queue : List Operation
  awaiting : Option (Awaiting N)

structure System (N : Type) where
  process : Process N
  journal : Option (RecoveryRecord N)
  /-- The leases that `applySnapshot` has been called for, until they are restored. -/
  outstanding : List (RecoveryRecord N)
  lastJournaled : Option (RecoveryRecord N)
  lastCaptured : Option N

/-- How a call settles. -/
inductive Reply (N : Type)
  | loaded
  | compared (result : CompareResult)
  | cleared
  | snapshot (settings : N)
  /-- The snapshot to apply, with what a new record is given. -/
  | mixed (settings : N) (leaseId : JsString) (createdAt : Int)
  | saved
  | done
  | verdict (applied : Bool)
  /-- The call fails; a write to the journal may have been made nevertheless. -/
  | failed (written : Bool)

variable {N : Type}

def Process.fresh : Process N where
  status := .idle
  target := none
  record := none
  lastError := none
  activeLeaseMonitor := none
  activeLeaseMonitorEpoch := 0
  queue := []
  awaiting := none

/-! ## Parts of the operations -/

def stopActiveLeaseMonitor (p : Process N) : Process N :=
  { p with
    activeLeaseMonitorEpoch := p.activeLeaseMonitorEpoch + 1
    activeLeaseMonitor := none }

def finishIdle (p : Process N) : Process N :=
  { stopActiveLeaseMonitor p with
    status := .idle
    target := none
    record := none
    lastError := none
    awaiting := none }

/-- The operation throws what `fail` makes. -/
def fail (p : Process N) (code : LeaseErrorCode) : Process N :=
  { stopActiveLeaseMonitor p with
    status := .error
    lastError := some code
    awaiting := none }

/-- The operation ends. -/
def finish (p : Process N) : Process N := { p with awaiting := none }

def await (p : Process N) (awaiting : Awaiting N) : Process N := { p with awaiting := some awaiting }

/-- `restoreRecord`, up to its first call. -/
def restoreRecord (p : Process N) (record : RecoveryRecord N) (next : Continuation) : Process N :=
  await
    { p with
      status := match next with
        | .releasing => .releasing
        | .acquiring _ | .recovering => .recovering
      lastError := none }
    (.compareAndApplySnapshot record next)

/-- A record has been found, in memory or in the journal. -/
def restoreFound (p : Process N) (record : RecoveryRecord N) (next : Continuation) : Process N :=
  let p := match next with
    | .acquiring _ => stopActiveLeaseMonitor p
    | .releasing | .recovering => p
  restoreRecord { p with record := some record } record next

/-- An acquisition begins, with no lease before it. -/
def startAcquiring (p : Process N) (target : LeaseTarget) : Process N :=
  await
    { p with
      status := .acquiring
      target := some target
      lastError := none }
    (.captureSnapshot target)

/-- No record has been found. -/
def withoutRecord (p : Process N) : Continuation → Process N
  | .acquiring target => startAcquiring p target
  | .releasing | .recovering => finishIdle p

/-- The end of `restoreRecord`. -/
def restored (p : Process N) : Continuation → Process N
  | .acquiring target => startAcquiring (finishIdle p) target
  | .releasing | .recovering => finishIdle p

/-- `this.record ?? await this.loadRecoveryRecord()`, and what follows. -/
def findRecord (p : Process N) (next : Continuation) : Process N :=
  match p.record with
  | some record => restoreFound p record next
  | none => await p (.load next)

/-- `isSnapshotApplied` is there or not. -/
def verifyActiveExclusive (verifies : Bool) (p : Process N) (target : LeaseTarget)
    (expectedLeaseId : Option JsString) : Process N :=
  match p.record with
  | none => fail p .applyFailed
  | some record =>
    if p.status ≠ .active ∨ p.target ≠ some target ∨
        (expectedLeaseId.any fun leaseId => record.leaseId ≠ leaseId) = true then
      fail p .applyFailed
    else if verifies then await p (.verifyApplied record)
    else finish p

def startActiveLeaseMonitor (verifies : Bool) (p : Process N) (leaseId : JsString) : Process N :=
  if !verifies ∨ p.status ≠ .active then p
  else
    let p := stopActiveLeaseMonitor p
    { p with activeLeaseMonitor := some (leaseId, p.activeLeaseMonitorEpoch) }

def monitorStillOwnsLease (p : Process N) (leaseId : JsString) (epoch : Nat) : Bool :=
  p.activeLeaseMonitorEpoch = epoch && p.status = .active &&
    p.record.any fun record => record.leaseId = leaseId

/-! ## Steps of the operations -/

/-- An operation runs up to its first call. -/
def start (verifies : Bool) (p : Process N) : Operation → Process N
  | .acquire none => finish p
  | .acquire (some target) =>
    if p.status = .active ∧ p.record.isSome then
      if p.target = some target then verifyActiveExclusive verifies p target none
      else fail p .leaseAlreadyActive
    else findRecord p (.acquiring target)
  | .release => findRecord p .releasing
  | .recoverStaleLease =>
    if p.status = .active then fail p .leaseAlreadyActive
    else findRecord (stopActiveLeaseMonitor p) .recovering
  | .verifyActive none _ => finish p
  | .verifyActive (some target) expectedLeaseId =>
    verifyActiveExclusive verifies p target (some expectedLeaseId)
  | .verifyFromMonitor leaseId epoch =>
    match p.record with
    | some record =>
      if monitorStillOwnsLease p leaseId epoch ∧ verifies then
        await p (.monitorApplied record leaseId epoch)
      else finish p
    | none => finish p

/-- The first operation of the queue starts. -/
def startNext (verifies : Bool) (s : System N) : System N :=
  match s.process.awaiting, s.process.queue with
  | none, operation :: queue =>
    { s with process := start verifies { s.process with queue } operation }
  | _, _ => s

def withProcess (s : System N) (f : Process N → Process N) : System N :=
  { s with process := f s.process }

/-- The call that is awaited settles. -/
def settle [DecidableEq N] (verifies : Bool) (s : System N) (awaiting : Awaiting N)
    (reply : Reply N) : System N :=
  match awaiting, reply with
  | .load next, .loaded =>
    match s.journal with
    | some record => withProcess s (restoreFound · record next)
    | none => withProcess s (withoutRecord · next)
  | .load _, _ => withProcess s (fail · .journalFailed)
  | .compareAndApplySnapshot record next, .compared result =>
    { withProcess s (await · (.clear record result next)) with
      outstanding := s.outstanding.filter (· ≠ record) }
  | .compareAndApplySnapshot _ _, _ => withProcess s (fail · .restoreFailed)
  | .clear _ _ next, .cleared =>
    { withProcess s (restored · next) with journal := none }
  | .clear _ _ _, .failed written =>
    { withProcess s (fail · .restoreFailed) with journal := if written then none else s.journal }
  | .clear _ _ _, _ => withProcess s (fail · .restoreFailed)
  | .captureSnapshot target, .snapshot original =>
    { withProcess s (await · (.createMixedProxySnapshot target original)) with
      lastCaptured := some original }
  | .captureSnapshot _, _ => withProcess s (fail · .snapshotFailed)
  | .createMixedProxySnapshot target original, .mixed applied leaseId createdAt =>
    withProcess s (await · (.save ⟨leaseId, createdAt, target.proxyUrl, original, applied⟩))
  | .createMixedProxySnapshot _ _, _ => withProcess s (fail · .snapshotFailed)
  | .save record, .saved =>
    if s.journal.isSome then withProcess s (fail · .journalFailed)
    else
      -- The adapter is called at once.
      { withProcess s fun p => await { p with record := some record } (.applySnapshot record) with
        journal := some record
        lastJournaled := some record
        outstanding := record :: s.outstanding }
  | .save record, .failed written =>
    if s.journal.isNone ∧ written then
      { withProcess s (fail · .journalFailed) with
        journal := some record
        lastJournaled := some record }
    else withProcess s (fail · .journalFailed)
  | .save _, _ => withProcess s (fail · .journalFailed)
  | .applySnapshot record, .done =>
    if verifies then withProcess s (await · (.confirmApplied record))
    else withProcess s fun p => finish { p with status := .active }
  | .applySnapshot _, _ => withProcess s (fail · .applyFailed)
  | .confirmApplied _, .verdict true => withProcess s fun p => finish { p with status := .active }
  | .confirmApplied _, _ => withProcess s (fail · .applyFailed)
  | .verifyApplied _, .verdict true => withProcess s finish
  | .verifyApplied _, _ => withProcess s (fail · .applyFailed)
  | .monitorApplied _ leaseId epoch, reply =>
    if !monitorStillOwnsLease s.process leaseId epoch then withProcess s finish
    else
      match reply with
      | .verdict true => withProcess s fun p => finish (startActiveLeaseMonitor verifies p leaseId)
      | _ => withProcess s (fail · .applyFailed)

/-! ## The system -/

inductive Event (N : Type)
  | call (operation : Operation)
  | startMonitoring
  | monitorFires
  | startNext
  | settle (reply : Reply N)
  /-- The process dies and is started again. -/
  | crash

/-- An operation is called; a release stops the monitor at once. -/
def call (p : Process N) (operation : Operation) : Process N :=
  let p := match operation with
    | .release => stopActiveLeaseMonitor p
    | _ => p
  { p with queue := p.queue ++ [operation] }

def startMonitoring (verifies : Bool) (p : Process N) : Process N :=
  match p.record with
  | some record => startActiveLeaseMonitor verifies p record.leaseId
  | none => p

def monitorFires (p : Process N) : Process N :=
  match p.activeLeaseMonitor with
  | some (leaseId, epoch) =>
    call { p with activeLeaseMonitor := none } (.verifyFromMonitor leaseId epoch)
  | none => p

def step [DecidableEq N] (verifies : Bool) (s : System N) : Event N → System N
  | .call operation => withProcess s (call · operation)
  | .startMonitoring => withProcess s (startMonitoring verifies)
  | .monitorFires => withProcess s monitorFires
  | .startNext => startNext verifies s
  | .settle reply =>
    match s.process.awaiting with
    | some awaiting => settle verifies s awaiting reply
    | none => s
  | .crash => { s with process := .fresh }

/-- No journal, and no lease has ever been taken. -/
def System.initial : System N where
  process := .fresh
  journal := none
  outstanding := []
  lastJournaled := none
  lastCaptured := none

end StonePlus.Proxy
