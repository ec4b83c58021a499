import StonePlus.Lib.Run
import StonePlus.Scheduler.Waiters

/-!
# StonePlus.Scheduler.System

The scheduler together with its callers: the permits that have been granted,
each with the state of its release closure, and the abort signals that have
fired.  `Op` lists what a caller, a timer or a signal can do; a run is any
list of operations, so permits may be released in any order and any number
of times.

Every permit records two facts about the moment it was granted that no code
reads: the limit in force, and how many unreleased permits of the current
generation the account had.  `clear()` starts a new generation of permits.
-/

namespace StonePlus.Scheduler

/-- A granted permit: what its release closure captures, the health revision
and reset epoch handed out with it (a hedge gets none), whether it was
released, and the circumstances of the grant. -/
structure Permit where
  account : Account
  stickyKey : Option JsString
  snapshot : Option (Nat × Nat)
  released : Bool
  limit : Int
  held : Nat
  deriving DecidableEq

/-- An unreleased permit for the account. -/
def Permit.isLiveOn (accountId : JsString) (permit : Permit) : Bool :=
  !permit.released && decide (permit.account.id = accountId)

/-- An unreleased permit for the account, held by the session. -/
def Permit.isLiveFor (stickyKey accountId : JsString) (permit : Permit) : Bool :=
  permit.isLiveOn accountId && decide (permit.stickyKey = some stickyKey)

/-- How a queued request ended: with the permit of the given index, or with an
error. -/
inductive Settlement
  | resolved (permit : Nat)
  | rejected (error : SchedulerError)
  deriving DecidableEq

structure System where
  scheduler : PoolScheduler
  /-- Every permit ever granted, oldest first. -/
  permits : List Permit
  /-- The number of permits granted before the last `clear()`. -/
  cleared : Nat
  abortedSignals : List Nat
  settled : List (Nat × Settlement)

namespace System

def init (options : PoolSchedulerOptions) : System :=
  { scheduler := PoolScheduler.init options, permits := [], cleared := 0
    abortedSignals := [], settled := [] }

/-- The permits granted since the last `clear()`. -/
def current (y : System) : List Permit := y.permits.drop y.cleared

/-- The unreleased permits of the current generation for an account. -/
def held (y : System) (accountId : JsString) : Nat :=
  y.current.countP (Permit.isLiveOn accountId)

/-- A permit granted by the scheduler, which took the slot already. -/
def grant (y : System) (account : Account) (stickyKey : Option JsString)
    (snapshot : Option (Nat × Nat)) (adaptive : Bool) (scheduler : PoolScheduler) : System :=
  { y with
    scheduler := scheduler
    permits := y.permits ++
      [{ account := account, stickyKey := stickyKey, snapshot := snapshot, released := false
         limit := scheduler.concurrencyLimit account adaptive
         held := y.held account.id }] }

/-- The permit of a selection. -/
def grantSelection (y : System) (selection : ScheduledSelection) (pool : Pool)
    (scheduler : PoolScheduler) : System :=
  y.grant selection.account selection.stickyKey
    (some (selection.healthRevision, selection.resetEpoch)) (isAdaptive pool) scheduler

/-- Settle the promises that a hand-off rejected and served. -/
def settle (y : System) (handoff : Handoff) : System :=
  let rejected := handoff.rejected.map fun r => (r.1, Settlement.rejected r.2)
  match handoff.served with
  | none => { y with scheduler := handoff.scheduler, settled := y.settled ++ rejected }
  | some (waiter, selection) =>
      let y := y.grantSelection selection waiter.input.pool handoff.scheduler
      { y with
        settled := y.settled ++ rejected ++ [(waiter.id, .resolved (y.permits.length - 1))] }

theorem scheduler_settle (y : System) (handoff : Handoff) :
    (y.settle handoff).scheduler = handoff.scheduler := by
  unfold settle
  split <;> rfl

/-- Record that the release closure of a permit has run. -/
def markReleased (y : System) (permit : Nat) (p : Permit) : System :=
  { y with permits := y.permits.set permit { p with released := true } }

/-- Call the release closure of a permit. -/
def release (env : Env) (y : System) (permit : Nat) (now : Millis) : System :=
  match y.permits[permit]? with
  | none => y
  | some p =>
      if p.released then y
      else (y.markReleased permit p).settle
        (y.scheduler.releasePermit env y.abortedSignals p.stickyKey p.account.id now)

/-- `abort` of a signal: every waiter that listens to it is rejected. -/
def abort (y : System) (signal : Nat) : System :=
  let listening := y.scheduler.capacityWaiters.values.filter fun waiter =>
    decide (waiter.signal = some signal)
  { y with
    abortedSignals := signal :: y.abortedSignals
    scheduler := listening.foldl
      (fun s waiter => s.rejectCapacityWaiter waiter.id) y.scheduler
    settled := y.settled ++
      listening.map fun waiter => (waiter.id, .rejected (.aborted signal)) }

/-- The deadline timer of a waiter. -/
def timeout (y : System) (waiterId : Nat) : System :=
  match y.scheduler.capacityWaiters.get? waiterId with
  | none => y
  | some waiter =>
      { y with
        scheduler := y.scheduler.rejectCapacityWaiter waiterId
        settled := y.settled ++
          [(waiterId, .rejected (.noEligibleAccount waiter.accountIds deadlineMessage))] }

def clear (y : System) : System :=
  { y with
    scheduler := y.scheduler.clear
    cleared := y.permits.length
    settled := y.settled ++ y.scheduler.capacityWaiters.values.map fun waiter =>
      (waiter.id, .rejected (.noEligibleAccount waiter.accountIds resetMessage)) }

end System

/-! ## Operations -/

/-- The operations on a scheduler, each with the value of its clock. -/
inductive Op
  | hydrate (accounts : List Account) (pools : Option (List Pool)) (now : Millis)
  | hydratePerformance (logs : List RequestLog) (now : Millis)
  | selectAndAcquire (input : SchedulerSelectionInput) (now : Millis)
  | selectAndAcquireWhenAvailable (input : SchedulerSelectionInput) (signal : Option Nat)
      (deadlineAt : Option Millis) (maxWaitMs : Int) (now : Millis)
  | tryAcquireAccount (account : Account) (pool : Pool) (now : Millis)
  | release (permit : Nat) (now : Millis)
  | abort (signal : Nat)
  | timeout (waiterId : Nat)
  | recordStickyFailure (poolId : JsString) (sessionId : Option JsString) (accountId : JsString)
      (now : Millis)
  | setCooldown (accountId : JsString) (untilAt : Millis)
      (expectedRevision expectedResetEpoch : Option Nat) (now : Millis)
  | recordFailure (accountId : JsString) (options : AccountFailureOptions) (now : Millis)
  | recordSuccess (accountId : JsString) (expectedRevision expectedResetEpoch : Option Nat)
      (now : Millis)
  | resetHealth (accountId : JsString) (clearPerformance : Bool) (now : Millis)
  | recordPerformance (accountId : JsString) (sample : AccountPerformanceSample)
      (expectedRevision expectedResetEpoch : Option Nat) (now : Millis)
  | recordModelFailure (accountId model : JsString) (reason : AccountModelCooldownReason)
      (cooldownMs : Rat) (statusCode : Option Nat) (now : Millis)
  | getHealth (accountId : JsString) (now : Millis)
  | getModelCooldowns (accountId : JsString) (now : Millis)
  | hasUsableAlternative (accounts : List Account) (model accountId : JsString)
      (pool : Option Pool) (providers : Option (List ProviderDefinition))
      (requiredCapabilities : List UpstreamCapabilityRequirement)
      (excludedAccountIds : List JsString) (skipAccountModelCatalog : Bool) (now : Millis)
  | clear

namespace System

/-- Run a scheduler operation that grants nothing. -/
def onScheduler (y : System) (scheduler : PoolScheduler) : System :=
  { y with scheduler := scheduler }

def onCircuits (y : System) (circuits : Circuits) : System :=
  { y with scheduler := { y.scheduler with circuits := circuits } }

def step (env : Env) (y : System) : Op → System
  | .hydrate accounts pools now => y.onScheduler (y.scheduler.hydrate accounts pools now)
  | .hydratePerformance logs now => y.onScheduler (y.scheduler.hydratePerformance env logs now)
  | .selectAndAcquire input now =>
      match y.scheduler.selectAndAcquire env input now with
      | (.ok selection, s) => y.grantSelection selection input.pool s
      | (.error _, s) => y.onScheduler s
  | .selectAndAcquireWhenAvailable input signal deadlineAt maxWaitMs now =>
      match y.scheduler.selectAndAcquireWhenAvailable env y.abortedSignals input signal deadlineAt
        maxWaitMs now with
      | (.selected selection, handoff) =>
          y.grantSelection selection input.pool handoff.scheduler
      | (.queued _, handoff) => y.settle handoff
      | (.throws _, handoff) => y.onScheduler handoff.scheduler
  | .tryAcquireAccount account pool now =>
      match y.scheduler.tryAcquireAccount account pool now with
      | (.ok true, s) => y.grant account none none (isAdaptive pool) s
      | (_, s) => y.onScheduler s
  | .release permit now => y.release env permit now
  | .abort signal => y.abort signal
  | .timeout waiterId => y.timeout waiterId
  | .recordStickyFailure poolId sessionId accountId now =>
      y.onScheduler { y.scheduler with
        stickyCache := (y.scheduler.stickyCache.recordStickyFailure poolId sessionId accountId now).2 }
  | .setCooldown accountId untilAt expectedRevision expectedResetEpoch now =>
      y.onScheduler
        (y.scheduler.setCooldown accountId untilAt expectedRevision expectedResetEpoch now).2
  | .recordFailure accountId options now =>
      y.onScheduler (y.scheduler.recordFailure env accountId options now).2
  | .recordSuccess accountId expectedRevision expectedResetEpoch now =>
      y.onScheduler (y.scheduler.recordSuccess accountId expectedRevision expectedResetEpoch now).2
  | .resetHealth accountId clearPerformance now =>
      y.onScheduler (y.scheduler.resetHealth accountId clearPerformance now)
  | .recordPerformance accountId sample expectedRevision expectedResetEpoch now =>
      y.onScheduler (y.scheduler.recordPerformance env accountId sample expectedRevision
        expectedResetEpoch now).2
  | .recordModelFailure accountId model reason cooldownMs statusCode now =>
      y.onCircuits (y.scheduler.circuits.recordModelFailure accountId model reason cooldownMs
        statusCode now)
  | .getHealth accountId now => y.onCircuits (y.scheduler.circuits.getHealth accountId now).2
  | .getModelCooldowns accountId now =>
      y.onCircuits (y.scheduler.circuits.pruneModelCooldowns accountId now)
  | .hasUsableAlternative accounts model accountId pool providers requiredCapabilities
      excludedAccountIds skipAccountModelCatalog now =>
      y.onScheduler (y.scheduler.hasUsableAlternative accounts model accountId pool providers
        requiredCapabilities excludedAccountIds skipAccountModelCatalog now).2
  | .clear => y.clear

/-- The system after a list of operations. -/
def run (env : Env) (y : System) (ops : List Op) : System := Lib.run (step env) y ops

end System

/-! ## A small configuration

Accounts, pools and requests with every optional property absent, for runs on
concrete inputs. -/

/-- Surroundings with integral exponents, code-unit order and a random source
that always returns zero. -/
def Env.plain : Env where
  exponentiate x y := if 0 ≤ y ∧ y.den = 1 then x ^ y.num.toNat else 0
  localeCompare a b := if a < b then -1 else if b < a then 1 else 0
  random _ := 0
  random_nonneg _ := le_refl _
  random_lt_one _ := zero_lt_one

def plainAccount (id : String) (maxConcurrency : Rat) : Account :=
  { id := js id, providerId := js "provider", credentialType := none, status := .active
    priority := 0, weight := 1, maxConcurrency := maxConcurrency, inFlight := 0
    availableModels := [], modelsRefreshedAt := none, modelPolicy := .all, modelAllowlist := []
    quota := none, codexQuota := none, grokQuota := none, quotaProtection := none
    cooldownUntil := none, cooldownReason := none, circuitState := none
    consecutiveFailures := none, modelCooldowns := [], updatedAt := 0 }

def plainPool (strategy : PoolStrategy) : Pool :=
  { id := js "pool", kind := .standard, strategy := strategy, members := [], modelPolicy := .all
    modelAllowlist := [], stickySessions := false, stickyTtlMinutes := 60, quotaProtection := none }

def plainInput (pool : Pool) (accounts : List Account) : SchedulerSelectionInput :=
  { pool := pool, accounts := accounts, model := js "model", modelCooldownKey := none
    skipAccountModelCatalog := false, sessionId := none, excludedAccountIds := []
    providers := none, requiredCapabilities := [] }

end StonePlus.Scheduler
