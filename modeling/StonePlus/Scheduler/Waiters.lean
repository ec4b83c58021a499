import StonePlus.Scheduler.Select

/-!
# StonePlus.Scheduler.Waiters

Capacity waiters: requests queued FIFO for accounts that are available but
full, and the synchronous hand-off of a released slot to one of them.

A hand-off walks the queue once.  It reports the waiter it served, if any,
and the waiters it rejected on the way; resolving and rejecting a promise
runs no other code synchronously.
-/

namespace StonePlus.Scheduler

def defaultSchedulerWaitMs : Int := 5000
def maxSchedulerWaitMs : Int := 30000

def queueFullMessage : JsString := js "The scheduler capacity wait queue is full"
def deadlineMessage : JsString :=
  js "No account capacity became available before the scheduler wait deadline"
def resetMessage : JsString := js "The scheduler was reset while waiting for account capacity"

/-- `new Set(ids)`, as the list of its elements. -/
def newSet (ids : List JsString) : List JsString := (mapOf (ids.map fun id => (id, ()))).keys

/-- Whether a waiter's abort signal has fired. -/
def signalAborted (abortedSignals : List Nat) (signal : Option Nat) : Bool :=
  signal.any fun id => decide (id ∈ abortedSignals)

/-- The outcome of one hand-off. -/
structure Handoff where
  scheduler : PoolScheduler
  served : Option (CapacityWaiter × ScheduledSelection)
  rejected : List (Nat × SchedulerError)

namespace PoolScheduler

/-! ## Registration -/

/-- Available accounts of either tier whose slots are all taken: the accounts
whose release may serve this input. -/
def capacityBlockedAccountIds (s : PoolScheduler) (input : SchedulerSelectionInput)
    (now : Millis) : List JsString × PoolScheduler :=
  let available (s : PoolScheduler) (account : Account) : Bool × PoolScheduler :=
    if account.id ∈ input.excludedAccountIds then (false, s)
    else s.isAvailable account (some input.pool) now (SchedulerSelectionInput.cooldownKey input)
  let blocked (s : PoolScheduler) (account : Account) : Bool × PoolScheduler :=
    match available s account with
    | (false, s) => (false, s)
    | (true, s) => (!s.hasCapacity account (isAdaptive input.pool), s)
  match filterM blocked s ((sourceEligibility input).verified ++ (sourceEligibility input).unknown)
    with
  | (accounts, s) => (accounts.map Account.id, s)

def removeCapacityWaiter (s : PoolScheduler) (waiter : CapacityWaiter) : PoolScheduler :=
  if s.capacityWaiters.has waiter.id then
    let remaining := s.capacityWaiterCountsByPool.getD waiter.poolId 0 - 1
    { s with
      capacityWaiters := s.capacityWaiters.delete waiter.id
      capacityWaiterCountsByPool :=
        if remaining = 0 then s.capacityWaiterCountsByPool.delete waiter.poolId
        else s.capacityWaiterCountsByPool.set waiter.poolId remaining }
  else s

/-- `waiter.accountIds = new Set(accountIds)`. -/
def reregister (s : PoolScheduler) (waiter : CapacityWaiter) (accountIds : List JsString) :
    PoolScheduler :=
  { s with capacityWaiters :=
      s.capacityWaiters.set waiter.id { waiter with accountIds := newSet accountIds } }

/-! ## Hand-off -/

/-- What trying one queued waiter does. -/
inductive WaiterOutcome
  | keep (s : PoolScheduler)
  | reject (error : SchedulerError) (s : PoolScheduler)
  | serve (selection : ScheduledSelection) (s : PoolScheduler)

def tryWaiter (env : Env) (abortedSignals : List Nat) (now : Millis) (s : PoolScheduler)
    (waiter : CapacityWaiter) : WaiterOutcome :=
  if signalAborted abortedSignals waiter.signal then
    .reject (.aborted (waiter.signal.getD 0)) (s.removeCapacityWaiter waiter)
  else if waiter.deadlineAt ≤ now then
    .reject (.noEligibleAccount waiter.accountIds deadlineMessage) (s.removeCapacityWaiter waiter)
  else match s.selectAndAcquire env waiter.input now with
    | (.ok selection, s) => .serve selection (s.removeCapacityWaiter waiter)
    | (.error (.noEligibleAccount ids message), s) =>
        match s.capacityBlockedAccountIds waiter.input now with
        | ([], s) =>
            .reject (.noEligibleAccount ids message) (s.removeCapacityWaiter waiter)
        | (accountIds, s) => .keep (s.reregister waiter accountIds)
    | (.error e, s) => .reject e (s.removeCapacityWaiter waiter)

/-- Walk the queue from the given waiter ids on; stop at the first one served. -/
def fulfillFrom (env : Env) (abortedSignals : List Nat) (now : Millis) (accountId : JsString) :
    List Nat → PoolScheduler → Handoff
  | [], s => ⟨s, none, []⟩
  | id :: ids, s =>
      match s.capacityWaiters.get? id with
      | none => fulfillFrom env abortedSignals now accountId ids s
      | some waiter =>
          if accountId ∉ waiter.accountIds then fulfillFrom env abortedSignals now accountId ids s
          else match s.tryWaiter env abortedSignals now waiter with
            | .keep s => fulfillFrom env abortedSignals now accountId ids s
            | .reject e s =>
                let rest := fulfillFrom env abortedSignals now accountId ids s
                { rest with rejected := (id, e) :: rest.rejected }
            | .serve selection s => ⟨s, some (waiter, selection), []⟩

def fulfillOneCapacityWaiter (env : Env) (abortedSignals : List Nat) (s : PoolScheduler)
    (accountId : JsString) (now : Millis) : Handoff :=
  fulfillFrom env abortedSignals now accountId s.capacityWaiters.keys s

/-- Return a slot and hand it to one FIFO waiter. -/
def releaseAccountSlot (env : Env) (abortedSignals : List Nat) (s : PoolScheduler)
    (accountId : JsString) (now : Millis) : Handoff :=
  (s.returnAccountSlot accountId).fulfillOneCapacityWaiter env abortedSignals accountId now

/-- The body of a release closure that has not run before. -/
def releasePermit (env : Env) (abortedSignals : List Nat) (s : PoolScheduler)
    (stickyKey : Option JsString) (accountId : JsString) (now : Millis) : Handoff :=
  let s := match stickyKey with
    | none => s
    | some key => s.releaseActiveStickySession key accountId
  s.releaseAccountSlot env abortedSignals accountId now

/-! ## Queueing -/

/-- One hand-off per blocked account until one serves: closes the race between
the failed selection and the registration. -/
def fulfillAny (env : Env) (abortedSignals : List Nat) (now : Millis) :
    List JsString → PoolScheduler → Handoff
  | [], s => ⟨s, none, []⟩
  | accountId :: rest, s =>
      let handoff := s.fulfillOneCapacityWaiter env abortedSignals accountId now
      match handoff.served with
      | some _ => handoff
      | none =>
          let later := fulfillAny env abortedSignals now rest handoff.scheduler
          { later with rejected := handoff.rejected ++ later.rejected }

/-- The result of `selectAndAcquireWhenAvailable`: settled at once, or queued
under a waiter id. -/
inductive WaitResult
  | throws (error : SchedulerError)
  | selected (selection : ScheduledSelection)
  | queued (waiterId : Nat)

def enqueueCapacityWaiter (env : Env) (abortedSignals : List Nat) (s : PoolScheduler)
    (input : SchedulerSelectionInput) (accountIds : List JsString) (deadlineAt : Millis)
    (signal : Option Nat) (errorAccountIds : List JsString) (now : Millis) :
    WaitResult × Handoff :=
  let poolCount := s.capacityWaiterCountsByPool.getD input.pool.id 0
  if s.maxPendingAcquisitions ≤ s.capacityWaiters.size ∨
      s.maxPendingAcquisitionsPerPool ≤ poolCount then
    (.throws (.noEligibleAccount errorAccountIds queueFullMessage), ⟨s, none, []⟩)
  else
    let id := s.nextCapacityWaiterId
    let waiter : CapacityWaiter :=
      { id := id, input := input, accountIds := newSet accountIds, poolId := input.pool.id
        deadlineAt := deadlineAt, signal := signal }
    let s := { s with
      nextCapacityWaiterId := id + 1
      capacityWaiters := s.capacityWaiters.set id waiter
      capacityWaiterCountsByPool :=
        s.capacityWaiterCountsByPool.set input.pool.id (poolCount + 1) }
    (.queued id, fulfillAny env abortedSignals now accountIds s)

/-- Waits only for accounts that are otherwise runnable but full; every other
blocker fails immediately. -/
def selectAndAcquireWhenAvailable (env : Env) (abortedSignals : List Nat) (s : PoolScheduler)
    (input : SchedulerSelectionInput) (signal : Option Nat) (deadlineAt : Option Millis)
    (maxWaitMs : Int) (now : Millis) : WaitResult × Handoff :=
  if signalAborted abortedSignals signal then
    (.throws (.aborted (signal.getD 0)), ⟨s, none, []⟩)
  else match s.selectAndAcquire env input now with
    | (.ok selection, s) => (.selected selection, ⟨s, none, []⟩)
    | (.error (.noEligibleAccount ids message), s) =>
        match s.capacityBlockedAccountIds input now with
        | ([], s) => (.throws (.noEligibleAccount ids message), ⟨s, none, []⟩)
        | (waitable, s) =>
            let boundedWaitMs := (min maxSchedulerWaitMs (max 0 maxWaitMs)).toNat
            let waitDeadlineAt := match deadlineAt with
              | none => now + boundedWaitMs
              | some at_ => min at_ (now + boundedWaitMs)
            if boundedWaitMs = 0 ∨ waitDeadlineAt ≤ now then
              (.throws (.noEligibleAccount ids message), ⟨s, none, []⟩)
            else s.enqueueCapacityWaiter env abortedSignals input waitable waitDeadlineAt signal ids now
    | (.error e, s) => (.throws e, ⟨s, none, []⟩)

/-- `rejectCapacityWaiter`, as the deadline timer and the abort listener call it. -/
def rejectCapacityWaiter (s : PoolScheduler) (waiterId : Nat) : PoolScheduler :=
  match s.capacityWaiters.get? waiterId with
  | none => s
  | some waiter => s.removeCapacityWaiter waiter

/-! ## Configuration boundaries -/

/-- `clear()`.  Reset epochs, performance reset times and bounds survive; the
accounts the scheduler knew start a new health generation. -/
def clear (s : PoolScheduler) : PoolScheduler :=
  let invalidatedAccountIds := (s.active.keys ++ s.circuits.health.keys ++ s.performance.keys ++
    s.circuits.healthRevisions.keys).dedup
  let circuits : Circuits :=
    { s.circuits with
      health := ∅, healthReasons := ∅, modelCooldowns := ∅, quotaHalfOpenObservations := ∅ }
  { s with
    active := ∅
    roundRobinOffsets := ∅
    smoothWeighted := ∅
    stickyCache := s.stickyCache.clear
    activeStickySessions := ∅
    activeStickySessionCounts := ∅
    circuits := invalidatedAccountIds.foldl Circuits.bumpHealthRevision circuits
    performance := ∅
    capacityWaiters := ∅
    capacityWaiterCountsByPool := ∅ }

/-- `hydrate`: the configuration-version boundary. -/
def hydrate (s : PoolScheduler) (accounts : List Account) (pools : Option (List Pool))
    (now : Millis) : PoolScheduler :=
  let accountIds := accounts.map Account.id
  let keptPool (id : JsString) : Bool := match pools with
    | none => true
    | some pools => decide (id ∈ pools.map Pool.id)
  { s with
    roundRobinOffsets := s.roundRobinOffsets.filterKeys keptPool
    smoothWeighted := s.smoothWeighted.filterKeys keptPool
    performance := s.performance.filterKeys fun id => decide (id ∈ accountIds)
    circuits := s.circuits.hydrate accounts now }

/-! ## Outcomes -/

/-- `observeOutcome`. -/
def observeOutcome (env : Env) (s : PoolScheduler) (accountId : JsString) (success : Bool)
    (sample : AccountPerformanceSample) (observedAt : Millis) (adaptConcurrency : Bool) :
    PoolScheduler :=
  let observed := observedState env (s.performance.get? accountId)
    (s.circuits.getHealthRevision accountId) (s.circuits.getResetEpoch accountId) success sample
    observedAt adaptConcurrency
  { s with performance := s.performance.set accountId observed }

/-- The logs that may still restore an account's performance, oldest first. -/
def hydrationLogs (s : PoolScheduler) (logs : List RequestLog) (accountId : JsString)
    (now : Millis) : List RequestLog :=
  let recent := (logs.filter fun log =>
    decide (log.accountId = some accountId) && decide (log.status ≠ .streaming) &&
    decide (now ≤ log.timestamp + performanceHydrationWindowMs) &&
    (s.performanceResetAt.get? accountId).all fun resetAt => decide (resetAt < log.timestamp)).insertionSort
      fun a b => a.timestamp ≤ b.timestamp
  recent.drop (recent.length - performanceHydrationSamplesPerAccount)

/-- Restores only missing runtime performance: live samples always win. -/
def hydratePerformance (env : Env) (s : PoolScheduler) (logs : List RequestLog) (now : Millis) :
    PoolScheduler :=
  let accountIds := ((logs.filterMap RequestLog.accountId).filter fun id => id ≠ []).dedup
  accountIds.foldl
    (fun s accountId =>
      if s.performance.has accountId then s
      else (s.hydrationLogs logs accountId now).foldl
        (fun s log => s.observeOutcome env accountId (decide (log.status = .success))
          (logSample log) log.timestamp false) s) s

def setCooldown (s : PoolScheduler) (accountId : JsString) (untilAt : Millis)
    (expectedRevision expectedResetEpoch : Option Nat) (now : Millis) :
    AccountOutcomeResult × PoolScheduler :=
  match s.circuits.setCooldown accountId untilAt expectedRevision expectedResetEpoch now with
  | (result, circuits) => (result, { s with circuits := circuits })

def recordSuccess (s : PoolScheduler) (accountId : JsString)
    (expectedRevision expectedResetEpoch : Option Nat) (now : Millis) :
    AccountOutcomeResult × PoolScheduler :=
  match s.circuits.recordSuccess accountId expectedRevision expectedResetEpoch now with
  | (result, circuits) => (result, { s with circuits := circuits })

def recordFailure (env : Env) (s : PoolScheduler) (accountId : JsString)
    (options : AccountFailureOptions) (now : Millis) : AccountOutcomeResult × PoolScheduler :=
  match s.circuits.staleFailure accountId options now with
  | some (result, circuits) => (result, { s with circuits := circuits })
  | none =>
      match s.circuits.applyFailure accountId options now with
      | (result, circuits) =>
          let before := s.performance.get? accountId
          let s := { s with
            stickyCache := s.stickyCache.failAccount accountId now, circuits := circuits }
          let s := s.observeOutcome env accountId false AccountPerformanceSample.none now true
          (result, { s with performance := match s.performance.get? accountId with
            | none => s.performance
            | some updated =>
                s.performance.set accountId (backedOff before options.maxConcurrency updated) })

def resetHealth (s : PoolScheduler) (accountId : JsString) (clearPerformance : Bool)
    (now : Millis) : PoolScheduler :=
  { s with
    performance := if clearPerformance then s.performance.delete accountId else s.performance
    performanceResetAt :=
      if clearPerformance then s.performanceResetAt.set accountId now else s.performanceResetAt
    circuits := s.circuits.resetHealth accountId }

def recordPerformance (env : Env) (s : PoolScheduler) (accountId : JsString)
    (sample : AccountPerformanceSample) (expectedRevision expectedResetEpoch : Option Nat)
    (now : Millis) : Bool × PoolScheduler :=
  if (expectedRevision.any fun r => decide (r ≠ s.circuits.getHealthRevision accountId)) ||
      (expectedResetEpoch.any fun e => decide (e ≠ s.circuits.getResetEpoch accountId)) then
    (false, s)
  else (true, s.observeOutcome env accountId true sample now true)

/-- Whether a failed source still has a usable peer; capacity is ignored. -/
def hasUsableAlternative (s : PoolScheduler) (accounts : List Account) (model accountId : JsString)
    (pool : Option Pool) (providers : Option (List ProviderDefinition))
    (requiredCapabilities : List UpstreamCapabilityRequirement)
    (excludedAccountIds : List JsString) (skipAccountModelCatalog : Bool) (now : Millis) :
    Bool × PoolScheduler :=
  let eligibility := evaluateSourceEligibility
    (accounts.filter fun account => account.id ∉ accountId :: excludedAccountIds)
    (providers.getD []) (if skipAccountModelCatalog then none else some model)
    ((pool.map Pool.modelPolicy).getD .all) ((pool.map Pool.modelAllowlist).getD [])
    requiredCapabilities providers.isSome
  anyAvailable pool model now (eligibility.verified ++ eligibility.unknown) s
where
  /-- `Array.prototype.some` over `isAvailable`: stops at the first available one. -/
  anyAvailable (pool : Option Pool) (model : JsString) (now : Millis) :
      List Account → PoolScheduler → Bool × PoolScheduler
    | [], s => (false, s)
    | account :: rest, s =>
        match s.isAvailable account pool now (some model) with
        | (true, s) => (true, s)
        | (false, s) => anyAvailable pool model now rest s

end PoolScheduler

end StonePlus.Scheduler
