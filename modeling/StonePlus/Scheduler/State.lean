import StonePlus.Scheduler.Quota
import StonePlus.Scheduler.Sticky
import Mathlib.Data.List.Sort

/-!
# StonePlus.Scheduler.State

Runtime performance samples: the moving averages behind the autobalanced
cost and the additive-increase, multiplicative-decrease concurrency counter.

Arithmetic is exact except `x ** y`, which ECMAScript leaves
implementation-approximated: it is the `exponentiate` field of the
environment, together with the two other things the scheduler takes from
outside, the random source and the collation order.
-/

namespace StonePlus.Scheduler

/-- What `PoolScheduler` takes from its surroundings.  `random n` is the
result of the `n`-th call of the random source. -/
structure Env where
  exponentiate : Rat → Rat → Rat
  localeCompare : JsString → JsString → Int
  random : Nat → Rat
  random_nonneg : ∀ n, 0 ≤ random n
  random_lt_one : ∀ n, random n < 1

def failurePenaltyHalfLifeMs : Rat := 5 * 60000
def performanceStaleAfterMs : Millis := 30 * 60000
def performanceHydrationWindowMs : Millis := 30 * 24 * 60 * 60000
def performanceHydrationSamplesPerAccount : Nat := 400
def fitnessHistoryHalfLifeMs : Rat := 7 * 24 * 60 * 60000
def stickyEscapeMinimumSamples : Nat := 3
def stickyEscapeMinimumDeltaMs : Rat := 1000
def stickyEscapeRatio : Rat := 3 / 2
/-- Transport-only history is a conservative fallback against a real
semantic first-token observation. -/
def transportFallbackUncertaintyMs : Rat := 1500
def transportFallbackFloorMs : Rat := 3000

structure AccountPerformanceSample where
  transportFirstBodyMs : Option Rat
  semanticFirstTokenMs : Option Rat
  firstTokenMs : Option Rat
  outputTokens : Option Rat
  generationDurationMs : Option Rat
  deriving DecidableEq

/-- The empty sample `{}`. -/
def AccountPerformanceSample.none : AccountPerformanceSample :=
  ⟨Option.none, Option.none, Option.none, Option.none, Option.none⟩

structure AccountPerformanceState where
  healthRevision : Nat
  resetEpoch : Nat
  sampleCount : Nat
  successCount : Nat
  failureCount : Nat
  performanceSampleCount : Nat
  transportSampleCount : Nat
  semanticSampleCount : Nat
  throughputSampleCount : Nat
  historySuccessWeight : Rat
  historyFailureWeight : Rat
  recentSuccessRate : Rat
  transportFirstBodyMs : Option Rat
  semanticFirstTokenMs : Option Rat
  outputTokensPerSecond : Option Rat
  failurePenalty : Rat
  updatedAt : Millis
  dynamicConcurrency : Option Int
  successStreak : Nat
  deriving DecidableEq

def positiveMetric (value : Option Rat) : Option Rat := value.filter fun v => decide (0 < v)

def updateEwma (current sample : Option Rat) (alpha : Rat) : Option Rat :=
  match sample with
  | none => current
  | some sample => match current with
      | none => some sample
      | some current => some (current + alpha * (sample - current))

def metricAlpha (sampleCount : Nat) : Rat := if sampleCount < 5 then 45 / 100 else 18 / 100

/-- `0.5 ** (elapsed / halfLife)`. -/
def Env.decay (env : Env) (elapsed : Millis) (halfLife : Rat) : Rat :=
  env.exponentiate (1 / 2) (elapsed / halfLife)

def decayedFailurePenaltyAt (env : Env) (state : Option AccountPerformanceState)
    (observedAt : Millis) : Rat :=
  match state with
  | none => 0
  | some s => s.failurePenalty * env.decay (observedAt - s.updatedAt) failurePenaltyHalfLifeMs

/-- `1` when the condition holds: `(cond ? 1 : 0)`. -/
def countIf (b : Bool) : Nat := if b then 1 else 0

/-- Eight consecutive adaptive successes complete a streak. -/
def successStreakLength : Nat := 8

/-- The success streak with this observation counted. -/
def nextSuccessStreak (existing : Option AccountPerformanceState) (success adapt : Bool) : Nat :=
  if adapt && success then (existing.map AccountPerformanceState.successStreak).getD 0 + 1 else 0

/-- The state after one observed outcome.  A completed streak adds one to
`dynamicConcurrency`, once a failure has made it defined. -/
def observedState (env : Env) (existing : Option AccountPerformanceState)
    (healthRevision resetEpoch : Nat) (success : Bool) (sample : AccountPerformanceSample)
    (observedAt : Millis) (adaptConcurrency : Bool) : AccountPerformanceState :=
  let transportFirstBodyMs := positiveMetric sample.transportFirstBodyMs
  let semanticFirstTokenMs := positiveMetric (sample.semanticFirstTokenMs.or sample.firstTokenMs)
  let outputTokensPerSecond :=
    match positiveMetric sample.outputTokens, positiveMetric sample.generationDurationMs with
    | some tokens, some duration => some (tokens * 1000 / duration)
    | _, _ => none
  let field {α : Type} (f : AccountPerformanceState → α) (fallback : α) : α :=
    (existing.map f).getD fallback
  let elapsed := observedAt - field AccountPerformanceState.updatedAt observedAt
  let historyDecay := env.decay elapsed fitnessHistoryHalfLifeMs
  let outcome : Rat := if success then 1 else 0
  let transportSampleCount := field AccountPerformanceState.transportSampleCount 0 +
    countIf (success && transportFirstBodyMs.isSome)
  let semanticSampleCount := field AccountPerformanceState.semanticSampleCount 0 +
    countIf (success && semanticFirstTokenMs.isSome)
  let throughputSampleCount := field AccountPerformanceState.throughputSampleCount 0 +
    countIf (success && outputTokensPerSecond.isSome)
  let successStreak := nextSuccessStreak existing success adaptConcurrency
  let streakCompleted := adaptConcurrency && success && decide (successStreakLength ≤ successStreak)
  { healthRevision := healthRevision
    resetEpoch := resetEpoch
    sampleCount := field AccountPerformanceState.sampleCount 0 + 1
    successCount := field AccountPerformanceState.successCount 0 + countIf success
    failureCount := field AccountPerformanceState.failureCount 0 + countIf (!success)
    performanceSampleCount := field AccountPerformanceState.performanceSampleCount 0 +
      countIf (success && (transportFirstBodyMs.isSome || semanticFirstTokenMs.isSome ||
        outputTokensPerSecond.isSome))
    transportSampleCount := transportSampleCount
    semanticSampleCount := semanticSampleCount
    throughputSampleCount := throughputSampleCount
    historySuccessWeight :=
      field AccountPerformanceState.historySuccessWeight 0 * historyDecay + outcome
    historyFailureWeight :=
      field AccountPerformanceState.historyFailureWeight 0 * historyDecay + (1 - outcome)
    recentSuccessRate := (updateEwma (existing.map AccountPerformanceState.recentSuccessRate)
      (some outcome) (if success then 12 / 100 else 28 / 100)).getD outcome
    transportFirstBodyMs :=
      updateEwma (existing.bind AccountPerformanceState.transportFirstBodyMs)
        transportFirstBodyMs (metricAlpha transportSampleCount)
    semanticFirstTokenMs :=
      updateEwma (existing.bind AccountPerformanceState.semanticFirstTokenMs)
        semanticFirstTokenMs (metricAlpha semanticSampleCount)
    outputTokensPerSecond :=
      updateEwma (existing.bind AccountPerformanceState.outputTokensPerSecond)
        outputTokensPerSecond (metricAlpha throughputSampleCount)
    failurePenalty :=
      if success then decayedFailurePenaltyAt env existing observedAt * (65 / 100)
      else decayedFailurePenaltyAt env existing observedAt + 6
    updatedAt := observedAt
    dynamicConcurrency := (existing.bind AccountPerformanceState.dynamicConcurrency).map
      fun d => d + if streakCompleted then 1 else 0
    successStreak := if streakCompleted then 0 else successStreak }

/-- The adaptive part of an applied failure: halve the counter the account
had before the failure, or the configured limit when it had none. -/
def backedOff (before : Option AccountPerformanceState) (maxConcurrency : Option Rat)
    (updated : AccountPerformanceState) : AccountPerformanceState :=
  { updated with
    dynamicConcurrency := some (max 1 (match before.bind AccountPerformanceState.dynamicConcurrency with
      | some d => d / 2
      | none => ⌊max 1 (maxConcurrency.getD 2) / 2⌋))
    successStreak := 0 }

/-! ## Costs -/

def schedulerFirstTokenCostMs (state : AccountPerformanceState) : Rat :=
  match state.semanticFirstTokenMs, state.transportFirstBodyMs with
  | some ms, _ => ms
  | none, some ms => max transportFallbackFloorMs (ms + transportFallbackUncertaintyMs)
  | none, none => 3000

def performanceCost (env : Env) (state : Option AccountPerformanceState) (now : Millis) : Rat :=
  match state with
  | none => 4
  | some s =>
      let outputPenalty := match s.outputTokensPerSecond with
        | none => 3 / 2
        | some rate => 50 / max 1 rate
      min 20 (schedulerFirstTokenCostMs s / 1000) * (6 / 10) + min 20 outputPenalty * (14 / 10) +
        s.failurePenalty * env.decay (now - s.updatedAt) failurePenaltyHalfLifeMs

/-- A stale measurement regresses linearly towards the unmeasured prior. -/
def estimatedPerformanceCost (env : Env) (state : Option AccountPerformanceState)
    (unmeasuredPrior : Rat) (now : Millis) : Rat :=
  match state with
  | none => unmeasuredPrior
  | some s =>
      let staleRegression : Rat :=
        max 0 (min 1 (((now - s.updatedAt : Nat) : Rat) / performanceStaleAfterMs))
      performanceCost env state now * (1 - staleRegression) + unmeasuredPrior * staleRegression

def conservativePerformancePrior (costs : List Rat) : Rat :=
  let ordered := costs.insertionSort (· ≤ ·)
  match ordered[min (ordered.length - 1) (⌈(ordered.length : Rat) * (3 / 4)⌉ - 1).toNat]? with
  | none => 4
  | some p75 => max 4 (p75 * (115 / 100))

/-! ## Hydration from request logs -/

/-- Time spent in failed attempts before the winning one. -/
def failedAttemptDurationMs (log : RequestLog) : Rat :=
  match log.firstTokenMs, log.accountFirstTokenMs with
  | some first, some account => max 0 (first - account)
  | _, _ => 0

def transportFirstBodyPerformanceMs (log : RequestLog) : Option Rat :=
  match log.upstreamFirstByteMs with
  | some ms => positiveMetric (some (max 0 (ms - failedAttemptDurationMs log)))
  | none => if log.accountFirstTokenMs = none then positiveMetric log.firstTokenMs else none

def semanticFirstTokenPerformanceMs (log : RequestLog) : Option Rat :=
  positiveMetric log.accountFirstTokenMs

/-- The sample that `hydratePerformance` reads off a persisted log. -/
def logSample (log : RequestLog) : AccountPerformanceSample :=
  let succeeded := decide (log.status = .success)
  let transport := if succeeded then transportFirstBodyPerformanceMs log else none
  let semantic := if succeeded then semanticFirstTokenPerformanceMs log else none
  { transportFirstBodyMs := transport
    semanticFirstTokenMs := semantic
    firstTokenMs := none
    outputTokens := log.outputTokens
    generationDurationMs := (transport.or semantic).map fun started =>
      max 0 (log.latencyMs - failedAttemptDurationMs log - started) }

/-! ## Sticky escape -/

inductive MetricKind
  | semantic | transport
  deriving DecidableEq, Repr

structure StickyResponseMetric where
  kind : MetricKind
  valueMs : Rat
  sampleCount : Nat

def stickyResponseMetric (state : Option AccountPerformanceState) : Option StickyResponseMetric :=
  state.bind fun s => match s.semanticFirstTokenMs, s.transportFirstBodyMs with
    | some ms, _ => some ⟨.semantic, ms, s.semanticSampleCount⟩
    | none, some ms => some ⟨.transport, ms, s.transportSampleCount⟩
    | none, none => none

/-- A metric with enough samples whose measurement is not stale. -/
def freshMetric (state : Option AccountPerformanceState) (now : Millis) :
    Option StickyResponseMetric :=
  (stickyResponseMetric state).filter fun metric =>
    decide (stickyEscapeMinimumSamples ≤ metric.sampleCount) &&
      state.any fun s => decide (now - s.updatedAt < performanceStaleAfterMs)

/-- Whether the assigned account answers clearly slower than the fastest peer
measured in the same way. -/
def escapesSticky (selected : Option StickyResponseMetric)
    (peers : List StickyResponseMetric) : Bool :=
  match selected with
  | none => false
  | some metric =>
      match (peers.filter fun peer => decide (peer.kind = metric.kind)).map
          StickyResponseMetric.valueMs with
      | [] => false
      | first :: rest =>
          let fastestMs := rest.foldl min first
          decide (max (fastestMs + stickyEscapeMinimumDeltaMs) (fastestMs * stickyEscapeRatio) ≤
            metric.valueMs)

end StonePlus.Scheduler

/-!
## The state

The state of `PoolScheduler` and the operations on its counters: permits in
flight, active sticky sessions, the concurrency limit in force, and the
eligibility test built from them.

The object caches `aggregatePoolIndexes` and `accountModelIndexes` are left
out: pools and accounts are immutable values here, so a cached index equals
the recomputed one.
-/

namespace StonePlus.Scheduler

structure SmoothWeightedState where
  configuration : JsMap JsString Rat
  current : JsMap JsString Rat
  deriving DecidableEq

/-- A queued request.  `accountIds` are the accounts whose release wakes it,
`signal` identifies its abort signal. -/
structure CapacityWaiter where
  id : Nat
  input : SchedulerSelectionInput
  accountIds : List JsString
  poolId : JsString
  deadlineAt : Millis
  signal : Option Nat

/-- In-memory scheduler state; `randomCalls` is the position in the random
source. -/
structure PoolScheduler where
  active : JsMap JsString Nat
  roundRobinOffsets : JsMap JsString Nat
  smoothWeighted : JsMap JsString SmoothWeightedState
  stickyCache : StickyCache
  activeStickySessions : JsMap JsString (JsMap JsString Nat)
  activeStickySessionCounts : JsMap JsString Nat
  circuits : Circuits
  performance : JsMap JsString AccountPerformanceState
  performanceResetAt : JsMap JsString Millis
  capacityWaiters : JsMap Nat CapacityWaiter
  capacityWaiterCountsByPool : JsMap JsString Nat
  nextCapacityWaiterId : Nat
  maxPendingAcquisitions : Nat
  maxPendingAcquisitionsPerPool : Nat
  randomCalls : Nat

structure PoolSchedulerOptions where
  maxStickyEntries : Option Rat
  maxStickyEntriesPerPool : Option Rat
  maxPendingAcquisitions : Option Rat
  maxPendingAcquisitionsPerPool : Option Rat

/-- The options of `new PoolScheduler()`. -/
def PoolSchedulerOptions.default : PoolSchedulerOptions := ⟨none, none, none, none⟩

def positiveBound (value : Option Rat) (fallback : Nat) : Nat :=
  match value with
  | some v => if 0 < v then (max 1 ⌊v⌋).toNat else fallback
  | none => fallback

namespace PoolScheduler

def init (options : PoolSchedulerOptions) : PoolScheduler :=
  let maxStickyEntries := positiveBound options.maxStickyEntries 10000
  let maxPendingAcquisitions := positiveBound options.maxPendingAcquisitions 1024
  { active := ∅
    roundRobinOffsets := ∅
    smoothWeighted := ∅
    stickyCache := StickyCache.init maxStickyEntries
      (min maxStickyEntries (positiveBound options.maxStickyEntriesPerPool 2000))
    activeStickySessions := ∅
    activeStickySessionCounts := ∅
    circuits := Circuits.init
    performance := ∅
    performanceResetAt := ∅
    capacityWaiters := ∅
    capacityWaiterCountsByPool := ∅
    nextCapacityWaiterId := 1
    maxPendingAcquisitions := maxPendingAcquisitions
    maxPendingAcquisitionsPerPool :=
      min maxPendingAcquisitions (positiveBound options.maxPendingAcquisitionsPerPool 256)
    randomCalls := 0 }

/-! ## Permit counters -/

/-- `active.get(accountId) ?? 0`. -/
def activeCount (s : PoolScheduler) (accountId : JsString) : Nat := s.active.getD accountId 0

def inFlight (s : PoolScheduler) (account : Account) : Rat :=
  max 0 account.inFlight + s.activeCount account.id

/-- The limit in force: the configured one, or under adaptive concurrency the
learned one clamped between one and the configured limit. -/
def concurrencyLimit (s : PoolScheduler) (account : Account) (adaptive : Bool) : Int :=
  let configured := routeAccountConcurrencyLimit account.maxConcurrency
  if !adaptive then configured
  else
    let dynamicConcurrency := (s.performance.get? account.id).bind
      AccountPerformanceState.dynamicConcurrency
    max 1 (min configured
      (routeAccountConcurrencyLimit ((dynamicConcurrency.getD configured : Int) : Rat)))

def acquireAccountSlot (s : PoolScheduler) (accountId : JsString) : PoolScheduler :=
  { s with active := s.active.set accountId (s.activeCount accountId + 1) }

/-- The counter update of `releaseAccountSlot`, before the hand-off. -/
def returnAccountSlot (s : PoolScheduler) (accountId : JsString) : PoolScheduler :=
  let remaining := s.activeCount accountId - 1
  { s with active :=
      if remaining = 0 then s.active.delete accountId else s.active.set accountId remaining }

/-- `activeStickySessionCounts.get(accountId) ?? 0`. -/
def sessionCount (s : PoolScheduler) (accountId : JsString) : Nat :=
  s.activeStickySessionCounts.getD accountId 0

/-- The permits a session holds on an account, as the scheduler counts them. -/
def sessionPermits (s : PoolScheduler) (stickyKey accountId : JsString) : Nat :=
  (s.activeStickySessions.getD stickyKey ∅).getD accountId 0

/-- The sessions active on an account, other than the excluded one. -/
def activeStickySessionCount (s : PoolScheduler) (accountId : JsString)
    (excludingStickyKey : Option JsString) : Int :=
  match excludingStickyKey with
  | none => s.sessionCount accountId
  | some key => s.sessionCount accountId - if 0 < s.sessionPermits key accountId then 1 else 0

def acquireActiveStickySession (s : PoolScheduler) (stickyKey accountId : JsString) :
    PoolScheduler :=
  { s with
    activeStickySessionCounts :=
      if s.sessionPermits stickyKey accountId = 0 then
        s.activeStickySessionCounts.set accountId (s.sessionCount accountId + 1)
      else s.activeStickySessionCounts
    activeStickySessions := s.activeStickySessions.set stickyKey
      ((s.activeStickySessions.getD stickyKey ∅).set accountId
        (s.sessionPermits stickyKey accountId + 1)) }

def releaseActiveStickySession (s : PoolScheduler) (stickyKey accountId : JsString) :
    PoolScheduler :=
  match s.activeStickySessions.get? stickyKey with
  | none => s
  | some accounts =>
      let remaining := accounts.getD accountId 0 - 1
      let counts :=
        if 0 < remaining then s.activeStickySessionCounts
        else if 0 < s.sessionCount accountId - 1 then
          s.activeStickySessionCounts.set accountId (s.sessionCount accountId - 1)
        else s.activeStickySessionCounts.delete accountId
      let accounts :=
        if 0 < remaining then accounts.set accountId remaining else accounts.delete accountId
      { s with
        activeStickySessionCounts := counts
        activeStickySessions :=
          if accounts.size = 0 then s.activeStickySessions.delete stickyKey
          else s.activeStickySessions.set stickyKey accounts }

/-! ## Availability -/

/-- The verdict of `isAvailable` once its side effects on the circuits have
been made. -/
def availableNow (s : PoolScheduler) (account : Account) (pool : Option Pool) (now : Millis) :
    Bool :=
  let health := s.circuits.health.get? account.id
  let cooldownUntil := max (account.cooldownUntil.getD 0)
    ((health.bind AccountRuntimeHealth.cooldownUntil).getD 0)
  isRouteAccountRuntimeAvailable account now && !quotaExhausted account now &&
    !(accountReportsCodexQuota account &&
      (quotaProtectionBlocks account.codexQuota account.quotaProtection now ||
        quotaProtectionBlocks account.codexQuota (pool.bind Pool.quotaProtection) now)) &&
    !(decide (now < cooldownUntil) ||
      (decide (health.map AccountRuntimeHealth.circuitState = some .halfOpen) &&
        decide (0 < s.inFlight account)))

/-- The model-cooldown gate of `isAvailable`; no model, or an empty one, passes. -/
def modelGate (c : Circuits) (account : Account) (model : Option JsString) (now : Millis) :
    Bool × Circuits :=
  match model with
  | none => (true, c)
  | some m => if m = [] then (true, c) else c.isModelAvailable account.id m now

def isAvailable (s : PoolScheduler) (account : Account) (pool : Option Pool) (now : Millis)
    (model : Option JsString) : Bool × PoolScheduler :=
  match modelGate s.circuits account model now with
  | (false, circuits) => (false, { s with circuits := circuits })
  | (true, circuits) =>
      let s := { s with circuits := circuits.probe account now }
      (s.availableNow account pool now, s)

def hasCapacity (s : PoolScheduler) (account : Account) (adaptive : Bool) : Bool :=
  hasRouteAccountCapacity (s.inFlight account) (s.concurrencyLimit account adaptive)

def isEligible (s : PoolScheduler) (account : Account) (pool : Pool) (adaptive : Bool)
    (now : Millis) (model : Option JsString) : Bool × PoolScheduler :=
  match s.isAvailable account (some pool) now model with
  | (false, s) => (false, s)
  | (true, s) => (s.hasCapacity account adaptive, s)

/-- `Array.prototype.filter` with a predicate that updates the scheduler. -/
def filterM (test : PoolScheduler → Account → Bool × PoolScheduler) :
    PoolScheduler → List Account → List Account × PoolScheduler
  | s, [] => ([], s)
  | s, account :: rest =>
      match test s account with
      | (keep, s) =>
          match filterM test s rest with
          | (kept, s) => (if keep then account :: kept else kept, s)

end PoolScheduler

end StonePlus.Scheduler
