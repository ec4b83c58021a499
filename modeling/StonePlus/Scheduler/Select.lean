import StonePlus.Scheduler.Pick

/-!
# StonePlus.Scheduler.Select

`PoolScheduler.selectAndAcquire` and `tryAcquireAccount`.

A selection runs in four stages: static eligibility, runtime eligibility of
the verified tier with fallback to the unknown tier, the sticky assignment,
and the pool strategy.  The chosen account is then granted a permit, whose
release closure captures the account and the sticky key.
-/

namespace StonePlus.Scheduler

inductive SchedulerError
  | noEligibleAccount (accountIds : List JsString) (message : JsString)
  | modelNotExposed (message : JsString)
  | unsupportedPoolStrategy (strategy : JsString)
  /-- A property of `undefined` was read. -/
  | typeError
  /-- The abort reason of the caller's signal. -/
  | aborted (signal : Nat)
  deriving DecidableEq

def noEligibleMessage : JsString := js "No eligible account is available for this request"
def modelNotExposedMessage : JsString := js "The requested model is not exposed by this pool"

/-- A granted permit, with what its release closure captures. -/
structure ScheduledSelection where
  account : Account
  stickyKey : Option JsString
  healthRevision : Nat
  resetEpoch : Nat
  deriving DecidableEq

/-- What the sticky cache decides before the strategy is asked. -/
structure StickyChoice where
  selected : Option Account
  escapedStickyAccountId : Option JsString
  failedStickyAccountId : Option JsString

/-- A string that is neither `undefined` nor empty. -/
def truthy (value : Option JsString) : Bool := value.any fun id => decide (id ≠ [])

def assertSupportedStrategy : PoolStrategy → Except SchedulerError Unit
  | .other name => .error (.unsupportedPoolStrategy name)
  | _ => .ok ()

/-- The shared static eligibility of a selection input. -/
def sourceEligibility (input : SchedulerSelectionInput) : SourceEligibilityResult :=
  evaluateSourceEligibility input.accounts (input.providers.getD [])
    (if input.skipAccountModelCatalog then none else some input.model)
    input.pool.modelPolicy input.pool.modelAllowlist input.requiredCapabilities
    input.providers.isSome

def SchedulerSelectionInput.cooldownKey (input : SchedulerSelectionInput) : Option JsString :=
  some (input.modelCooldownKey.getD input.model)

def isAdaptive (pool : Pool) : Bool := decide (pool.strategy = .autobalanced)

namespace PoolScheduler

/-! ## Candidates -/

def runtimeEligible (input : SchedulerSelectionInput) (now : Millis) (s : PoolScheduler)
    (account : Account) : Bool × PoolScheduler :=
  if account.id ∈ input.excludedAccountIds then (false, s)
  else s.isEligible account input.pool (isAdaptive input.pool) now
    (SchedulerSelectionInput.cooldownKey input)

/-- Verified members first; the unknown tier is asked only when no verified
member is eligible at run time. -/
def candidates (s : PoolScheduler) (input : SchedulerSelectionInput) (now : Millis) :
    List Account × PoolScheduler :=
  match filterM (runtimeEligible input now) s (sourceEligibility input).verified with
  | ([], s) => filterM (runtimeEligible input now) s (sourceEligibility input).unknown
  | (verified, s) => (verified, s)

/-! ## Sticky assignment -/

def shouldEscapeSticky (s : PoolScheduler) (selected : Account) (candidates : List Account)
    (now : Millis) : Bool :=
  escapesSticky (freshMetric (s.performance.get? selected.id) now)
    ((candidates.filter fun account => account.id ≠ selected.id).filterMap
      fun account => freshMetric (s.performance.get? account.id) now)

def shouldSpreadConcurrentSticky (env : Env) (s : PoolScheduler) (stickyKey : JsString)
    (selected : Account) (candidates : List Account) (now : Millis) : Bool :=
  let selectedSessionLoad := s.activeStickySessionCount selected.id (some stickyKey)
  if selectedSessionLoad ≤ 0 then false
  else
    let lighter := candidates.filter fun account => account.id ≠ selected.id ∧
      s.activeStickySessionCount account.id (some stickyKey) < selectedSessionLoad
    let prior := s.performancePrior env candidates now
    let cost (account : Account) := s.autoBalancedCost env account prior (some stickyKey) now
    lighter.any fun account => decide (cost account < cost selected)

/-- The failed account to avoid, if another candidate can serve instead. -/
def consultAvoidance (s : PoolScheduler) (stickyKey : JsString) (candidates : List Account)
    (now : Millis) : Option JsString × PoolScheduler :=
  match s.stickyCache.stickyFailureAvoidance.get? stickyKey with
  | none => (none, s)
  | some avoidance =>
      if now < avoidance.expiresAt then
        (if candidates.any fun account => account.id ≠ avoidance.accountId then
            some avoidance.accountId
          else none,
          { s with stickyCache := s.stickyCache.touchStickyLru stickyKey avoidance.poolId .avoidance })
      else (none, { s with stickyCache := s.stickyCache.deleteStickyFailureAvoidance stickyKey })

/-- The assigned account if it may still serve; an autobalanced pool may
escape it, which drops the assignment. -/
def consultAssignment (env : Env) (s : PoolScheduler) (pool : Pool) (stickyKey : JsString)
    (candidates : List Account) (failedStickyAccountId : Option JsString) (now : Millis) :
    StickyChoice × PoolScheduler :=
  match s.stickyCache.sticky.get? stickyKey with
  | none => (⟨none, none, failedStickyAccountId⟩, s)
  | some assignment =>
      if now < assignment.expiresAt then
        let s := { s with
          stickyCache := s.stickyCache.touchStickyLru stickyKey assignment.poolId .assignment }
        match candidates.find? fun account => decide (account.id = assignment.accountId) &&
            decide (some account.id ≠ failedStickyAccountId) with
        | none => (⟨none, none, failedStickyAccountId⟩, s)
        | some selected =>
            if isAdaptive pool && (s.shouldEscapeSticky selected candidates now ||
                s.shouldSpreadConcurrentSticky env stickyKey selected candidates now) then
              (⟨none, some selected.id, failedStickyAccountId⟩,
                { s with stickyCache := s.stickyCache.deleteSticky stickyKey })
            else (⟨some selected, none, failedStickyAccountId⟩, s)
      else
        (⟨none, none, failedStickyAccountId⟩,
          { s with stickyCache := s.stickyCache.deleteSticky stickyKey })

def consultSticky (env : Env) (s : PoolScheduler) (pool : Pool) (stickyKey : Option JsString)
    (candidates : List Account) (now : Millis) : StickyChoice × PoolScheduler :=
  match stickyKey with
  | none => (⟨none, none, none⟩, s)
  | some key =>
      match s.consultAvoidance key candidates now with
      | (failed, s) => s.consultAssignment env pool key candidates failed now

def preferredCandidates (choice : StickyChoice) (candidates : List Account) : List Account :=
  if truthy choice.escapedStickyAccountId || truthy choice.failedStickyAccountId then
    candidates.filter fun account => some account.id ≠ choice.escapedStickyAccountId ∧
      some account.id ≠ choice.failedStickyAccountId
  else candidates

/-- The account to serve: the sticky one, or the strategy's pick. -/
def choose (env : Env) (s : PoolScheduler) (input : SchedulerSelectionInput)
    (stickyKey : Option JsString) (candidates : List Account) (now : Millis) :
    Option Account × PoolScheduler :=
  match s.consultSticky env input.pool stickyKey candidates now with
  | (⟨some selected, _, _⟩, s) => (some selected, s)
  | (choice, s) =>
      let preferred := preferredCandidates choice candidates
      s.pick env input.pool (if preferred = [] then candidates else preferred) input.accounts
        stickyKey now

/-! ## Acquisition -/

def selectionStickyKey (input : SchedulerSelectionInput) : Option JsString :=
  if input.pool.stickySessions then boundedStickyKey input.pool.id input.sessionId else none

/-- Take the slot, count the session and renew its assignment. -/
def acquire (s : PoolScheduler) (pool : Pool) (stickyKey : Option JsString) (selected : Account)
    (now : Millis) : PoolScheduler :=
  let s := s.acquireAccountSlot selected.id
  match stickyKey with
  | none => s
  | some key =>
      let s := s.acquireActiveStickySession key selected.id
      let assignment : StickyRecord :=
        ⟨pool.id, selected.id, now + boundedStickyTtlMs pool.stickyTtlMinutes⟩
      { s with stickyCache :=
          (s.stickyCache.deleteStickyFailureAvoidance key).setSticky key assignment now }

/-- What a selection does before it looks at any account. -/
def beginSelection (s : PoolScheduler) (pool : Pool) (now : Millis) : PoolScheduler :=
  { s with
    stickyCache := s.stickyCache.cleanupExpiredSticky now
    smoothWeighted :=
      if pool.strategy = .weightedRoundRobin then s.smoothWeighted
      else s.smoothWeighted.delete pool.id }

def scheduledSelection (s : PoolScheduler) (account : Account) (stickyKey : Option JsString) :
    ScheduledSelection :=
  { account := account, stickyKey := stickyKey
    healthRevision := s.circuits.getHealthRevision account.id
    resetEpoch := s.circuits.getResetEpoch account.id }

def selectAndAcquire (env : Env) (s : PoolScheduler) (input : SchedulerSelectionInput)
    (now : Millis) : Except SchedulerError ScheduledSelection × PoolScheduler :=
  match assertSupportedStrategy input.pool.strategy with
  | .error e => (.error e, s)
  | .ok () =>
      let s := s.beginSelection input.pool now
      if input.pool.modelPolicy = .selected ∧ input.model ∉ input.pool.modelAllowlist then
        (.error (.modelNotExposed modelNotExposedMessage), s)
      else if (sourceEligibility input).modelEligible = [] then
        (.error (.modelNotExposed modelNotExposedMessage), s)
      else match s.candidates input now with
        | ([], s) =>
            (.error (.noEligibleAccount (((sourceEligibility input).verified ++
              (sourceEligibility input).unknown).map Account.id) noEligibleMessage), s)
        | (candidates, s) =>
            let stickyKey := selectionStickyKey input
            match s.choose env input stickyKey candidates now with
            | (none, s) => (.error .typeError, s)
            | (some selected, s) =>
                let s := s.acquire input.pool stickyKey selected now
                (.ok (s.scheduledSelection selected stickyKey), s)

/-- Reserves one additional upstream slot, used by a same-account hedge. -/
def tryAcquireAccount (s : PoolScheduler) (account : Account) (pool : Pool) (now : Millis) :
    Except SchedulerError Bool × PoolScheduler :=
  match assertSupportedStrategy pool.strategy with
  | .error e => (.error e, s)
  | .ok () =>
      match s.isEligible account pool (isAdaptive pool) now none with
      | (false, s) => (.ok false, s)
      | (true, s) => (.ok true, s.acquireAccountSlot account.id)

end PoolScheduler

end StonePlus.Scheduler
