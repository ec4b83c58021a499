import StonePlus.Scheduler.Quota

/-!
# StonePlus.Scheduler.Circuits

The account-health component of `PoolScheduler`: runtime circuits, the
per-account health revision and reset epoch that turn concurrent outcomes
into compare-and-set transitions, model-local cooldowns, and hydration from
persisted accounts.

`this.now()` is read once per synchronous call and passed in as `now`.
Functions that return a value and mutate the maps return the pair.
-/

namespace StonePlus.Scheduler

structure AccountRuntimeHealth where
  accountId : JsString
  circuitState : AccountCircuitState
  consecutiveFailures : Nat
  cooldownUntil : Option Millis
  lastFailureAt : Option Millis
  deriving DecidableEq

/-- An open circuit whose cooldown has run out becomes half-open; every other
health is left alone.  `getHealth` and `isAvailable` do this in place. -/
def AccountRuntimeHealth.halfOpened (h : AccountRuntimeHealth) (now : Millis) :
    AccountRuntimeHealth :=
  if h.circuitState = .open ∧ h.cooldownUntil.getD 0 ≤ now then
    { h with circuitState := .halfOpen }
  else h

/-- The result of `setCooldown`, `recordFailure` and `recordSuccess`:
`applied` is false when a newer transition superseded the attempt. -/
structure AccountOutcomeResult where
  health : AccountRuntimeHealth
  applied : Bool
  revision : Nat
  deriving DecidableEq

/-- `expectedRevision` and `expectedResetEpoch` are the generation captured
when the attempt was selected: given, they make the outcome a compare-and-set. -/
structure AccountFailureOptions where
  retryAfterMs : Option Int
  baseDelayMs : Option Millis
  maxDelayMs : Option Millis
  maxConcurrency : Option Rat
  reason : Option CooldownReason
  expectedRevision : Option Nat
  expectedResetEpoch : Option Nat
  deriving DecidableEq

/-- The maps of `PoolScheduler` that hold account health. -/
structure Circuits where
  health : JsMap JsString AccountRuntimeHealth
  healthRevisions : JsMap JsString Nat
  resetEpochs : JsMap JsString Nat
  healthReasons : JsMap JsString CooldownReason
  modelCooldowns : JsMap JsString (JsMap JsString AccountModelCooldown)
  quotaHalfOpenObservations : JsMap JsString Millis
  deriving DecidableEq

namespace Circuits

def init : Circuits := ⟨∅, ∅, ∅, ∅, ∅, ∅⟩

/-! ## Revisions and epochs -/

def getHealthRevision (c : Circuits) (accountId : JsString) : Nat :=
  c.healthRevisions.getD accountId 0

def getResetEpoch (c : Circuits) (accountId : JsString) : Nat := c.resetEpochs.getD accountId 0

def bumpHealthRevision (c : Circuits) (accountId : JsString) : Circuits :=
  { c with healthRevisions := c.healthRevisions.set accountId (c.getHealthRevision accountId + 1) }

def bumpResetEpoch (c : Circuits) (accountId : JsString) : Circuits :=
  { c with resetEpochs := c.resetEpochs.set accountId (c.getResetEpoch accountId + 1) }

def closedHealth (accountId : JsString) : AccountRuntimeHealth :=
  { accountId := accountId, circuitState := .closed, consecutiveFailures := 0,
    cooldownUntil := none, lastFailureAt := none }

def touchHealth (c : Circuits) (accountId : JsString) (now : Millis) : Circuits :=
  match c.health.get? accountId with
  | none => c
  | some h => { c with health := c.health.set accountId (h.halfOpened now) }

def getHealth (c : Circuits) (accountId : JsString) (now : Millis) :
    AccountRuntimeHealth × Circuits :=
  ((((c.touchHealth accountId now).health.get? accountId).getD (closedHealth accountId)),
    c.touchHealth accountId now)

/-- `{ ...this.getHealth(accountId), applied: false, revision }`. -/
def notApplied (c : Circuits) (accountId : JsString) (revision : Nat) (now : Millis) :
    AccountOutcomeResult × Circuits :=
  (⟨(c.getHealth accountId now).1, false, revision⟩, (c.getHealth accountId now).2)

/-- Install a health with its reason and start a new generation. -/
def transition (c : Circuits) (accountId : JsString) (state : AccountRuntimeHealth)
    (reason : CooldownReason) : Circuits :=
  bumpHealthRevision
    { c with health := c.health.set accountId state
             healthReasons := c.healthReasons.set accountId reason } accountId

/-! ## Cooldowns, failures and successes -/

/-- A stale quota observation of the current reset epoch may extend the
circuit; it replays no failure penalty. -/
def mergeQuotaCooldown (c : Circuits) (accountId : JsString) (untilAt : Millis) (revision : Nat)
    (now : Millis) : AccountOutcomeResult × Circuits :=
  let existing := c.health.get? accountId
  if untilAt ≤ (existing.bind AccountRuntimeHealth.cooldownUntil).getD 0 then
    c.notApplied accountId revision now
  else
    let state : AccountRuntimeHealth :=
      { accountId := accountId, circuitState := .open
        consecutiveFailures := (existing.map AccountRuntimeHealth.consecutiveFailures).getD 0
        cooldownUntil := some untilAt
        lastFailureAt := existing.bind AccountRuntimeHealth.lastFailureAt }
    (⟨state, true, c.getHealthRevision accountId + 1⟩, c.transition accountId state .quota)

def setCooldown (c : Circuits) (accountId : JsString) (untilAt : Millis)
    (expectedRevision expectedResetEpoch : Option Nat) (now : Millis) :
    AccountOutcomeResult × Circuits :=
  let revision := c.getHealthRevision accountId
  if expectedResetEpoch.any fun e => decide (e ≠ c.getResetEpoch accountId) then
    c.notApplied accountId revision now
  else if expectedRevision.any fun r => decide (r ≠ revision) then
    if expectedResetEpoch.isSome then c.mergeQuotaCooldown accountId untilAt revision now
    else c.notApplied accountId revision now
  else
    let existing := c.health.get? accountId
    let state : AccountRuntimeHealth :=
      { accountId := accountId, circuitState := .open
        consecutiveFailures := (existing.map AccountRuntimeHealth.consecutiveFailures).getD 0
        cooldownUntil :=
          some (max untilAt ((existing.bind AccountRuntimeHealth.cooldownUntil).getD 0))
        lastFailureAt := existing.bind AccountRuntimeHealth.lastFailureAt }
    (⟨state, true, revision + 1⟩, c.transition accountId state .quota)

/-- `positiveDuration`. -/
def positiveDuration (value : Option Millis) (fallback : Millis) : Millis :=
  match value with
  | some ms => if 0 < ms then ms else fallback
  | none => fallback

/-- Exponential back-off after `consecutiveFailures`, at least `retryAfterMs`. -/
def failureDelayMs (options : AccountFailureOptions) (consecutiveFailures : Nat) : Millis :=
  let baseDelayMs := positiveDuration options.baseDelayMs 30000
  let maxDelayMs := positiveDuration options.maxDelayMs (15 * 60000)
  let exponent := min 20 (consecutiveFailures - 1)
  max (min maxDelayMs (baseDelayMs * 2 ^ exponent)) (max 0 (options.retryAfterMs.getD 0)).toNat

/-- The two early returns of `recordFailure`: an outcome of an older epoch is
dropped, one of an older revision may still extend a quota circuit.  `none`
when the outcome belongs to the current generation. -/
def staleFailure (c : Circuits) (accountId : JsString) (options : AccountFailureOptions)
    (now : Millis) : Option (AccountOutcomeResult × Circuits) :=
  let revision := c.getHealthRevision accountId
  if options.expectedResetEpoch.any fun e => decide (e ≠ c.getResetEpoch accountId) then
    some (c.notApplied accountId revision now)
  else if options.expectedRevision.any fun r => decide (r ≠ revision) then
    if options.reason = some .quota ∧ options.expectedResetEpoch.isSome then
      let consecutiveFailures :=
        max 1 (((c.health.get? accountId).map AccountRuntimeHealth.consecutiveFailures).getD 0)
      some (c.mergeQuotaCooldown accountId (now + failureDelayMs options consecutiveFailures)
        revision now)
    else some (c.notApplied accountId revision now)
  else none

/-- The health transition of an applied `recordFailure`. -/
def applyFailure (c : Circuits) (accountId : JsString) (options : AccountFailureOptions)
    (now : Millis) : AccountOutcomeResult × Circuits :=
  let existing := c.health.get? accountId
  let existingUntil := (existing.bind AccountRuntimeHealth.cooldownUntil).getD 0
  let consecutiveFailures := (existing.map AccountRuntimeHealth.consecutiveFailures).getD 0 + 1
  let state : AccountRuntimeHealth :=
    { accountId := accountId, circuitState := .open
      consecutiveFailures := consecutiveFailures
      -- A generic failure never shortens an already observed quota window.
      cooldownUntil := some (max (now + failureDelayMs options consecutiveFailures) existingUntil)
      lastFailureAt := some now }
  let reason :=
    if c.healthReasons.get? accountId = some .quota ∧ now < existingUntil then .quota
    else options.reason.getD .failure
  (⟨state, true, c.getHealthRevision accountId + 1⟩, c.transition accountId state reason)

def recordSuccess (c : Circuits) (accountId : JsString)
    (expectedRevision expectedResetEpoch : Option Nat) (now : Millis) :
    AccountOutcomeResult × Circuits :=
  let revision := c.getHealthRevision accountId
  let existing := c.health.get? accountId
  let superseded := (expectedRevision.any fun r => decide (r ≠ revision)) ||
    (expectedResetEpoch.any fun e => decide (e ≠ c.getResetEpoch accountId))
  let missingQuotaGeneration := expectedRevision.isNone && existing.isSome &&
    decide (c.healthReasons.get? accountId = some .quota)
  if superseded || missingQuotaGeneration then c.notApplied accountId revision now
  else if existing.isSome then
    (⟨closedHealth accountId, true, revision + 1⟩,
      bumpHealthRevision { c with health := c.health.delete accountId
                                  healthReasons := c.healthReasons.delete accountId } accountId)
  else (⟨closedHealth accountId, true, revision⟩, c)

/-- The health part of `resetHealth`. -/
def resetHealth (c : Circuits) (accountId : JsString) : Circuits :=
  bumpHealthRevision
    (bumpResetEpoch
      { c with health := c.health.delete accountId
               healthReasons := c.healthReasons.delete accountId
               modelCooldowns := c.modelCooldowns.delete accountId
               quotaHalfOpenObservations := c.quotaHalfOpenObservations.delete accountId }
      accountId) accountId

/-! ## Model cooldowns -/

def maxModelCooldownsPerAccount : Nat := 256
def maxModelKeyLength : Nat := 256

def containsControlCharacter (value : JsString) : Bool :=
  value.any fun code => decide (code ≤ 0x1f) || code == 0x7f

def normalizedModelCooldownKey (value : JsString) : Option JsString :=
  let normalized := value.trim
  if normalized = [] ∨ maxModelKeyLength < normalized.length ∨
      containsControlCharacter normalized = true then none
  else some normalized

/-- The checks of `validModelCooldown` that a typed cooldown can still fail. -/
def validModelCooldown (cooldown : AccountModelCooldown) (now : Millis) : Bool :=
  decide (now < cooldown.untilAt) &&
    cooldown.statusCode.all fun code => decide (400 ≤ code ∧ code ≤ 599)

def pruned (cooldowns : JsMap JsString AccountModelCooldown) (now : Millis) :
    JsMap JsString AccountModelCooldown :=
  cooldowns.filterKeys fun model =>
    (cooldowns.get? model).any fun cooldown => validModelCooldown cooldown now

/-- Store an account's cooldown map, dropping the account when it is empty. -/
def putModelCooldowns (c : Circuits) (accountId : JsString)
    (cooldowns : JsMap JsString AccountModelCooldown) : Circuits :=
  { c with modelCooldowns :=
      if cooldowns.size = 0 then c.modelCooldowns.delete accountId
      else c.modelCooldowns.set accountId cooldowns }

/-- The first key with the least `updatedAt`. -/
def oldestModelKey (cooldowns : JsMap JsString AccountModelCooldown) : Option JsString :=
  (cooldowns.entries.foldl
    (fun (best : Option (JsString × Millis)) entry => match best with
      | none => some (entry.1, entry.2.updatedAt)
      | some (key, updatedAt) =>
          if entry.2.updatedAt < updatedAt then some (entry.1, entry.2.updatedAt)
          else some (key, updatedAt)) none).map Prod.fst

/-- Evict oldest-first until the per-account bound holds.  One eviction per
unit of `fuel`; the map's size suffices. -/
def evictModelCooldowns :
    Nat → JsMap JsString AccountModelCooldown → JsMap JsString AccountModelCooldown
  | 0, cooldowns => cooldowns
  | fuel + 1, cooldowns =>
      if maxModelCooldownsPerAccount < cooldowns.size then
        match oldestModelKey cooldowns with
        | none => cooldowns
        | some key => evictModelCooldowns fuel (cooldowns.delete key)
      else cooldowns

/-- The pruning done by `getModelCooldowns`. -/
def pruneModelCooldowns (c : Circuits) (accountId : JsString) (now : Millis) : Circuits :=
  match c.modelCooldowns.get? accountId with
  | none => c
  | some cooldowns => c.putModelCooldowns accountId (pruned cooldowns now)

def recordModelFailure (c : Circuits) (accountId model : JsString)
    (reason : AccountModelCooldownReason) (cooldownMs : Rat) (statusCode : Option Nat)
    (now : Millis) : Circuits :=
  match normalizedModelCooldownKey model with
  | none => c.pruneModelCooldowns accountId now
  | some key =>
      let cooldowns := pruned (c.modelCooldowns.getD accountId ∅) now
      let next : AccountModelCooldown :=
        { untilAt := now + (max 1000 ⌊cooldownMs⌋).toNat, reason := reason
          statusCode := statusCode, updatedAt := now }
      let replaces := match cooldowns.get? key with
        | none => true
        | some existing =>
            decide (existing.updatedAt ≤ next.updatedAt) || decide (existing.untilAt < next.untilAt)
      let cooldowns := if replaces then cooldowns.set key next else cooldowns
      let cooldowns := evictModelCooldowns cooldowns.size cooldowns
      (c.putModelCooldowns accountId cooldowns).pruneModelCooldowns accountId now

/-- An expired model cooldown is dropped on the way. -/
def isModelAvailable (c : Circuits) (accountId model : JsString) (now : Millis) :
    Bool × Circuits :=
  match normalizedModelCooldownKey model with
  | none => (true, c)
  | some key => match c.modelCooldowns.get? accountId with
      | none => (true, c)
      | some cooldowns => match cooldowns.get? key with
          | none => (true, c)
          | some cooldown =>
              if now < cooldown.untilAt then (false, c)
              else (true, c.putModelCooldowns accountId (cooldowns.delete key))

/-! ## The probe of `isAvailable` -/

/-- The health side effects of `isAvailable`: half-open an expired circuit,
then admit at most one half-open probe per reset-less quota observation. -/
def probe (c : Circuits) (account : Account) (now : Millis) : Circuits :=
  let c := c.touchHealth account.id now
  match expiredResetlessQuotaObservation account now with
  | none =>
      { c with quotaHalfOpenObservations := c.quotaHalfOpenObservations.delete account.id }
  | some observation =>
      if c.quotaHalfOpenObservations.get? account.id = some observation then c
      else
        let c := { c with
          quotaHalfOpenObservations := c.quotaHalfOpenObservations.set account.id observation }
        if (c.health.get? account.id).isSome then c
        else
          { c with
            health := c.health.set account.id
              { closedHealth account.id with circuitState := .halfOpen }
            healthReasons := c.healthReasons.set account.id .quota }

/-! ## Hydration -/

def hydrateModelCooldowns (c : Circuits) (account : Account) (now : Millis) : Circuits :=
  let merged := account.modelCooldowns.foldl
    (fun (existing : JsMap JsString AccountModelCooldown) entry =>
      match normalizedModelCooldownKey entry.1 with
      | none => existing
      | some model =>
          if !validModelCooldown entry.2 now then existing
          else match existing.get? model with
            | none => existing.set model entry.2
            | some live =>
                if live.updatedAt ≤ entry.2.updatedAt then existing.set model entry.2 else existing)
    (c.modelCooldowns.getD account.id ∅)
  c.putModelCooldowns account.id (pruned merged now)

/-- The persisted account shows that its circuit was closed by hand after the
live health was recorded. -/
def explicitlyRecovered (account : Account) (live : AccountRuntimeHealth) : Bool :=
  decide (account.status = .active) && decide (account.circuitState ≠ some .open) &&
    decide (account.circuitState ≠ some .halfOpen) && decide (account.cooldownUntil = none) &&
    decide (live.lastFailureAt.getD 0 < account.updatedAt)

def persistedOpen (account : Account) : Bool :=
  decide (account.circuitState = some .open) || decide (account.circuitState = some .halfOpen) ||
    decide (account.status = .cooldown)

/-- The health that hydration installs for a persisted open account. -/
def hydratedHealth (account : Account) : AccountRuntimeHealth :=
  { accountId := account.id
    circuitState := if account.circuitState = some .halfOpen then .halfOpen else .open
    consecutiveFailures := max (if account.cooldownReason = some .quota then 0 else 1)
      (account.consecutiveFailures.getD 0)
    cooldownUntil := account.cooldownUntil
    lastFailureAt := some account.updatedAt }

/-- `hydrate` installs a persisted open circuit without starting a new
generation. -/
def installPersisted (c : Circuits) (account : Account) : Circuits :=
  if persistedOpen account then
    { c with
      health := c.health.set account.id (hydratedHealth account)
      healthReasons := c.healthReasons.set account.id
        (if account.cooldownReason = some .quota then .quota else .failure) }
  else c

/-- Drop the live health of an account that was recovered by hand. -/
def recoverLive (c : Circuits) (accountId : JsString) : Circuits :=
  bumpHealthRevision
    { c with health := c.health.delete accountId
             healthReasons := c.healthReasons.delete accountId
             quotaHalfOpenObservations := c.quotaHalfOpenObservations.delete accountId } accountId

/-- One iteration of the account loop of `hydrate`. -/
def hydrateAccount (now : Millis) (c : Circuits) (account : Account) : Circuits :=
  let c := c.hydrateModelCooldowns account now
  match c.health.get? account.id with
  | none => c.installPersisted account
  | some live =>
      if explicitlyRecovered account live then
        (c.recoverLive account.id).installPersisted account
      else c

/-- Health maps forget the accounts that left the configuration. -/
def retain (c : Circuits) (accountIds : List JsString) : Circuits :=
  let kept (id : JsString) : Bool := decide (id ∈ accountIds)
  { c with
    health := c.health.filterKeys kept
    -- Reasons are dropped together with the health they belong to.
    healthReasons := c.healthReasons.filterKeys fun id => kept id || !c.health.has id
    modelCooldowns := c.modelCooldowns.filterKeys kept
    quotaHalfOpenObservations := c.quotaHalfOpenObservations.filterKeys kept }

/-- The health part of `hydrate`. -/
def hydrate (c : Circuits) (accounts : List Account) (now : Millis) : Circuits :=
  accounts.foldl (hydrateAccount now) (c.retain (accounts.map Account.id))

end Circuits

end StonePlus.Scheduler
