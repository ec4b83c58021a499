import StonePlus.SourceEligibility

/-!
# StonePlus.Scheduler.Quota

The pure quota predicates at the end of `scheduler.ts`: reserve policies,
exhausted windows, the expired reset-less observation that admits one
half-open probe, and the quota pressure used for ranking.
-/

namespace StonePlus.Scheduler

def defaultCodexQuotaProtectionStaleMs : Millis := 2 * 60 * 60 * 1000

/-- Upstreams occasionally report an exhausted generic quota without a reset
timestamp: authoritative for this long, then one half-open probe. -/
def unknownResetQuotaRecheckMs : Millis := 30000

/-- Only Codex credentials populate `codexQuota`. -/
def accountReportsCodexQuota (account : Account) : Bool :=
  decide (account.credentialType = some .chatgptOauth) ||
    decide (account.credentialType = some .chatgptAgentIdentity)

def clampPercent (value : Rat) : Rat := max 0 (min 100 value)

/-- One window of the reserve policy: an unknown usage follows
`unavailableBehavior`, a known one blocks at or below the reserve. -/
def reserveBlocks (policy : QuotaProtectionPolicy) (reserve usedPercent : Option Rat) : Bool :=
  match reserve with
  | none => false
  | some r => match usedPercent with
      | none => decide (policy.unavailableBehavior = some .block)
      | some used => decide (100 - clampPercent used ≤ clampPercent r)

def quotaProtectionBlocks (quota : Option AccountCodexQuotaSnapshot)
    (policy : Option QuotaProtectionPolicy) (now : Millis) : Bool :=
  match policy with
  | none => false
  | some policy =>
      if policy.fiveHourRemainingPercent = none ∧ policy.sevenDayRemainingPercent = none then false
      else
        let staleAfterMs : Rat := match policy.staleAfterMinutes with
          | some m => if 0 < m then m * 60000 else (defaultCodexQuotaProtectionStaleMs : Rat)
          | none => (defaultCodexQuotaProtectionStaleMs : Rat)
        match quota with
        | none => decide (policy.unavailableBehavior = some .block)
        | some q =>
            if staleAfterMs < (now : Rat) - (q.observedAt : Rat) then
              decide (policy.unavailableBehavior = some .block)
            else
              reserveBlocks policy policy.fiveHourRemainingPercent
                (q.fiveHour.map CodexQuotaWindow.usedPercent) ||
              reserveBlocks policy policy.sevenDayRemainingPercent
                ((q.sevenDay.or q.monthly).map CodexQuotaWindow.usedPercent)

def quotaWindows (account : Account) : List QuotaWindow :=
  match account.quota with
  | none => []
  | some q => [q.requests, q.tokens, q.inputTokens, q.outputTokens].filterMap id

def quotaObservedAt (account : Account) : Millis :=
  (account.quota.bind AccountQuotaSnapshot.observedAt).getD account.updatedAt

def grokQuotaIsZero (account : Account) : Bool :=
  match account.grokQuota with
  | none => false
  | some q =>
      decide (q.remainingPercent = some 0) ||
        (match q.limit with
          | some limit => decide (0 < limit ∧ q.remaining = some 0)
          | none => false)

def grokQuotaExhausted (account : Account) (now : Millis) : Bool :=
  match account.grokQuota with
  | none => false
  | some q =>
      if !grokQuotaIsZero account then false
      else match q.resetAt with
        | some resetAt => decide (now < resetAt)
        | none => decide (now < q.observedAt + unknownResetQuotaRecheckMs)

def quotaExhausted (account : Account) (now : Millis) : Bool :=
  grokQuotaExhausted account now ||
    (quotaWindows account).any fun window =>
      decide (window.remaining = some 0) &&
        (match window.resetAt with
          | some resetAt => decide (now < resetAt)
          | none => decide (now < quotaObservedAt account + unknownResetQuotaRecheckMs))

/-- The observation time of an exhausted quota without reset time whose
recheck interval has passed. -/
def expiredResetlessQuotaObservation (account : Account) (now : Millis) : Option Millis :=
  let genericResetless := (quotaWindows account).any fun window =>
    decide (window.remaining = some 0) && decide (window.resetAt = none)
  let grokResetless := grokQuotaIsZero account &&
    decide (account.grokQuota.bind AccountGrokQuotaSnapshot.resetAt = none)
  if !genericResetless && !grokResetless then none
  else
    let observedAt :=
      if grokResetless then
        (account.grokQuota.map AccountGrokQuotaSnapshot.observedAt).getD (quotaObservedAt account)
      else quotaObservedAt account
    if observedAt + unknownResetQuotaRecheckMs ≤ now then some observedAt else none

/-- A ratio clamped to the unit interval. -/
def unitClamp (value : Rat) : Rat := max 0 (min 1 value)

/-- How close the account is to exhausting its fullest live window, in `[0, 1]`. -/
def quotaPressure (account : Account) (now : Millis) : Rat :=
  let codex := match account.codexQuota with
    | none => 0
    | some q =>
        if now ≤ q.observedAt + defaultCodexQuotaProtectionStaleMs then
          ([q.fiveHour, q.sevenDay, q.monthly].filterMap id).foldl
            (fun pressure window =>
              if window.resetAt.any fun t => decide (t ≤ now) then pressure
              else max pressure (unitClamp (window.usedPercent / 100))) 0
        else 0
  let grok := match account.grokQuota with
    | none => codex
    | some q =>
        if q.resetAt.any fun t => decide (t ≤ now) then codex
        else match q.remainingPercent with
          | some percent => max codex (unitClamp (1 - percent / 100))
          | none => match q.limit, q.remaining with
              | some limit, some remaining =>
                  if 0 < limit then max codex (unitClamp (1 - remaining / limit)) else codex
              | _, _ => codex
  (quotaWindows account).foldl
    (fun pressure window =>
      if window.resetAt.any fun t => decide (t ≤ now) then pressure
      else if window.resetAt = none ∧ quotaObservedAt account + unknownResetQuotaRecheckMs ≤ now then
        pressure
      else match window.limit, window.remaining with
        | some limit, some remaining =>
            if 0 < limit then max pressure (unitClamp (1 - remaining / limit)) else pressure
        | _, _ => pressure) grok

/-- `Math.round`. -/
def mathRound (value : Rat) : Int := ⌊value + 1 / 2⌋

def effectivePriority (account : Account) (now : Millis) : Rat :=
  account.priority + (mathRound (quotaPressure account now * 1000) : Rat)

def effectiveWeight (account : Account) (now : Millis) : Rat :=
  max 0 account.weight * max (1 / 20) (1 - quotaPressure account now)

end StonePlus.Scheduler
