import StonePlus.Scheduler.Permits

/-!
# StonePlus.Scheduler.Backoff

Adaptive concurrency: additive increase, multiplicative decrease.

The learned counter of an account is halved by every applied failure and
raised by every eighth success in a row.  Only the limit in force is clamped
to the configured limit, the counter is not: after enough successes it stands
above the configured limit, and a failure that halves it may leave the limit
in force where it was.
-/

namespace StonePlus.Scheduler

namespace PoolScheduler

/-! ## The learned counter -/

/-- The learned concurrency counter of an account. -/
def dynamicConcurrency (s : PoolScheduler) (accountId : JsString) : Option Int :=
  (s.performance.get? accountId).bind AccountPerformanceState.dynamicConcurrency

/-- The configured limit of an account. -/
abbrev configuredLimit (account : Account) : Int :=
  routeAccountConcurrencyLimit account.maxConcurrency

theorem one_le_configuredLimit (account : Account) : 1 ≤ configuredLimit account :=
  one_le_routeAccountConcurrencyLimit account.maxConcurrency

/-- The adaptive limit clamps the counter between one and the configured limit. -/
theorem concurrencyLimit_adaptive (s : PoolScheduler) (account : Account) :
    s.concurrencyLimit account true = max 1 (min (configuredLimit account)
      ((s.dynamicConcurrency account.id).getD (configuredLimit account))) := by
  have hcast (n : Int) : routeAccountConcurrencyLimit (n : Rat) = max 1 n := by
    rw [routeAccountConcurrencyLimit, Int.floor_intCast]
  have hlimit : s.concurrencyLimit account true = max 1 (min (configuredLimit account)
      (routeAccountConcurrencyLimit (((s.dynamicConcurrency account.id).getD
        (configuredLimit account) : Int) : Rat))) := rfl
  have hone := one_le_configuredLimit account
  rw [hlimit, hcast]
  generalize (s.dynamicConcurrency account.id).getD (configuredLimit account) = learned
  generalize configuredLimit account = configured at hone ⊢
  omega

/-- Halving the configured number of slots and halving the limit agree. -/
theorem floor_half_maxConcurrency (maxConcurrency : Rat) :
    ⌊max 1 maxConcurrency / 2⌋ = routeAccountConcurrencyLimit maxConcurrency / 2 := by
  have hfloor : ⌊max 1 maxConcurrency⌋ = routeAccountConcurrencyLimit maxConcurrency := by
    rw [routeAccountConcurrencyLimit, Int.floor_mono.map_max, Int.floor_one]
  rw [← hfloor]
  exact_mod_cast Int.floor_div_natCast (max 1 maxConcurrency) 2

/-- A failure of the current generation halves the counter, or the configured
limit when nothing was learned yet. -/
theorem dynamicConcurrency_recordFailure {s : PoolScheduler}
    (hmax : options.maxConcurrency = some account.maxConcurrency)
    (hcurrent : s.circuits.staleFailure account.id options now = none) :
    (s.recordFailure env account.id options now).2.dynamicConcurrency account.id =
      some (max 1 ((s.dynamicConcurrency account.id).getD (configuredLimit account) / 2)) := by
  have hperformance : (s.recordFailure env account.id options now).2.performance.get? account.id =
      some (backedOff (s.performance.get? account.id) options.maxConcurrency
        (observedState env (s.performance.get? account.id)
          ((s.circuits.applyFailure account.id options now).2.getHealthRevision account.id)
          ((s.circuits.applyFailure account.id options now).2.getResetEpoch account.id) false
          AccountPerformanceSample.none now true)) := by
    unfold recordFailure observeOutcome
    rw [hcurrent]
    dsimp only
    rw [JsMap.get?_set_self]
    exact JsMap.get?_set_self ..
  rw [dynamicConcurrency, hperformance, hmax]
  change some (max 1 _) = some (max 1 _)
  rw [Option.some_inj]
  congr 1
  unfold dynamicConcurrency
  cases (s.performance.get? account.id).bind AccountPerformanceState.dynamicConcurrency with
  | none => exact floor_half_maxConcurrency account.maxConcurrency
  | some learned => rfl

/-! ## Back-off -/

/-- The counter does not stand above the configured limit, except where
halving either of them gives the same. -/
def CounterWithin (account : Account) (s : PoolScheduler) : Prop :=
  ∀ learned, s.dynamicConcurrency account.id = some learned →
    learned ≤ configuredLimit account ∨ configuredLimit account = 1 ∨
      (learned = configuredLimit account + 1 ∧ configuredLimit account % 2 = 0)

/-- A failure of the current generation halves the adaptive limit in force
exactly when the counter stood within the configured limit. -/
theorem backoff_iff {s : PoolScheduler}
    (hmax : options.maxConcurrency = some account.maxConcurrency)
    (hcurrent : s.circuits.staleFailure account.id options now = none) :
    (s.recordFailure env account.id options now).2.concurrencyLimit account true ≤
      max 1 (s.concurrencyLimit account true / 2) ↔ CounterWithin account s := by
  rw [concurrencyLimit_adaptive, concurrencyLimit_adaptive,
    dynamicConcurrency_recordFailure hmax hcurrent, Option.getD_some]
  have hone := one_le_configuredLimit account
  unfold CounterWithin
  generalize configuredLimit account = configured at hone ⊢
  cases s.dynamicConcurrency account.id with
  | none => simp only [Option.getD_none, reduceCtorEq, false_imp_iff, implies_true, iff_true]; omega
  | some learned => simp only [Option.getD_some, Option.some_inj, forall_eq']; omega

end PoolScheduler

namespace System

/-- A failure reported for the account with its configured concurrency, of the
generation the account is in.  (A stale quota observation is merged into the
circuit and carries no adaptive penalty.) -/
def FailsCurrent (account : Account) (y : System) : Op → Prop
  | .recordFailure accountId options now => accountId = account.id ∧
      options.maxConcurrency = some account.maxConcurrency ∧
      y.scheduler.circuits.staleFailure accountId options now = none
  | _ => False

/-- If the step is such a failure, it halves the adaptive limit. -/
def FailureBites (env : Env) (account : Account) (y : System) (op : Op) : Prop :=
  FailsCurrent account y op →
    (y.step env op).scheduler.concurrencyLimit account true ≤
      max 1 (y.scheduler.concurrencyLimit account true / 2)

/-- If the step is such a failure, the counter stands within the configured
limit. -/
def FailsWithin (account : Account) (y : System) (op : Op) : Prop :=
  FailsCurrent account y op → y.scheduler.CounterWithin account

theorem failureBites_iff (env : Env) (account : Account) (y : System) (op : Op) :
    FailureBites env account y op ↔ FailsWithin account y op := by
  refine forall_congr' fun hfails => ?_
  cases op with
  | recordFailure accountId options now =>
      obtain ⟨rfl, hmax, hcurrent⟩ := hfails
      exact PoolScheduler.backoff_iff hmax hcurrent
  | _ => exact hfails.elim

end System

end StonePlus.Scheduler
