import StonePlus.Scheduler.Frame
import StonePlus.Scheduler.StickyInvariant

/-!
# StonePlus.Scheduler.StickyRuns

The scheduler keeps its sticky cache valid.

Most functions leave the cache alone (`stickyCache_*`); the sticky stages of a selection, a
grant and the failures change it through the operations of the cache (`valid_*`).
-/

namespace StonePlus.Scheduler

open Lib

namespace PoolScheduler

/-! ## Functions that leave the cache alone -/

theorem stickyCache_isAvailable (s : PoolScheduler) (account : Account) (pool : Option Pool)
    (now : Millis) (model : Option JsString) :
    (s.isAvailable account pool now model).2.stickyCache = s.stickyCache := by
  unfold isAvailable
  split <;> rfl

theorem stickyCache_isEligible (s : PoolScheduler) (account : Account) (pool : Pool)
    (adaptive : Bool) (now : Millis) (model : Option JsString) :
    (s.isEligible account pool adaptive now model).2.stickyCache = s.stickyCache := by
  rw [isEligible_eq]
  exact stickyCache_isAvailable ..

theorem stickyCache_filterM (htest : ∀ s account, (test s account).2.stickyCache = s.stickyCache)
    (s : PoolScheduler) (accounts : List Account) :
    (filterM test s accounts).2.stickyCache = s.stickyCache := by
  induction accounts generalizing s with
  | nil => rfl
  | cons account rest ih => exact (ih _).trans (htest s account)

theorem stickyCache_runtimeEligible (input : SchedulerSelectionInput) (now : Millis)
    (s : PoolScheduler) (account : Account) :
    (runtimeEligible input now s account).2.stickyCache = s.stickyCache := by
  unfold runtimeEligible
  split
  · rfl
  · exact stickyCache_isEligible ..

theorem stickyCache_candidates (s : PoolScheduler) (input : SchedulerSelectionInput)
    (now : Millis) : (s.candidates input now).2.stickyCache = s.stickyCache := by
  have hfilter := stickyCache_filterM (stickyCache_runtimeEligible input now)
  rw [candidates_eq]
  dsimp only
  split
  · exact (hfilter _ _).trans (hfilter _ _)
  · exact hfilter _ _

theorem stickyCache_pickCheapest (env : Env) (s : PoolScheduler) (candidates : List Account)
    (stickyKey : Option JsString) (now : Millis) :
    (s.pickCheapest env candidates stickyKey now).2.stickyCache = s.stickyCache := by
  unfold pickCheapest
  dsimp only
  split <;> rfl

theorem stickyCache_pickAutoBalanced (env : Env) (s : PoolScheduler) (candidates : List Account)
    (stickyKey : Option JsString) (now : Millis) :
    (s.pickAutoBalanced env candidates stickyKey now).2.stickyCache = s.stickyCache := by
  unfold pickAutoBalanced
  dsimp only
  split
  · split
    · rfl
    · exact stickyCache_pickCheapest ..
  · exact stickyCache_pickCheapest ..

theorem stickyCache_pick (env : Env) (s : PoolScheduler) (pool : Pool)
    (candidates configuredAccounts : List Account) (stickyKey : Option JsString) (now : Millis) :
    (s.pick env pool candidates configuredAccounts stickyKey now).2.stickyCache =
      s.stickyCache := by
  unfold pick
  cases pool.strategy with
  | priority | balanced | other | roundRobin => rfl
  | autobalanced => exact stickyCache_pickAutoBalanced ..
  | weightedRoundRobin =>
      dsimp only
      unfold pickSmoothWeighted
      dsimp only
      split <;> rfl
  | weightedRandom =>
      dsimp only
      unfold pickWeightedRandom
      dsimp only
      split <;> rfl

theorem stickyCache_capacityBlockedAccountIds (s : PoolScheduler) (input : SchedulerSelectionInput)
    (now : Millis) : (s.capacityBlockedAccountIds input now).2.stickyCache = s.stickyCache := by
  unfold capacityBlockedAccountIds
  refine stickyCache_filterM (fun t account => ?_) s _
  have havailable := stickyCache_isAvailable t account (some input.pool) now
    (SchedulerSelectionInput.cooldownKey input)
  by_cases hexcluded : account.id ∈ input.excludedAccountIds
  · simp only [hexcluded, if_true]
  · simp only [hexcluded, if_false]
    generalize t.isAvailable account (some input.pool) now
      (SchedulerSelectionInput.cooldownKey input) = available at havailable ⊢
    obtain ⟨_ | _, u⟩ := available <;> exact havailable

@[simp] theorem stickyCache_removeCapacityWaiter (s : PoolScheduler) (waiter : CapacityWaiter) :
    (s.removeCapacityWaiter waiter).stickyCache = s.stickyCache := by
  unfold removeCapacityWaiter
  split <;> rfl

theorem stickyCache_rejectCapacityWaiter (s : PoolScheduler) (waiterId : Nat) :
    (s.rejectCapacityWaiter waiterId).stickyCache = s.stickyCache := by
  unfold rejectCapacityWaiter
  split
  · rfl
  · exact stickyCache_removeCapacityWaiter ..

theorem stickyCache_releaseActiveStickySession (s : PoolScheduler) (stickyKey accountId : JsString) :
    (s.releaseActiveStickySession stickyKey accountId).stickyCache = s.stickyCache := by
  unfold releaseActiveStickySession
  split <;> rfl

theorem stickyCache_anyAvailable (pool : Option Pool) (model : JsString) (now : Millis)
    (accounts : List Account) (s : PoolScheduler) :
    (hasUsableAlternative.anyAvailable pool model now accounts s).2.stickyCache =
      s.stickyCache := by
  induction accounts generalizing s with
  | nil => rfl
  | cons account rest ih =>
      have havailable := stickyCache_isAvailable s account pool now (some model)
      unfold hasUsableAlternative.anyAvailable
      generalize s.isAvailable account pool now (some model) = available at havailable ⊢
      obtain ⟨_ | _, t⟩ := available
      · exact (ih t).trans havailable
      · exact havailable

theorem stickyCache_hydratePerformance (env : Env) (s : PoolScheduler) (logs : List RequestLog)
    (now : Millis) : (s.hydratePerformance env logs now).stickyCache = s.stickyCache := by
  have hlogs : ∀ (logs : List RequestLog) (accountId : JsString) (s : PoolScheduler),
      (logs.foldl (fun s log => s.observeOutcome env accountId (decide (log.status = .success))
        (logSample log) log.timestamp false) s).stickyCache = s.stickyCache := by
    intro logs accountId
    induction logs with
    | nil => exact fun s => rfl
    | cons log rest ih => exact fun s => (ih _).trans rfl
  unfold hydratePerformance
  dsimp only
  generalize ((logs.filterMap RequestLog.accountId).filter fun id => id ≠ []).dedup = accountIds
  induction accountIds generalizing s with
  | nil => rfl
  | cons accountId rest ih =>
      rw [List.foldl_cons, ih]
      split
      · rfl
      · exact hlogs ..

/-! ## Selections -/

variable {s : PoolScheduler}

theorem valid_consultAvoidance (h : s.stickyCache.Valid) (stickyKey : JsString)
    (candidates : List Account) (now : Millis) :
    (s.consultAvoidance stickyKey candidates now).2.stickyCache.Valid := by
  unfold consultAvoidance
  split
  · exact h
  · next avoidance hget =>
    split
    · exact h.touchStickyLru
        (StickyCache.recordEntry_of_avoidance (h.toIndexed.sticky_none hget) hget)
    · exact h.deleteAvoidance stickyKey

theorem valid_consultAssignment (env : Env) (h : s.stickyCache.Valid) (pool : Pool)
    (stickyKey : JsString) (candidates : List Account) (failed : Option JsString) (now : Millis) :
    (s.consultAssignment env pool stickyKey candidates failed now).2.stickyCache.Valid := by
  unfold consultAssignment
  split
  · exact h
  · next assignment hget =>
    have htouched := h.touchStickyLru (StickyCache.recordEntry_of_sticky hget)
    split
    · dsimp only
      split
      · exact htouched
      · split
        · exact htouched.deleteSticky stickyKey
        · exact htouched
    · exact h.deleteSticky stickyKey

theorem valid_consultSticky (env : Env) (h : s.stickyCache.Valid) (pool : Pool)
    (stickyKey : Option JsString) (candidates : List Account) (now : Millis) :
    (s.consultSticky env pool stickyKey candidates now).2.stickyCache.Valid := by
  cases stickyKey with
  | none => exact h
  | some key =>
      exact valid_consultAssignment env (valid_consultAvoidance h key candidates now) ..

theorem valid_choose (env : Env) (h : s.stickyCache.Valid) (input : SchedulerSelectionInput)
    (stickyKey : Option JsString) (candidates : List Account) (now : Millis) :
    (s.choose env input stickyKey candidates now).2.stickyCache.Valid := by
  have hconsult := valid_consultSticky env h input.pool stickyKey candidates now
  rw [choose_eq]
  dsimp only
  split
  · exact hconsult
  · rwa [stickyCache_pick]

theorem valid_acquire (h : s.stickyCache.Valid) (pool : Pool) (stickyKey : Option JsString)
    (selected : Account) (now : Millis) :
    (s.acquire pool stickyKey selected now).stickyCache.Valid := by
  cases stickyKey with
  | none => exact h
  | some key => exact (h.deleteAvoidance key).setSticky key _ now

theorem valid_selectAndAcquire (env : Env) (h : s.stickyCache.Valid)
    (input : SchedulerSelectionInput) (now : Millis) :
    (s.selectAndAcquire env input now).2.stickyCache.Valid := by
  unfold selectAndAcquire
  cases assertSupportedStrategy input.pool.strategy with
  | error e => exact h
  | ok _ =>
      have hbegin : (s.beginSelection input.pool now).stickyCache.Valid :=
        h.cleanupExpiredSticky now
      dsimp only
      split_ifs
      · exact hbegin
      · exact hbegin
      · have hcandidates := stickyCache_candidates (s.beginSelection input.pool now) input now
        generalize (s.beginSelection input.pool now).candidates input now = result at hcandidates ⊢
        obtain ⟨candidates, t⟩ := result
        have ht : t.stickyCache.Valid := hcandidates ▸ hbegin
        cases candidates with
        | nil => exact ht
        | cons first rest =>
            have hchoose := valid_choose env ht input (selectionStickyKey input) (first :: rest) now
            dsimp only
            generalize t.choose env input (selectionStickyKey input) (first :: rest) now = choice
              at hchoose ⊢
            obtain ⟨_ | selected, u⟩ := choice
            · exact hchoose
            · exact valid_acquire hchoose input.pool (selectionStickyKey input) selected now

theorem stickyCache_tryAcquireAccount (s : PoolScheduler) (account : Account) (pool : Pool)
    (now : Millis) : (s.tryAcquireAccount account pool now).2.stickyCache = s.stickyCache := by
  unfold tryAcquireAccount
  cases assertSupportedStrategy pool.strategy with
  | error e => rfl
  | ok _ =>
      have heligible := stickyCache_isEligible s account pool (isAdaptive pool) now none
      dsimp only
      generalize s.isEligible account pool (isAdaptive pool) now none = eligible at heligible ⊢
      obtain ⟨_ | _, t⟩ := eligible <;> exact heligible

/-! ## Waiters -/

/-- The scheduler that a waiter's turn leaves. -/
def WaiterOutcome.scheduler : WaiterOutcome → PoolScheduler
  | .keep s => s
  | .reject _ s => s
  | .serve _ s => s

theorem valid_tryWaiter (env : Env) (abortedSignals : List Nat) (now : Millis)
    (h : s.stickyCache.Valid) (waiter : CapacityWaiter) :
    (s.tryWaiter env abortedSignals now waiter).scheduler.stickyCache.Valid := by
  unfold tryWaiter
  split
  · exact (stickyCache_removeCapacityWaiter s waiter).symm ▸ h
  · split
    · exact (stickyCache_removeCapacityWaiter s waiter).symm ▸ h
    · have hselect := valid_selectAndAcquire env h waiter.input now
      generalize s.selectAndAcquire env waiter.input now = result at hselect ⊢
      obtain ⟨e | selection, t⟩ := result
      · have hreject := (stickyCache_removeCapacityWaiter t waiter).symm ▸ hselect
        cases e with
        | noEligibleAccount ids message =>
            have hblocked := stickyCache_capacityBlockedAccountIds t waiter.input now
            dsimp only
            generalize t.capacityBlockedAccountIds waiter.input now = blocked at hblocked ⊢
            obtain ⟨_ | ⟨id, rest⟩, u⟩ := blocked
            · exact (stickyCache_removeCapacityWaiter u waiter).symm ▸ hblocked.symm ▸ hselect
            · exact hblocked.symm ▸ hselect
        | modelNotExposed | unsupportedPoolStrategy | typeError | aborted => exact hreject
      · exact (stickyCache_removeCapacityWaiter t waiter).symm ▸ hselect

theorem valid_fulfillFrom (env : Env) (abortedSignals : List Nat) (now : Millis)
    (accountId : JsString) (ids : List Nat) (h : s.stickyCache.Valid) :
    (fulfillFrom env abortedSignals now accountId ids s).scheduler.stickyCache.Valid := by
  induction ids generalizing s with
  | nil => exact h
  | cons id ids ih =>
      unfold fulfillFrom
      split
      · exact ih h
      · next waiter _ =>
        split
        · exact ih h
        · have htry := valid_tryWaiter env abortedSignals now h waiter
          generalize s.tryWaiter env abortedSignals now waiter = outcome at htry ⊢
          obtain t | ⟨e, t⟩ | ⟨selection, t⟩ := outcome
          · exact ih htry
          · exact ih htry
          · exact htry

theorem valid_fulfillAny (env : Env) (abortedSignals : List Nat) (now : Millis)
    (accountIds : List JsString) (h : s.stickyCache.Valid) :
    (fulfillAny env abortedSignals now accountIds s).scheduler.stickyCache.Valid := by
  induction accountIds generalizing s with
  | nil => exact h
  | cons accountId rest ih =>
      have hfirst : (s.fulfillOneCapacityWaiter env abortedSignals accountId
          now).scheduler.stickyCache.Valid := valid_fulfillFrom env abortedSignals now accountId _ h
      unfold fulfillAny
      dsimp only
      split
      · exact hfirst
      · exact ih hfirst

theorem valid_releasePermit (env : Env) (abortedSignals : List Nat) (h : s.stickyCache.Valid)
    (stickyKey : Option JsString) (accountId : JsString) (now : Millis) :
    (s.releasePermit env abortedSignals stickyKey accountId now).scheduler.stickyCache.Valid := by
  unfold releasePermit releaseAccountSlot fulfillOneCapacityWaiter
  refine valid_fulfillFrom env abortedSignals now accountId _ ?_
  cases stickyKey with
  | none => exact h
  | some key => exact (stickyCache_releaseActiveStickySession s key accountId).symm ▸ h

theorem valid_enqueueCapacityWaiter (env : Env) (abortedSignals : List Nat)
    (h : s.stickyCache.Valid) (input : SchedulerSelectionInput) (accountIds : List JsString)
    (deadlineAt : Millis) (signal : Option Nat) (errorAccountIds : List JsString) (now : Millis) :
    (s.enqueueCapacityWaiter env abortedSignals input accountIds deadlineAt signal errorAccountIds
      now).2.scheduler.stickyCache.Valid := by
  unfold enqueueCapacityWaiter
  dsimp only
  split_ifs
  · exact h
  · exact valid_fulfillAny env abortedSignals now accountIds h

theorem valid_selectAndAcquireWhenAvailable (env : Env) (abortedSignals : List Nat)
    (h : s.stickyCache.Valid) (input : SchedulerSelectionInput) (signal : Option Nat)
    (deadlineAt : Option Millis) (maxWaitMs : Int) (now : Millis) :
    (s.selectAndAcquireWhenAvailable env abortedSignals input signal deadlineAt maxWaitMs
      now).2.scheduler.stickyCache.Valid := by
  unfold selectAndAcquireWhenAvailable
  split
  · exact h
  · have hselect := valid_selectAndAcquire env h input now
    generalize s.selectAndAcquire env input now = result at hselect ⊢
    obtain ⟨e | selection, t⟩ := result
    · cases e with
      | noEligibleAccount ids message =>
          have hblocked := stickyCache_capacityBlockedAccountIds t input now
          dsimp only
          generalize t.capacityBlockedAccountIds input now = blocked at hblocked ⊢
          obtain ⟨_ | ⟨id, rest⟩, u⟩ := blocked
          · exact hblocked.symm ▸ hselect
          · have hu : u.stickyCache.Valid := hblocked.symm ▸ hselect
            dsimp only
            split_ifs
            · exact hu
            · exact valid_enqueueCapacityWaiter env abortedSignals hu ..
      | modelNotExposed | unsupportedPoolStrategy | typeError | aborted => exact hselect
    · exact hselect

/-! ## Outcomes -/

theorem valid_recordFailure (env : Env) (h : s.stickyCache.Valid) (accountId : JsString)
    (options : AccountFailureOptions) (now : Millis) :
    (s.recordFailure env accountId options now).2.stickyCache.Valid := by
  unfold recordFailure
  split
  · exact h
  · exact h.failAccount accountId now

theorem valid_recordPerformance (env : Env) (h : s.stickyCache.Valid) (accountId : JsString)
    (sample : AccountPerformanceSample) (expectedRevision expectedResetEpoch : Option Nat)
    (now : Millis) : (s.recordPerformance env accountId sample expectedRevision expectedResetEpoch
      now).2.stickyCache.Valid := by
  unfold recordPerformance
  split <;> exact h

theorem valid_init (options : PoolSchedulerOptions) : (init options).stickyCache.Valid := by
  have hpos : ∀ (value : Option Rat) (fallback : Nat), 0 < fallback →
      0 < positiveBound value fallback := by
    intro value fallback hfallback
    unfold positiveBound
    split
    · split
      · have : (1 : ℤ) ≤ max 1 ⌊‹Rat›⌋ := le_max_left ..
        omega
      · exact hfallback
    · exact hfallback
  refine StickyCache.valid_init (Nat.lt_min.mpr ⟨hpos _ _ ?_, hpos _ _ ?_⟩) (Nat.min_le_left ..) <;>
    decide

end PoolScheduler

/-! ## Runs -/

namespace System

theorem valid_release (env : Env) {y : System} (h : y.scheduler.stickyCache.Valid) (permit : Nat)
    (now : Millis) : (y.release env permit now).scheduler.stickyCache.Valid := by
  unfold release
  split
  · exact h
  · split
    · exact h
    · rw [scheduler_settle]
      exact PoolScheduler.valid_releasePermit env y.abortedSignals h ..

theorem stickyCache_abort (y : System) (signal : Nat) :
    (y.abort signal).scheduler.stickyCache = y.scheduler.stickyCache := by
  unfold abort
  dsimp only
  generalize (y.scheduler.capacityWaiters.values.filter fun waiter =>
    decide (waiter.signal = some signal)) = listening
  generalize y.scheduler = s
  induction listening generalizing s with
  | nil => rfl
  | cons waiter rest ih =>
      exact (ih _).trans (PoolScheduler.stickyCache_rejectCapacityWaiter s waiter.id)

theorem stickyCache_timeout (y : System) (waiterId : Nat) :
    (y.timeout waiterId).scheduler.stickyCache = y.scheduler.stickyCache := by
  unfold timeout
  split
  · rfl
  · exact PoolScheduler.stickyCache_rejectCapacityWaiter y.scheduler waiterId

/-- Every operation keeps the cache valid. -/
theorem valid_step (env : Env) {y : System} (h : y.scheduler.stickyCache.Valid) (op : Op) :
    (y.step env op).scheduler.stickyCache.Valid := by
  cases op with
  | hydrate accounts pools now => exact h
  | hydratePerformance logs now =>
      exact (PoolScheduler.stickyCache_hydratePerformance env y.scheduler logs now).symm ▸ h
  | selectAndAcquire input now =>
      have hselect := PoolScheduler.valid_selectAndAcquire env h input now
      unfold step
      dsimp only
      generalize y.scheduler.selectAndAcquire env input now = result at hselect ⊢
      obtain ⟨_ | _, s⟩ := result <;> exact hselect
  | selectAndAcquireWhenAvailable input signal deadlineAt maxWaitMs now =>
      have hselect := PoolScheduler.valid_selectAndAcquireWhenAvailable env y.abortedSignals h input
        signal deadlineAt maxWaitMs now
      unfold step
      dsimp only
      generalize y.scheduler.selectAndAcquireWhenAvailable env y.abortedSignals input signal
        deadlineAt maxWaitMs now = result at hselect ⊢
      obtain ⟨_ | _ | _, handoff⟩ := result
      · exact hselect
      · exact hselect
      · exact (scheduler_settle y handoff).symm ▸ hselect
  | tryAcquireAccount account pool now =>
      have htry := PoolScheduler.stickyCache_tryAcquireAccount y.scheduler account pool now
      unfold step
      dsimp only
      generalize y.scheduler.tryAcquireAccount account pool now = result at htry ⊢
      obtain ⟨_ | _ | _, s⟩ := result <;> exact htry.symm ▸ h
  | release permit now => exact valid_release env h permit now
  | abort signal => exact (stickyCache_abort y signal).symm ▸ h
  | timeout waiterId => exact (stickyCache_timeout y waiterId).symm ▸ h
  | recordStickyFailure poolId sessionId accountId now =>
      exact h.recordStickyFailure poolId sessionId accountId now
  | setCooldown accountId untilAt expectedRevision expectedResetEpoch now => exact h
  | recordFailure accountId options now =>
      exact PoolScheduler.valid_recordFailure env h accountId options now
  | recordSuccess accountId expectedRevision expectedResetEpoch now => exact h
  | resetHealth accountId clearPerformance now => exact h
  | recordPerformance accountId sample expectedRevision expectedResetEpoch now =>
      exact PoolScheduler.valid_recordPerformance env h accountId sample expectedRevision
        expectedResetEpoch now
  | recordModelFailure accountId model reason cooldownMs statusCode now => exact h
  | getHealth accountId now => exact h
  | getModelCooldowns accountId now => exact h
  | hasUsableAlternative accounts model accountId pool providers requiredCapabilities
      excludedAccountIds skipAccountModelCatalog now =>
      exact (PoolScheduler.stickyCache_anyAvailable ..).symm ▸ h
  | clear => exact h.clear

theorem valid_run (env : Env) (options : PoolSchedulerOptions) (ops : List Op) :
    (run env (init options) ops).scheduler.stickyCache.Valid :=
  invariant_run (fun y : System => y.scheduler.stickyCache.Valid) (fun _ op h => valid_step env h op)
    (PoolScheduler.valid_init options) ops

/-- The sticky cache of every run represents its records: no key has an assignment and an
avoidance, the recency list and its per-pool lists have exactly the keys with a record under
their kind and pool, an account's keys are the ones assigned to it, the bounds hold, and each
heap is ordered and has the expiry of every live record.  From such a cache the eviction loops
end, with room for an entry, and the clean-up leaves no expired record. -/
theorem stickyCache_invariant (env : Env) (options : PoolSchedulerOptions) (ops : List Op) :
    (run env (init options) ops).scheduler.stickyCache.Valid ∧
      ∀ c : StickyCache, c.Valid →
        (c.sticky.keys ++ c.stickyFailureAvoidance.keys).Perm c.stickyLru.keys ∧
        (∀ poolId more,
          StickyCache.enforcePoolCapacity poolId
              ((c.stickyLruByPool.getD poolId ∅).size + more) c =
            StickyCache.enforcePoolCapacity poolId (c.stickyLruByPool.getD poolId ∅).size c) ∧
        (∀ more, StickyCache.enforceGlobalCapacity (c.stickyLru.size + more) c =
          StickyCache.enforceGlobalCapacity c.stickyLru.size c) ∧
        (∀ poolId,
          ((c.enforceStickyCapacity poolId).stickyLruByPool.getD poolId ∅).size <
              c.maxStickyEntriesPerPool ∧
            (c.enforceStickyCapacity poolId).stickyLru.size < c.maxStickyEntries) ∧
        ∀ now, StickyCache.Fresh now (c.cleanupExpiredSticky now) := by
  refine ⟨valid_run env options ops, fun c hc => ⟨hc.keys_perm, fun poolId more => ?_,
    fun more => ?_, fun poolId => ?_, fun now => ?_⟩⟩
  · exact hc.enforcePoolCapacity_add poolId more
  · exact hc.enforceGlobalCapacity_add more
  · exact (hc.enforceStickyCapacity poolId).2.2
  · exact (hc.toConsistent.cleanupExpiredSticky now).2

end System

end StonePlus.Scheduler
