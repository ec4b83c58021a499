import StonePlus.Scheduler.Generations

/-!
# StonePlus.Scheduler.Outcomes

Concurrent outcomes of one generation.

Attempts selected together end in any order, each with a success or with a
quota observation.  The first outcome that is applied starts a new revision,
so the later ones arrive stale: a stale success is dropped, a stale quota
observation extends the circuit if it reaches further.  Whatever the order,
the circuit ends open until the latest observed reset.
-/

namespace StonePlus.Scheduler

/-- How an attempt ends: with a success, or with a quota observation. -/
inductive Outcome
  | success
  | cooldown (untilAt : Millis)
  deriving DecidableEq

namespace Outcome

/-- The reset time that an outcome observed. -/
def resetAt : Outcome → Option Millis
  | success => none
  | cooldown untilAt => some untilAt

/-- Report an outcome at a time, with the generation of its attempt. -/
def report (accountId : JsString) (revision epoch : Nat) (s : PoolScheduler)
    (outcome : Outcome × Millis) : PoolScheduler :=
  match outcome.1 with
  | success => (s.recordSuccess accountId (some revision) (some epoch) outcome.2).2
  | cooldown untilAt => (s.setCooldown accountId untilAt (some revision) (some epoch) outcome.2).2

end Outcome

/-- The runtime circuit of an account is open until `untilAt` for its quota. -/
def QuotaOpen (accountId : JsString) (untilAt : Millis) (c : Circuits) : Prop :=
  (∃ h, c.health.get? accountId = some h ∧ h.circuitState = .open ∧
    h.cooldownUntil = some untilAt) ∧
  c.healthReasons.get? accountId = some .quota

namespace Circuits

/-- When the cooldown of an account ends; zero without one. -/
def cooldownEnd (c : Circuits) (accountId : JsString) : Millis :=
  ((c.health.get? accountId).bind AccountRuntimeHealth.cooldownUntil).getD 0

theorem cooldownUntil_halfOpened (h : AccountRuntimeHealth) (now : Millis) :
    (h.halfOpened now).cooldownUntil = h.cooldownUntil := by
  unfold AccountRuntimeHealth.halfOpened
  split <;> rfl

theorem cooldownEnd_touchHealth (c : Circuits) (accountId : JsString) (now : Millis) :
    (c.touchHealth accountId now).cooldownEnd accountId = c.cooldownEnd accountId := by
  unfold cooldownEnd touchHealth
  cases hget : c.health.get? accountId with
  | none => dsimp only; rw [hget]
  | some h =>
      dsimp only
      rw [JsMap.get?_set_self, Option.bind_some, Option.bind_some, cooldownUntil_halfOpened]

theorem cooldownEnd_of_quotaOpen (h : QuotaOpen accountId untilAt c) :
    c.cooldownEnd accountId = untilAt := by
  obtain ⟨⟨state, hget, -, huntil⟩, -⟩ := h
  rw [cooldownEnd, hget, Option.bind_some, huntil, Option.getD_some]

/-- Reading an open circuit before its end leaves it open. -/
theorem quotaOpen_touchHealth (h : QuotaOpen accountId untilAt c) (hnow : now < untilAt) :
    QuotaOpen accountId untilAt (c.touchHealth accountId now) := by
  obtain ⟨⟨state, hget, hopen, huntil⟩, hreason⟩ := h
  have hsame : state.halfOpened now = state := by
    refine if_neg fun hexpired => ?_
    rw [huntil, Option.getD_some] at hexpired
    exact absurd hexpired.2 (not_le.mpr hnow)
  refine ⟨⟨state, ?_, hopen, huntil⟩, ?_⟩
  · rw [touchHealth, hget]
    dsimp only
    rw [JsMap.get?_set_self, hsame]
  · rw [touchHealth, hget]
    exact hreason

@[simp] theorem getHealthRevision_touchHealth (c : Circuits) (a b : JsString) (now : Millis) :
    (c.touchHealth a now).getHealthRevision b = c.getHealthRevision b := by
  unfold touchHealth
  split <;> rfl

@[simp] theorem getResetEpoch_touchHealth (c : Circuits) (a b : JsString) (now : Millis) :
    (c.touchHealth a now).getResetEpoch b = c.getResetEpoch b := by
  unfold touchHealth
  split <;> rfl

/-- Opening a circuit for a quota starts a new revision in the same epoch. -/
theorem quotaOpen_transition (c : Circuits) (accountId : JsString) (state : AccountRuntimeHealth)
    (hopen : state.circuitState = .open) (huntil : state.cooldownUntil = some untilAt) :
    QuotaOpen accountId untilAt (c.transition accountId state .quota) ∧
      (c.transition accountId state .quota).getHealthRevision accountId =
        c.getHealthRevision accountId + 1 ∧
      (c.transition accountId state .quota).getResetEpoch accountId = c.getResetEpoch accountId := by
  refine ⟨⟨⟨state, ?_, hopen, huntil⟩, ?_⟩, ?_, rfl⟩
  · rw [transition, health_bumpHealthRevision, JsMap.get?_set_self]
  · exact JsMap.get?_set_self ..
  · rw [transition, getHealthRevision_bump, if_pos rfl]
    rfl

/-! ## One outcome -/

/-- No quota observation of the generation has been applied: the cooldown is
not in the future at any of the given times. -/
structure Pending (accountId : JsString) (revision epoch : Nat) (times : List Millis)
    (c : Circuits) : Prop where
  revision_le : revision ≤ c.getHealthRevision accountId
  epoch_eq : c.getResetEpoch accountId = epoch
  elapsed : ∀ now ∈ times, c.cooldownEnd accountId ≤ now

/-- The generation's observations so far reach until `untilAt`. -/
structure Observed (accountId : JsString) (revision epoch : Nat) (untilAt : Millis)
    (c : Circuits) : Prop where
  revision_lt : revision < c.getHealthRevision accountId
  epoch_eq : c.getResetEpoch accountId = epoch
  quotaOpen : QuotaOpen accountId untilAt c

variable {accountId : JsString} {revision epoch : Nat} {times : List Millis} {c : Circuits}

theorem setCooldown_stale (hepoch : c.getResetEpoch accountId = epoch)
    (hrev : c.getHealthRevision accountId ≠ revision) :
    c.setCooldown accountId untilAt (some revision) (some epoch) now =
      c.mergeQuotaCooldown accountId untilAt (c.getHealthRevision accountId) now := by
  simp [setCooldown, hepoch, Ne.symm hrev]

theorem recordSuccess_stale (hrev : c.getHealthRevision accountId ≠ revision) :
    (c.recordSuccess accountId (some revision) (some epoch) now).2 =
      c.touchHealth accountId now := by
  simp [recordSuccess, Ne.symm hrev, notApplied, getHealth]

/-- A success before any observation leaves none. -/
theorem Pending.recordSuccess (h : Pending accountId revision epoch times c) (now : Millis) :
    Pending accountId revision epoch times
      (c.recordSuccess accountId (some revision) (some epoch) now).2 := by
  by_cases hrev : c.getHealthRevision accountId = revision
  · cases hget : c.health.get? accountId with
    | none => simpa [Circuits.recordSuccess, hrev, h.epoch_eq, hget] using h
    | some state =>
        have happlied : (c.recordSuccess accountId (some revision) (some epoch) now).2 =
            bumpHealthRevision { c with
              health := c.health.delete accountId
              healthReasons := c.healthReasons.delete accountId } accountId := by
          simp [Circuits.recordSuccess, hrev, h.epoch_eq, hget]
        rw [happlied]
        refine ⟨?_, h.epoch_eq, fun t ht => ?_⟩
        · rw [getHealthRevision_bump, if_pos rfl]
          exact Nat.le_succ_of_le h.revision_le
        · rw [cooldownEnd, health_bumpHealthRevision, JsMap.get?_delete_self]
          exact Nat.zero_le _
  · rw [recordSuccess_stale hrev]
    refine ⟨?_, ?_, fun t ht => ?_⟩
    · rw [getHealthRevision_touchHealth]; exact h.revision_le
    · rw [getResetEpoch_touchHealth]; exact h.epoch_eq
    · rw [cooldownEnd_touchHealth]; exact h.elapsed t ht

/-- A success after an observation is stale. -/
theorem Observed.recordSuccess (h : Observed accountId revision epoch untilAt c)
    (hnow : now < untilAt) : Observed accountId revision epoch untilAt
      (c.recordSuccess accountId (some revision) (some epoch) now).2 := by
  rw [recordSuccess_stale h.revision_lt.ne']
  refine ⟨?_, ?_, quotaOpen_touchHealth h.quotaOpen hnow⟩
  · rw [getHealthRevision_touchHealth]; exact h.revision_lt
  · rw [getResetEpoch_touchHealth]; exact h.epoch_eq

/-- A merged observation extends the cooldown to the later of both ends. -/
theorem mergeQuotaCooldown_of_lt (rev : Nat) (now : Millis)
    (h : c.cooldownEnd accountId < untilAt) :
    QuotaOpen accountId untilAt (c.mergeQuotaCooldown accountId untilAt rev now).2 ∧
      (c.mergeQuotaCooldown accountId untilAt rev now).2.getHealthRevision accountId =
        c.getHealthRevision accountId + 1 ∧
      (c.mergeQuotaCooldown accountId untilAt rev now).2.getResetEpoch accountId =
        c.getResetEpoch accountId := by
  unfold cooldownEnd at h
  unfold mergeQuotaCooldown
  dsimp only
  rw [if_neg (not_le.mpr h)]
  exact quotaOpen_transition c _ _ rfl rfl

theorem mergeQuotaCooldown_of_le (h : untilAt ≤ c.cooldownEnd accountId) :
    (c.mergeQuotaCooldown accountId untilAt rev now).2 = c.touchHealth accountId now := by
  unfold cooldownEnd at h
  unfold mergeQuotaCooldown
  dsimp only
  rw [if_pos h]
  rfl

/-- The first observation opens the circuit. -/
theorem Pending.setCooldown (h : Pending accountId revision epoch times c) (hmem : now ∈ times)
    (hfuture : now < untilAt) : Observed accountId revision epoch untilAt
      (c.setCooldown accountId untilAt (some revision) (some epoch) now).2 := by
  have hend : c.cooldownEnd accountId < untilAt := (h.elapsed now hmem).trans_lt hfuture
  by_cases hrev : c.getHealthRevision accountId = revision
  · let state : AccountRuntimeHealth := ⟨accountId, .open,
      ((c.health.get? accountId).map AccountRuntimeHealth.consecutiveFailures).getD 0,
      some (max untilAt (c.cooldownEnd accountId)),
      (c.health.get? accountId).bind AccountRuntimeHealth.lastFailureAt⟩
    have hcurrent : (c.setCooldown accountId untilAt (some revision) (some epoch) now).2 =
        c.transition accountId state .quota := by
      simp [Circuits.setCooldown, hrev, h.epoch_eq, state, cooldownEnd]
    have huntil : state.cooldownUntil = some untilAt := congrArg some (max_eq_left hend.le)
    obtain ⟨hopen, hnext, hepoch⟩ := quotaOpen_transition c accountId state rfl huntil
    rw [hcurrent]
    exact ⟨by rw [hnext, hrev]; exact Nat.lt_succ_self _, hepoch.trans h.epoch_eq, hopen⟩
  · rw [setCooldown_stale h.epoch_eq hrev]
    obtain ⟨hopen, hnext, hepoch⟩ :=
      mergeQuotaCooldown_of_lt (c.getHealthRevision accountId) now hend
    exact ⟨by rw [hnext]; exact Nat.lt_succ_of_le h.revision_le, hepoch.trans h.epoch_eq, hopen⟩

/-- A later observation extends the circuit if it reaches further. -/
theorem Observed.setCooldown (h : Observed accountId revision epoch seen c) (hseen : now < seen) :
    Observed accountId revision epoch (max seen untilAt)
      (c.setCooldown accountId untilAt (some revision) (some epoch) now).2 := by
  have hend := cooldownEnd_of_quotaOpen h.quotaOpen
  rw [setCooldown_stale h.epoch_eq h.revision_lt.ne']
  by_cases hle : untilAt ≤ seen
  · rw [mergeQuotaCooldown_of_le (hle.trans_eq hend.symm), max_eq_left hle]
    refine ⟨?_, ?_, quotaOpen_touchHealth h.quotaOpen hseen⟩
    · rw [getHealthRevision_touchHealth]; exact h.revision_lt
    · rw [getResetEpoch_touchHealth]; exact h.epoch_eq
  · obtain ⟨hopen, hnext, hepoch⟩ := mergeQuotaCooldown_of_lt
      (c.getHealthRevision accountId) now (hend.trans_lt (not_le.mp hle))
    rw [max_eq_right (not_le.mp hle).le]
    exact ⟨by rw [hnext]; exact Nat.lt_succ_of_lt h.revision_lt, hepoch.trans h.epoch_eq, hopen⟩

end Circuits

/-! ## All outcomes -/

namespace Outcome

theorem circuits_report (accountId : JsString) (revision epoch : Nat) (s : PoolScheduler)
    (outcome : Outcome × Millis) :
    (report accountId revision epoch s outcome).circuits = match outcome.1 with
      | success => (s.circuits.recordSuccess accountId (some revision) (some epoch) outcome.2).2
      | cooldown untilAt =>
          (s.circuits.setCooldown accountId untilAt (some revision) (some epoch) outcome.2).2 := by
  unfold report
  cases outcome.1 <;> rfl

variable {accountId : JsString} {revision epoch : Nat}

/-- Once a quota was observed, the circuit stays open until the latest reset. -/
theorem observed_foldl {outcomes : List (Outcome × Millis)}
    (h : s.circuits.Observed accountId revision epoch seen) (hseen : ∀ o ∈ outcomes, o.2 < seen) :
    (outcomes.foldl (report accountId revision epoch) s).circuits.Observed accountId revision epoch
      ((outcomes.filterMap fun o => o.1.resetAt).foldl max seen) := by
  induction outcomes generalizing s seen with
  | nil => exact h
  | cons outcome rest ih =>
      obtain ⟨kind, now⟩ := outcome
      obtain ⟨hnow, hrest⟩ := List.forall_mem_cons.mp hseen
      cases kind with
      | success =>
          refine ih ?_ hrest
          rw [circuits_report]
          exact h.recordSuccess hnow
      | cooldown untilAt =>
          have hobserved : Circuits.Observed accountId revision epoch (max seen untilAt)
              (report accountId revision epoch s (.cooldown untilAt, now)).circuits := by
            rw [circuits_report]
            exact h.setCooldown hnow
          exact ih hobserved fun o ho => (hrest o ho).trans_le (le_max_left _ _)

/-- Whatever the order, the circuit ends open until the latest reset. -/
theorem quotaOpen_foldl {outcomes : List (Outcome × Millis)}
    (h : s.circuits.Pending accountId revision epoch (outcomes.map Prod.snd))
    (hfuture : ∀ untilAt ∈ outcomes.filterMap fun o => o.1.resetAt, ∀ o ∈ outcomes, o.2 < untilAt)
    (hmax : (outcomes.filterMap fun o => o.1.resetAt).max? = some untilAt) :
    QuotaOpen accountId untilAt
      (outcomes.foldl (report accountId revision epoch) s).circuits := by
  induction outcomes generalizing s with
  | nil => cases hmax
  | cons outcome rest ih =>
      obtain ⟨kind, now⟩ := outcome
      cases kind with
      | success =>
          have hrest := h.recordSuccess now
          refine ih ⟨?_, ?_, fun t ht => ?_⟩
            (fun u hu o ho => hfuture u hu o (List.mem_cons_of_mem _ ho)) hmax
          all_goals rw [circuits_report]
          · exact hrest.revision_le
          · exact hrest.epoch_eq
          · exact hrest.elapsed t (List.mem_cons_of_mem _ ht)
      | cooldown first =>
          have hfirst : ∀ o ∈ (Outcome.cooldown first, now) :: rest, o.2 < first :=
            hfuture first List.mem_cons_self
          have hopen : Circuits.Observed accountId revision epoch first
              (report accountId revision epoch s (.cooldown first, now)).circuits := by
            rw [circuits_report]
            exact h.setCooldown List.mem_cons_self (hfirst _ List.mem_cons_self)
          have hobserved := observed_foldl hopen
            fun o ho => hfirst o (List.mem_cons_of_mem _ ho)
          cases hmax
          exact hobserved.quotaOpen

/-- Order independence of quota outcomes.  Attempts of one generation, selected
when the account's cooldown was not in the future, end with successes and with
quota observations of future resets.  Reported in any order, the account ends
with its circuit open for its quota until the latest observed reset. -/
theorem quota_outcomes_converge (s : PoolScheduler) (accountId : JsString) (revision : Nat)
    (outcomes : List Outcome) (order : List (Outcome × Millis))
    (hrevision : revision ≤ s.circuits.getHealthRevision accountId)
    (horder : (order.map Prod.fst).Perm outcomes)
    (helapsed : ∀ now ∈ order.map Prod.snd, s.circuits.cooldownEnd accountId ≤ now)
    (hfuture : ∀ untilAt ∈ outcomes.filterMap resetAt, ∀ now ∈ order.map Prod.snd, now < untilAt)
    (hquota : outcomes.filterMap resetAt ≠ []) :
    ∃ latest, (outcomes.filterMap resetAt).max? = some latest ∧
      QuotaOpen accountId latest
        (order.foldl (report accountId revision (s.circuits.getResetEpoch accountId)) s).circuits := by
  have hsame : (order.filterMap fun o => o.1.resetAt).Perm (outcomes.filterMap resetAt) := by
    have hmap : (order.filterMap fun o => o.1.resetAt) =
        (order.map Prod.fst).filterMap resetAt := by rw [List.filterMap_map]; rfl
    rw [hmap]
    exact horder.filterMap resetAt
  obtain ⟨latest, hlatest⟩ := Option.ne_none_iff_exists'.mp (mt List.max?_eq_none_iff.mp hquota)
  refine ⟨latest, hlatest, quotaOpen_foldl ⟨hrevision, rfl, helapsed⟩ (fun u hu o ho => ?_) ?_⟩
  · exact hfuture u (hsame.mem_iff.mp hu) o.2 (List.mem_map_of_mem ho)
  · rw [List.max?_eq_some_iff] at hlatest ⊢
    exact ⟨hsame.mem_iff.mpr hlatest.1, fun u hu => hlatest.2 u (hsame.mem_iff.mp hu)⟩

/-- A success that overtakes two quota observations closes the expired circuit
and starts a new revision; both observations arrive stale. -/
theorem quota_outcomes_converge_after_success :
    let s := ((PoolScheduler.init .default).setCooldown (js "a") 5 none none 0).2
    ∃ latest, ([cooldown 50, cooldown 40, success].filterMap resetAt).max? = some latest ∧
      QuotaOpen (js "a") latest
        ([(success, 10), (cooldown 40, 11), (cooldown 50, 12)].foldl
          (report (js "a") 1 (s.circuits.getResetEpoch (js "a"))) s).circuits :=
  quota_outcomes_converge _ (js "a") 1 [cooldown 50, cooldown 40, success]
    [(success, 10), (cooldown 40, 11), (cooldown 50, 12)] (by decide) (by decide) (by decide)
    (by decide) (by decide)

end Outcome

end StonePlus.Scheduler
