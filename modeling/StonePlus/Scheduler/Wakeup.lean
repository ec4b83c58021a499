import StonePlus.Scheduler.Generations

/-!
# StonePlus.Scheduler.Wakeup

Hand-off and wake-up of capacity waiters.

A release walks the queue once and stops at the first waiter it can serve.
Trying a waiter checks availability, and a check may half-open a circuit or
admit a probe; what makes one pass enough is that, at a fixed time, looking
and granting only ever take availability away (`Tightens`).  A waiter that
could not be served when it was tried can therefore not be served when the
release returns.
-/

namespace StonePlus.Scheduler

namespace Circuits

/-! ## Availability is lost, not gained -/

/-- The stored cooldown of a model on an account. -/
def modelCooldown (c : Circuits) (accountId key : JsString) : Option AccountModelCooldown :=
  (c.modelCooldowns.getD accountId ∅).get? key

theorem modelCooldown_putModelCooldowns (c : Circuits) (a b key : JsString)
    (cooldowns : JsMap JsString AccountModelCooldown) :
    (c.putModelCooldowns a cooldowns).modelCooldown b key =
      if b = a then cooldowns.get? key else c.modelCooldown b key := by
  unfold modelCooldown putModelCooldowns
  dsimp only
  split
  · next hsize =>
      have hempty : cooldowns.get? key = none := by
        rw [JsMap.get?_eq_none_iff, List.eq_nil_of_length_eq_zero (cooldowns.length_keys.trans hsize)]
        exact List.not_mem_nil
      rw [JsMap.getD_delete, hempty]
      split <;> rfl
  · rw [JsMap.getD_set]
    split <;> rfl

/-- A cooldown of the model is in force on the account. -/
def modelBlocked (c : Circuits) (accountId : JsString) (model : Option JsString) (now : Millis) :
    Prop :=
  ∃ m key cooldown, model = some m ∧ m ≠ [] ∧ normalizedModelCooldownKey m = some key ∧
    c.modelCooldown accountId key = some cooldown ∧ now < cooldown.untilAt

theorem isModelAvailable_eq (c : Circuits) (accountId model : JsString) (now : Millis) :
    c.isModelAvailable accountId model now =
      match normalizedModelCooldownKey model with
      | none => (true, c)
      | some key => match c.modelCooldown accountId key with
          | none => (true, c)
          | some cooldown =>
              if now < cooldown.untilAt then (false, c)
              else (true, c.putModelCooldowns accountId
                ((c.modelCooldowns.getD accountId ∅).delete key)) := by
  unfold isModelAvailable modelCooldown
  cases normalizedModelCooldownKey model with
  | none => rfl
  | some key =>
      dsimp only
      rw [JsMap.getD]
      cases c.modelCooldowns.get? accountId <;> rfl

/-- Only a blocked model closes the gate. -/
theorem modelGate_eq_false_iff (c : Circuits) (account : Account) (model : Option JsString)
    (now : Millis) :
    (PoolScheduler.modelGate c account model now).1 = false ↔
      c.modelBlocked account.id model now := by
  unfold PoolScheduler.modelGate modelBlocked
  cases model with
  | none => simp
  | some m =>
      by_cases hm : m = []
      · simp [hm]
      · simp only [hm, if_false, isModelAvailable_eq]
        cases hkey : normalizedModelCooldownKey m with
        | none => simp [hkey]
        | some key =>
            cases hcd : c.modelCooldown account.id key with
            | none => simp [hm, hkey, hcd]
            | some cooldown =>
                by_cases hnow : now < cooldown.untilAt <;> simp [hm, hkey, hcd, hnow]

/-- The gate leaves the circuits alone or drops one expired cooldown. -/
theorem modelGate_snd (c : Circuits) (account : Account) (model : Option JsString)
    (now : Millis) :
    (PoolScheduler.modelGate c account model now).2 = c ∨
      ∃ key cooldown, c.modelCooldown account.id key = some cooldown ∧ cooldown.untilAt ≤ now ∧
        (PoolScheduler.modelGate c account model now).2 = c.putModelCooldowns account.id
          ((c.modelCooldowns.getD account.id ∅).delete key) := by
  unfold PoolScheduler.modelGate
  cases model with
  | none => exact .inl rfl
  | some m =>
      dsimp only
      split
      · exact .inl rfl
      · rw [isModelAvailable_eq]
        split
        · exact .inl rfl
        · next key _ =>
            split
            · exact .inl rfl
            · next cooldown hcd =>
                split
                · exact .inl rfl
                · next hexpired => exact .inr ⟨key, cooldown, hcd, not_lt.mp hexpired, rfl⟩

theorem modelGate_frame (c : Circuits) (account : Account) (model : Option JsString)
    (now : Millis) :
    (PoolScheduler.modelGate c account model now).2.health = c.health ∧
      (PoolScheduler.modelGate c account model now).2.quotaHalfOpenObservations =
        c.quotaHalfOpenObservations := by
  rcases modelGate_snd c account model now with h | ⟨_, _, -, -, h⟩ <;> rw [h] <;> exact ⟨rfl, rfl⟩

/-- A blocked model stays blocked by any gate. -/
theorem modelBlocked_modelGate (h : c.modelBlocked accountId model now) (account : Account)
    (other : Option JsString) :
    (PoolScheduler.modelGate c account other now).2.modelBlocked accountId model now := by
  rcases modelGate_snd c account other now with hsame | ⟨key, expired, hexpired, hpast, hput⟩
  · rwa [hsame]
  · obtain ⟨m, key', cooldown, hm, hne, hkey, hcd, hnow⟩ := h
    refine ⟨m, key', cooldown, hm, hne, hkey, ?_, hnow⟩
    rw [hput, modelCooldown_putModelCooldowns]
    split
    · next hid =>
        subst hid
        -- the dropped cooldown is not the one in force
        have hkeys : key' ≠ key := by
          rintro rfl
          cases hcd.symm.trans hexpired
          exact absurd hpast (not_le.mpr hnow)
        rw [JsMap.get?_delete_of_ne _ hkeys]
        exact hcd
    · exact hcd

/-- The runtime health keeps an account from serving. -/
def healthBlocks (h : AccountRuntimeHealth) (now : Millis) (busy : Bool) : Bool :=
  decide (now < h.cooldownUntil.getD 0) || (decide (h.circuitState ≠ .closed) && busy)

/-- The circuits keep an account from serving: its health does, or asking for
it would admit a half-open probe while it is busy. -/
def holds (c : Circuits) (account : Account) (now : Millis) (busy : Bool) : Bool :=
  match c.health.get? account.id with
  | some h => healthBlocks h now busy
  | none => busy && (expiredResetlessQuotaObservation account now).any fun observation =>
      decide (c.quotaHalfOpenObservations.get? account.id ≠ some observation)

theorem healthBlocks_halfOpened (h : AccountRuntimeHealth) (now : Millis) (busy : Bool) :
    healthBlocks (h.halfOpened now) now busy = healthBlocks h now busy := by
  unfold AccountRuntimeHealth.halfOpened healthBlocks
  split
  · next hexpired => simp [hexpired.1]
  · rfl

theorem healthBlocks_mono (hbusy : busy = true → busy' = true)
    (hblocks : healthBlocks h now busy = true) : healthBlocks h now busy' = true := by
  unfold healthBlocks at hblocks ⊢
  cases busy <;> cases busy' <;> simp_all

theorem holds_mono {c : Circuits} (hbusy : busy = true → busy' = true)
    (h : c.holds account now busy = true) : c.holds account now busy' = true := by
  unfold holds at h ⊢
  split at h
  · exact healthBlocks_mono hbusy h
  · rw [Bool.and_eq_true] at h ⊢
    exact ⟨hbusy h.1, h.2⟩

theorem health_touchHealth (c : Circuits) (a b : JsString) (now : Millis) :
    (c.touchHealth a now).health.get? b =
      if b = a then (c.health.get? a).map fun h => h.halfOpened now else c.health.get? b := by
  unfold touchHealth
  cases hget : c.health.get? a with
  | none =>
      by_cases hb : b = a
      · rw [if_pos hb, hb]; exact hget
      · rw [if_neg hb]
  | some h => exact JsMap.get?_set ..

theorem observations_touchHealth (c : Circuits) (a : JsString) (now : Millis) :
    (c.touchHealth a now).quotaHalfOpenObservations = c.quotaHalfOpenObservations := by
  unfold touchHealth
  split <;> rfl

theorem modelCooldowns_probe (c : Circuits) (account : Account) (now : Millis) :
    (c.probe account now).modelCooldowns = c.modelCooldowns := by
  have htouch : (c.touchHealth account.id now).modelCooldowns = c.modelCooldowns := by
    unfold touchHealth
    split <;> rfl
  unfold probe
  dsimp only
  split
  · exact htouch
  · split
    · exact htouch
    · split <;> exact htouch

/-- The health of an account after its probe. -/
theorem health_probe (c : Circuits) (account : Account) (now : Millis) :
    (c.probe account now).health.get? account.id =
      match c.health.get? account.id with
      | some h => some (h.halfOpened now)
      | none =>
          if (expiredResetlessQuotaObservation account now).any fun observation =>
            decide (c.quotaHalfOpenObservations.get? account.id ≠ some observation)
          then some { closedHealth account.id with circuitState := .halfOpen } else none := by
  have htouch := health_touchHealth c account.id account.id now
  rw [if_pos rfl] at htouch
  unfold probe
  dsimp only
  rw [observations_touchHealth]
  cases hget : c.health.get? account.id with
  | some h =>
      rw [hget] at htouch
      cases hobs : expiredResetlessQuotaObservation account now with
      | none => exact htouch
      | some observation =>
          dsimp only
          split
          · exact htouch
          · rw [htouch]
            exact htouch
  | none =>
      rw [hget] at htouch
      cases hobs : expiredResetlessQuotaObservation account now with
      | none => exact htouch
      | some observation =>
          dsimp only
          split
          · next hsame => rw [htouch, Option.any_some, hsame]; simp
          · next hnew =>
              rw [htouch, Option.any_some, decide_eq_true hnew]
              exact JsMap.get?_set_self ..

/-- A probe records the observation of the record it was made for. -/
theorem observation_probe (c : Circuits) (account : Account) (now : Millis) :
    (c.probe account now).quotaHalfOpenObservations.get? account.id =
      expiredResetlessQuotaObservation account now := by
  unfold probe
  dsimp only
  cases expiredResetlessQuotaObservation account now with
  | none => exact JsMap.get?_delete_self ..
  | some observation =>
      dsimp only
      split
      · next hsame => exact hsame
      · split <;> exact JsMap.get?_set_self ..

theorem probe_of_ne (c : Circuits) (now : Millis) (h : accountId ≠ account.id) :
    (c.probe account now).health.get? accountId = c.health.get? accountId ∧
      (c.probe account now).quotaHalfOpenObservations.get? accountId =
        c.quotaHalfOpenObservations.get? accountId := by
  have htouch := health_touchHealth c account.id accountId now
  rw [if_neg h] at htouch
  have hobserved : (c.touchHealth account.id now).quotaHalfOpenObservations.get? accountId =
      c.quotaHalfOpenObservations.get? accountId := by rw [observations_touchHealth]
  unfold probe
  dsimp only
  split
  · exact ⟨htouch, (JsMap.get?_delete_of_ne _ h).trans hobserved⟩
  · split
    · exact ⟨htouch, hobserved⟩
    · split
      · exact ⟨htouch, (JsMap.get?_set_of_ne _ _ h).trans hobserved⟩
      · exact ⟨(JsMap.get?_set_of_ne _ _ h).trans htouch,
          (JsMap.get?_set_of_ne _ _ h).trans hobserved⟩

/-- A probe frees no account. -/
theorem holds_probe (c : Circuits) (account other : Account) (now : Millis) (busy : Bool)
    (h : c.holds account now busy = true) : (c.probe other now).holds account now busy = true := by
  by_cases hid : account.id = other.id
  · have hprobe := health_probe c other now
    unfold holds at h ⊢
    rw [hid] at h ⊢
    cases hget : c.health.get? other.id with
    | some state =>
        rw [hget] at hprobe h
        rw [hprobe]
        exact (healthBlocks_halfOpened ..).trans h
    | none =>
        rw [hget] at hprobe h
        obtain ⟨hbusy, hobserved⟩ := Bool.and_eq_true_iff.mp h
        by_cases hprobes : ((expiredResetlessQuotaObservation other now).any fun observation =>
            decide (c.quotaHalfOpenObservations.get? other.id ≠ some observation)) = true
        · rw [hprobe.trans (if_pos hprobes)]
          simp [healthBlocks, hbusy]
        · rw [hprobe.trans (if_neg hprobes), observation_probe]
          refine Bool.and_eq_true_iff.mpr ⟨hbusy, ?_⟩
          cases hobs : expiredResetlessQuotaObservation other now with
          | none =>
              obtain ⟨observation, hsome, -⟩ := (Option.any_eq_true _ _).mp hobserved
              simp [hsome]
          | some observation =>
              rw [hobs, Option.any_some, decide_eq_true_eq, not_not] at hprobes
              rwa [← hprobes]
  · obtain ⟨hhealth, hobserved⟩ := probe_of_ne c now hid
    unfold holds at h ⊢
    rwa [hhealth, hobserved]

/-- After the probe, the health alone decides what the circuits decided before. -/
theorem holds_eq (c : Circuits) (account : Account) (now : Millis) (busy : Bool) :
    (decide (now < (((c.probe account now).health.get? account.id).bind
        AccountRuntimeHealth.cooldownUntil).getD 0) ||
      (decide (((c.probe account now).health.get? account.id).map
        AccountRuntimeHealth.circuitState = some .halfOpen) && busy)) =
      c.holds account now busy := by
  rw [health_probe]
  unfold holds
  cases c.health.get? account.id with
  | some h =>
      dsimp only
      rw [Option.bind_some, Option.map_some]
      unfold AccountRuntimeHealth.halfOpened healthBlocks
      cases hstate : h.circuitState with
      | closed => simp [hstate]
      | halfOpen => simp [hstate]
      | «open» =>
          by_cases hpast : h.cooldownUntil.getD 0 ≤ now
          · simp [hpast]
          · simp [hstate, hpast, not_le.mp hpast]
  | none =>
      dsimp only
      split
      · next hprobes => rw [hprobes]; simp [closedHealth]
      · next hquiet => rw [Bool.not_eq_true] at hquiet; rw [hquiet]; simp

/-- No availability check frees an account. -/
theorem holds_check {c : Circuits} (h : c.holds account now busy = true) (other : Account)
    (model : Option JsString) : (c.check other model now).holds account now busy = true := by
  have hgate : (PoolScheduler.modelGate c other model now).2.holds account now busy = true := by
    obtain ⟨hhealth, hobserved⟩ := modelGate_frame c other model now
    unfold holds at h ⊢
    rwa [hhealth, hobserved]
  unfold check
  generalize PoolScheduler.modelGate c other model now = gate at hgate ⊢
  obtain ⟨_ | _, d⟩ := gate
  · exact hgate
  · exact holds_probe d account other now busy hgate

/-- No availability check unblocks a model. -/
theorem modelBlocked_check {c : Circuits} (h : c.modelBlocked accountId model now)
    (other : Account) (otherModel : Option JsString) :
    (c.check other otherModel now).modelBlocked accountId model now := by
  have hgate := modelBlocked_modelGate h other otherModel
  unfold check
  generalize PoolScheduler.modelGate c other otherModel now = gate at hgate ⊢
  obtain ⟨_ | _, d⟩ := gate
  · exact hgate
  · obtain ⟨m, key, cooldown, hm, hne, hkey, hcd, hnow⟩ := hgate
    refine ⟨m, key, cooldown, hm, hne, hkey, ?_, hnow⟩
    change ((d.probe other now).modelCooldowns.getD accountId ∅).get? key = _
    rw [modelCooldowns_probe]
    exact hcd

/-- Whatever keeps an account from serving survives every check of the moment. -/
theorem holds_checked (hchecked : Checked now c d) (h : c.holds account now busy = true) :
    d.holds account now busy = true := by
  induction hchecked with
  | refl => exact h
  | tail _ hcheck ih =>
      obtain ⟨other, model, rfl⟩ := hcheck
      exact holds_check ih other model

theorem modelBlocked_checked (hchecked : Checked now c d) (h : c.modelBlocked accountId model now) :
    d.modelBlocked accountId model now := by
  induction hchecked with
  | refl => exact h
  | tail _ hcheck ih =>
      obtain ⟨other, otherModel, rfl⟩ := hcheck
      exact modelBlocked_check ih other otherModel

end Circuits

namespace PoolScheduler

/-! ## Tightening -/

/-- `t` differs from `s` by looking at `now`, by queue changes and by permits
taken, so nothing became available in between. -/
structure Tightens (now : Millis) (s t : PoolScheduler) : Prop where
  checked : Circuits.Checked now s.circuits t.circuits
  performance_eq : t.performance = s.performance
  active_le : ∀ a, s.activeCount a ≤ t.activeCount a

namespace Tightens

variable {now : Millis} {s t u : PoolScheduler}

theorem refl (now : Millis) (s : PoolScheduler) : Tightens now s s :=
  ⟨.refl, rfl, fun _ => le_refl _⟩

theorem trans (h : Tightens now s t) (h' : Tightens now t u) : Tightens now s u :=
  ⟨h.checked.trans h'.checked, h'.performance_eq.trans h.performance_eq,
    fun a => (h.active_le a).trans (h'.active_le a)⟩

theorem of_keeps (h : Keeps now s t) : Tightens now s t where
  checked := h.checked
  performance_eq := eq_of_counters PoolScheduler.performance (fun _ => rfl) h.counters_eq
  active_le a := (eq_of_counters (fun u => u.activeCount a) (fun _ => rfl) h.counters_eq).ge

theorem of_looks (h : Looks now s t) : Tightens now s t := of_keeps h.keeps

theorem of_grants (h : s.Grants now account stickyKey adaptive t) : Tightens now s t where
  checked := h.checked
  performance_eq := by
    have hsame := eq_of_counters PoolScheduler.performance (fun _ => rfl) h.counters_eq
    rw [hsame]
    cases stickyKey <;> rfl
  active_le a := by
    have hsame := eq_of_counters (fun u => u.activeCount a) (fun _ => rfl) h.counters_eq
    rw [hsame, activeCount_takePermit]
    split
    · next ha => rw [ha]; exact Nat.le_succ _
    · exact le_refl _

/-- The account is in flight at least as much as before. -/
theorem inFlight_le (h : Tightens now s t) (account : Account) :
    s.inFlight account ≤ t.inFlight account := by
  have hcount : (s.activeCount account.id : Rat) ≤ t.activeCount account.id := by
    exact_mod_cast h.active_le account.id
  unfold inFlight
  linarith

theorem hasCapacity (h : Tightens now s t) (hcapacity : t.hasCapacity account adaptive = true) :
    s.hasCapacity account adaptive = true := by
  have hlimit : t.concurrencyLimit account adaptive = s.concurrencyLimit account adaptive := by
    unfold concurrencyLimit
    rw [h.performance_eq]
  rw [hasCapacity_iff] at hcapacity ⊢
  rw [hlimit] at hcapacity
  exact (h.inFlight_le account).trans_lt hcapacity

end Tightens

/-- The gates of `isAvailable` that read nothing of the scheduler. -/
def recordAllows (account : Account) (pool : Option Pool) (now : Millis) : Bool :=
  isRouteAccountRuntimeAvailable account now && !quotaExhausted account now &&
    !(accountReportsCodexQuota account &&
      (quotaProtectionBlocks account.codexQuota account.quotaProtection now ||
        quotaProtectionBlocks account.codexQuota (pool.bind Pool.quotaProtection) now)) &&
    decide (account.cooldownUntil.getD 0 ≤ now)

/-- An account is available exactly when its record allows it, its model is not
cooling down and the circuits do not hold it. -/
theorem isAvailable_iff (s : PoolScheduler) (account : Account) (pool : Option Pool)
    (now : Millis) (model : Option JsString) :
    (s.isAvailable account pool now model).1 = true ↔
      recordAllows account pool now = true ∧ ¬ s.circuits.modelBlocked account.id model now ∧
        s.circuits.holds account now (decide (0 < s.inFlight account)) = false := by
  have hgate := Circuits.modelGate_eq_false_iff s.circuits account model now
  obtain ⟨hhealth, hobserved⟩ := Circuits.modelGate_frame s.circuits account model now
  have hholds : ∀ busy, (modelGate s.circuits account model now).2.holds account now busy =
      s.circuits.holds account now busy := fun busy => by
    unfold Circuits.holds
    rw [hhealth, hobserved]
  unfold isAvailable
  generalize modelGate s.circuits account model now = gate at hgate hholds ⊢
  obtain ⟨_ | _, d⟩ := gate
  · simp [hgate.mp rfl]
  · have hopen : ¬ s.circuits.modelBlocked account.id model now := fun hblocked => by
      cases hgate.mpr hblocked
    dsimp only
    unfold availableNow recordAllows
    dsimp only
    have hverdict := (Circuits.holds_eq d account now (decide (0 < s.inFlight account))).trans
      (hholds _)
    rw [← hverdict]
    simp only [Bool.and_eq_true, Bool.not_eq_true', Bool.or_eq_false_iff, decide_eq_true_eq,
      decide_eq_false_iff_not, not_lt, max_le_iff]
    have hin : ∀ e : Circuits, ({ s with circuits := e } : PoolScheduler).inFlight account =
      s.inFlight account := fun _ => rfl
    rw [hin]
    tauto

namespace Tightens

variable {now : Millis} {s t : PoolScheduler}

/-- What is available later was available before. -/
theorem isAvailable (h : Tightens now s t) {account : Account}
    (havailable : (t.isAvailable account pool now model).1 = true) :
    (s.isAvailable account pool now model).1 = true := by
  rw [isAvailable_iff] at havailable ⊢
  obtain ⟨hrecord, hmodel, hholds⟩ := havailable
  refine ⟨hrecord, fun hblocked => hmodel (Circuits.modelBlocked_checked h.checked hblocked), ?_⟩
  by_contra hheld
  rw [Bool.not_eq_false] at hheld
  have hbusy : decide (0 < s.inFlight account) = true → decide (0 < t.inFlight account) = true := by
    simp only [decide_eq_true_eq]
    exact fun hpos => hpos.trans_le (h.inFlight_le account)
  rw [Circuits.holds_checked h.checked (Circuits.holds_mono hbusy hheld)] at hholds
  cases hholds

/-- Who is eligible later was eligible before. -/
theorem runtimeEligible (h : Tightens now s t)
    (heligible : (runtimeEligible input now t account).1 = true) :
    (PoolScheduler.runtimeEligible input now s account).1 = true := by
  by_cases hexcluded : account.id ∈ input.excludedAccountIds
  · rw [PoolScheduler.runtimeEligible, if_pos hexcluded] at heligible
    cases heligible
  · rw [runtimeEligible_eq input now _ hexcluded, isEligible_eq, Bool.and_eq_true] at heligible ⊢
    refine ⟨h.isAvailable heligible.1, ?_⟩
    have hs := Tightens.of_looks (looks_isAvailable s account (some input.pool) now
      (SchedulerSelectionInput.cooldownKey input))
    have ht := Tightens.of_looks (looks_isAvailable t account (some input.pool) now
      (SchedulerSelectionInput.cooldownKey input))
    have hcapacity : s.hasCapacity account (isAdaptive input.pool) = true :=
      (h.trans ht).hasCapacity heligible.2
    rwa [hasCapacity_congr (looks_isAvailable ..).counters_eq]

end Tightens

/-- A filter that kept nothing keeps nothing after further tightening. -/
theorem filterM_eq_nil_of_tightens (hlooks : ∀ s account, Looks now s (test s account).2)
    (htest : ∀ s t account, Tightens now s t → (test t account).1 = true →
      (test s account).1 = true) (hnil : (filterM test s accounts).1 = [])
    (h : Tightens now (filterM test s accounts).2 t) : (filterM test t accounts).1 = [] := by
  induction accounts generalizing s t with
  | nil => rfl
  | cons account rest ih =>
      have hafter : Tightens now s t :=
        (Tightens.of_looks (looks_filterM hlooks s (account :: rest))).trans h
      have hfirst : (test s account).1 = false := by
        by_contra hkeep
        have hmem : account ∈ (filterM test s (account :: rest)).1 :=
          mem_filterM_cons.mpr (.inl ⟨rfl, (Bool.not_eq_false _).mp hkeep⟩)
        rw [hnil] at hmem
        cases hmem
      have hfirst' : (test t account).1 = false := by
        by_contra hkeep
        rw [htest s t account hafter ((Bool.not_eq_false _).mp hkeep)] at hfirst
        cases hfirst
      have hrest : (filterM test (test s account).2 rest).1 = [] := by
        simpa [filterM, hfirst] using hnil
      have hend : Tightens now (filterM test (test s account).2 rest).2 (test t account).2 :=
        Tightens.trans h (Tightens.of_looks (hlooks t account))
      simpa [filterM, hfirst'] using ih hrest hend

/-! ## Blocked inputs -/

/-- No selection for the input succeeds at `now`, in this state or in any
tightening of it: there is no eligible account. -/
def Blocked (env : Env) (now : Millis) (input : SchedulerSelectionInput) (s : PoolScheduler) :
    Prop :=
  ∀ t, Tightens now s t → ∃ e, (t.selectAndAcquire env input now).1 = .error e

theorem Blocked.of_tightens (h : Blocked env now input s) (ht : Tightens now s t) :
    Blocked env now input t :=
  fun u hu => h u (ht.trans hu)

variable {s : PoolScheduler}

theorem candidates_eq_nil_of_tightens (hnil : (s.candidates input now).1 = [])
    (h : Tightens now (s.candidates input now).2 t) : (t.candidates input now).1 = [] := by
  have hlooks := looks_runtimeEligible input now
  have htest : ∀ (s t : PoolScheduler) (account : Account), Tightens now s t →
      (runtimeEligible input now t account).1 = true →
      (runtimeEligible input now s account).1 = true := fun _ _ _ ht => ht.runtimeEligible
  rw [candidates_eq] at hnil h ⊢
  dsimp only at hnil h ⊢
  split at hnil
  · next hverified =>
      rw [if_pos hverified] at h
      have hmiddle : Tightens now
          (filterM (runtimeEligible input now) s (sourceEligibility input).verified).2 t :=
        (Tightens.of_looks (looks_filterM hlooks _ _)).trans h
      have hverified' := filterM_eq_nil_of_tightens hlooks htest hverified hmiddle
      rw [if_pos hverified']
      exact filterM_eq_nil_of_tightens hlooks htest hnil
        (h.trans (Tightens.of_looks (looks_filterM hlooks _ _)))
  · next hsome => exact absurd hnil hsome

/-- A selection that found no eligible account blocks its input. -/
theorem blocked_of_noEligibleAccount
    (h : s.selectAndAcquire env input now = (.error (.noEligibleAccount ids message), u)) :
    Blocked env now input u := by
  intro t ht
  unfold selectAndAcquire at h ⊢
  cases hstrategy : assertSupportedStrategy input.pool.strategy with
  | error e => exact ⟨e, rfl⟩
  | ok _ =>
      rw [hstrategy] at h
      dsimp only at h ⊢
      split_ifs at h ⊢ with hpolicy hmodel
      · cases h
      · cases h
      · cases hc : (s.beginSelection input.pool now).candidates input now with
        | mk candidates v =>
            rw [hc] at h
            cases candidates with
            | cons first rest =>
                dsimp only at h
                split at h <;> cases h
            | nil =>
                cases h
                have hbegin : Tightens now t (t.beginSelection input.pool now) :=
                  Tightens.of_looks (Looks.of_frame (frame_beginSelection t input.pool now))
                have hnil := candidates_eq_nil_of_tightens (congrArg Prod.fst hc)
                  (t := t.beginSelection input.pool now) (by rw [hc]; exact ht.trans hbegin)
                cases hc' : (t.beginSelection input.pool now).candidates input now with
                | mk candidates' w =>
                    rw [hc'] at hnil
                    cases hnil
                    exact ⟨_, rfl⟩

/-! ## The queue -/

theorem get?_removeCapacityWaiter (s : PoolScheduler) (waiter : CapacityWaiter) (id : Nat) :
    (s.removeCapacityWaiter waiter).capacityWaiters.get? id =
      if id = waiter.id then none else s.capacityWaiters.get? id := by
  unfold removeCapacityWaiter
  split
  · exact JsMap.get?_delete ..
  · next habsent =>
      split
      · next hid =>
          rw [hid, ← Option.not_isSome_iff_eq_none]
          exact habsent
      · rfl

/-- Every waiter is queued under its own id. -/
def Keyed (s : PoolScheduler) : Prop :=
  ∀ id waiter, s.capacityWaiters.get? id = some waiter → waiter.id = id

theorem Keyed.of_queue {t : PoolScheduler} (h : s.Keyed)
    (hqueue : t.capacityWaiters = s.capacityWaiters) : t.Keyed :=
  fun id waiter hget => h id waiter (hqueue ▸ hget)

theorem Keyed.removeCapacityWaiter (h : s.Keyed) (waiter : CapacityWaiter) :
    (s.removeCapacityWaiter waiter).Keyed := by
  intro id other hget
  rw [get?_removeCapacityWaiter] at hget
  split at hget
  · cases hget
  · exact h id other hget

theorem Keyed.set {t : PoolScheduler} (h : s.Keyed) (waiter : CapacityWaiter)
    (hqueue : t.capacityWaiters = s.capacityWaiters.set waiter.id waiter) : t.Keyed := by
  intro id other hget
  rw [hqueue, JsMap.get?_set] at hget
  split at hget
  · next hid => cases hget; exact hid.symm
  · exact h id other hget

/-- What trying a waiter does to the queue, and what it proves about its input. -/
theorem queue_tryWaiter (env : Env) (abortedSignals : List Nat) (now : Millis) (s : PoolScheduler)
    (waiter : CapacityWaiter) :
    match s.tryWaiter env abortedSignals now waiter with
    | .keep t => Blocked env now waiter.input t ∧
        ∃ accountIds, t.capacityWaiters =
          s.capacityWaiters.set waiter.id { waiter with accountIds := accountIds }
    | .reject _ t => ∀ id, t.capacityWaiters.get? id =
        if id = waiter.id then none else s.capacityWaiters.get? id
    | .serve _ t => signalAborted abortedSignals waiter.signal = false ∧ now < waiter.deadlineAt ∧
        ∀ id, t.capacityWaiters.get? id =
          if id = waiter.id then none else s.capacityWaiters.get? id := by
  have hselect := selectAndAcquire_spec env s waiter.input now
  unfold tryWaiter
  split_ifs with haborted hdeadline
  · exact get?_removeCapacityWaiter s waiter
  · exact get?_removeCapacityWaiter s waiter
  · cases hsel : s.selectAndAcquire env waiter.input now with
    | mk result t =>
        rw [hsel] at hselect
        cases result with
        | ok selection =>
            refine ⟨by simpa using haborted, not_le.mp hdeadline, fun id => ?_⟩
            rw [get?_removeCapacityWaiter, hselect.2.1]
        | error e =>
            have hqueue : t.capacityWaiters = s.capacityWaiters :=
              eq_of_core capacityWaiters (fun _ => rfl) hselect.core_eq
            cases e with
            | noEligibleAccount ids message =>
                have hlooks := looks_capacityBlockedAccountIds t waiter.input now
                have hqueue' := eq_of_core capacityWaiters (fun _ => rfl) hlooks.core_eq
                dsimp only
                cases hb : t.capacityBlockedAccountIds waiter.input now with
                | mk accountIds u =>
                    rw [hb] at hlooks hqueue'
                    cases accountIds with
                    | nil =>
                        intro id
                        rw [get?_removeCapacityWaiter, hqueue', hqueue]
                    | cons first rest =>
                        refine ⟨?_, newSet (first :: rest), ?_⟩
                        · exact ((blocked_of_noEligibleAccount hsel).of_tightens
                            (Tightens.of_looks hlooks)).of_tightens
                              (Tightens.of_keeps ⟨rfl, .refl⟩)
                        · change u.capacityWaiters.set _ _ = _
                          rw [hqueue', hqueue]
            | modelNotExposed | unsupportedPoolStrategy | typeError | aborted =>
                intro id
                rw [get?_removeCapacityWaiter, hqueue]

theorem Keyed.tryWaiter (h : s.Keyed) (env : Env) (abortedSignals : List Nat) (now : Millis)
    (waiter : CapacityWaiter) : match s.tryWaiter env abortedSignals now waiter with
    | .keep t => t.Keyed
    | .reject _ t => t.Keyed
    | .serve _ t => t.Keyed := by
  have hqueue := queue_tryWaiter env abortedSignals now s waiter
  have hremoved : ∀ t : PoolScheduler, (∀ id, t.capacityWaiters.get? id =
      if id = waiter.id then none else s.capacityWaiters.get? id) → t.Keyed := by
    intro t ht id other hget
    rw [ht] at hget
    split at hget
    · cases hget
    · exact h id other hget
  cases htry : s.tryWaiter env abortedSignals now waiter with
  | keep t =>
      rw [htry] at hqueue
      obtain ⟨-, accountIds, hset⟩ := hqueue
      exact h.set { waiter with accountIds := accountIds } hset
  | reject e t => rw [htry] at hqueue; exact hremoved t hqueue
  | serve selection t => rw [htry] at hqueue; exact hremoved t hqueue.2.2

theorem Handoff.Grants.tightens (h : Handoff.Grants now s handoff) :
    Tightens now s handoff.scheduler := by
  unfold Handoff.Grants at h
  split at h
  · exact .of_keeps h
  · exact .of_grants h.2

/-- A hand-off touches only the queue entries it walks over. -/
theorem get?_fulfillFrom_of_not_mem (env : Env) (abortedSignals : List Nat) (now : Millis)
    (accountId : JsString) (hkeyed : s.Keyed) {id : Nat} (hid : id ∉ ids) :
    (fulfillFrom env abortedSignals now accountId ids s).scheduler.capacityWaiters.get? id =
      s.capacityWaiters.get? id := by
  induction ids generalizing s with
  | nil => rfl
  | cons first ids ih =>
      obtain ⟨hne, hid⟩ := not_or.mp (mt List.mem_cons.mpr hid)
      unfold fulfillFrom
      split
      · exact ih hkeyed hid
      · next waiter hget =>
          have hfirst : waiter.id = first := hkeyed first waiter hget
          split
          · exact ih hkeyed hid
          · have hqueue := queue_tryWaiter env abortedSignals now s waiter
            have hkeyed' := hkeyed.tryWaiter env abortedSignals now waiter
            cases htry : s.tryWaiter env abortedSignals now waiter with
            | keep t =>
                rw [htry] at hqueue hkeyed'
                obtain ⟨-, accountIds, hset⟩ := hqueue
                refine (ih hkeyed' hid).trans ?_
                rw [hset, JsMap.get?_set_of_ne _ _ (hfirst ▸ hne)]
            | reject e t =>
                rw [htry] at hqueue hkeyed'
                exact (ih hkeyed' hid).trans ((hqueue id).trans (if_neg (hfirst ▸ hne)))
            | serve selection t =>
                rw [htry] at hqueue
                exact (hqueue.2.2 id).trans (if_neg (hfirst ▸ hne))

/-- A waiter that was registered for the account before the hand-off is gone
after it, or cannot be served. -/
def Settled (env : Env) (now : Millis) (accountId : JsString) (before after : PoolScheduler)
    (id : Nat) : Prop :=
  ∀ waiter, before.capacityWaiters.get? id = some waiter → accountId ∈ waiter.accountIds →
    ∀ waiter', after.capacityWaiters.get? id = some waiter' → Blocked env now waiter'.input after

/-- The result of one pass over the queue entries `ids`: up to the waiter it
serves, and over all of them when it serves none, every registered waiter is
settled. -/
def Walked (env : Env) (abortedSignals : List Nat) (now : Millis) (accountId : JsString)
    (before : PoolScheduler) (ids : List Nat) (handoff : Handoff) : Prop :=
  match handoff.served with
  | none => ∀ id ∈ ids, Settled env now accountId before handoff.scheduler id
  | some (waiter, _) => ∃ ahead behind, ids = ahead ++ waiter.id :: behind ∧
      before.capacityWaiters.get? waiter.id = some waiter ∧ accountId ∈ waiter.accountIds ∧
      signalAborted abortedSignals waiter.signal = false ∧ now < waiter.deadlineAt ∧
      ∀ id ∈ ahead, Settled env now accountId before handoff.scheduler id

theorem Settled.of_get?_eq {id : Nat} (h : Settled env now accountId before' after id)
    (hsame : before'.capacityWaiters.get? id = before.capacityWaiters.get? id) :
    Settled env now accountId before after id :=
  fun waiter hget => h waiter (hsame.trans hget)

/-- A settled first entry and a walk over the rest from a state with the same
entries make a walk over all. -/
theorem Walked.cons {env : Env} {abortedSignals : List Nat} {now : Millis} {accountId : JsString}
    {before before' : PoolScheduler} {first : Nat} {ids : List Nat} {handoff : Handoff}
    (h : Walked env abortedSignals now accountId before' ids handoff)
    (hsame : ∀ id ∈ ids, before'.capacityWaiters.get? id = before.capacityWaiters.get? id)
    (hfirst : Settled env now accountId before handoff.scheduler first) :
    Walked env abortedSignals now accountId before (first :: ids) handoff := by
  unfold Walked at h ⊢
  split at h
  · exact List.forall_mem_cons.mpr ⟨hfirst, fun id hid => (h id hid).of_get?_eq (hsame id hid)⟩
  · obtain ⟨ahead, behind, hids, hget, hmem, haborted, hdeadline, hahead⟩ := h
    have hin : ∀ id ∈ ahead, id ∈ ids := fun id hid => hids ▸ List.mem_append_left _ hid
    refine ⟨first :: ahead, behind, by rw [hids]; rfl, ?_, hmem, haborted, hdeadline, ?_⟩
    · rw [← hsame _ (hids ▸ List.mem_append_right _ List.mem_cons_self), hget]
    · exact List.forall_mem_cons.mpr
        ⟨hfirst, fun id hid => (hahead id hid).of_get?_eq (hsame id (hin id hid))⟩

theorem fulfillFrom_walked (env : Env) (abortedSignals : List Nat) (now : Millis)
    (accountId : JsString) (hnodup : ids.Nodup) (hkeyed : s.Keyed) :
    Walked env abortedSignals now accountId s ids
      (fulfillFrom env abortedSignals now accountId ids s) := by
  induction ids generalizing s with
  | nil => exact fun id hid => by cases hid
  | cons first ids ih =>
      obtain ⟨hfirst, hnodup⟩ := List.nodup_cons.mp hnodup
      have hne : ∀ id ∈ ids, id ≠ first := fun id hid heq => hfirst (heq ▸ hid)
      unfold fulfillFrom
      split
      · next hnone =>
          refine (ih hnodup hkeyed).cons (fun _ _ => rfl) fun waiter hget => ?_
          cases hnone.symm.trans hget
      · next waiter hget =>
          have hid : waiter.id = first := hkeyed first waiter hget
          split
          · next hother =>
              refine (ih hnodup hkeyed).cons (fun _ _ => rfl) fun registered hreg hmem => ?_
              cases hget.symm.trans hreg
              exact absurd hmem hother
          · next hregistered =>
              have hqueue := queue_tryWaiter env abortedSignals now s waiter
              have hkeyed' := hkeyed.tryWaiter env abortedSignals now waiter
              cases htry : s.tryWaiter env abortedSignals now waiter with
              | keep t =>
                  rw [htry] at hqueue hkeyed'
                  obtain ⟨hblocked, accountIds, hset⟩ := hqueue
                  have hrest := fulfillFrom_grants env abortedSignals now accountId ids t
                  refine (ih hnodup hkeyed').cons (fun id hmem => ?_) fun _ _ _ waiter' hget' => ?_
                  · rw [hset, JsMap.get?_set_of_ne _ _ (hid ▸ hne id hmem)]
                  · -- the rest of the walk does not touch the entry of the waiter just kept
                    rw [get?_fulfillFrom_of_not_mem env abortedSignals now accountId hkeyed' hfirst,
                      hset, hid, JsMap.get?_set_self] at hget'
                    cases hget'
                    exact hblocked.of_tightens hrest.tightens
              | reject e t =>
                  rw [htry] at hqueue hkeyed'
                  refine Walked.cons (ih hnodup hkeyed') (fun id hmem => ?_)
                    fun _ _ _ waiter' hget' => ?_
                  · rw [hqueue, if_neg (hid ▸ hne id hmem)]
                  · have hgone := get?_fulfillFrom_of_not_mem env abortedSignals now accountId
                      hkeyed' hfirst
                    rw [hqueue, if_pos hid.symm] at hgone
                    cases hgone.symm.trans hget'
              | serve selection t =>
                  rw [htry] at hqueue
                  refine ⟨[], ids, by rw [hid]; rfl, by rw [hid]; exact hget, ?_, hqueue.1,
                    hqueue.2.1, fun _ hmem => by cases hmem⟩
                  exact not_not.mp hregistered

/-! ## Queue keys over a run -/

theorem Keyed.of_looks {now : Millis} (h : s.Keyed) (hlooks : Looks now s t) : t.Keyed :=
  h.of_queue (eq_of_core capacityWaiters (fun _ => rfl) hlooks.core_eq)

theorem Keyed.selectAndAcquire (h : s.Keyed) (env : Env) (input : SchedulerSelectionInput)
    (now : Millis) : (s.selectAndAcquire env input now).2.Keyed := by
  have hspec := selectAndAcquire_spec env s input now
  cases hsel : s.selectAndAcquire env input now with
  | mk result t =>
      rw [hsel] at hspec
      cases result with
      | ok selection => exact h.of_queue hspec.2.1
      | error e => exact h.of_looks hspec

theorem Keyed.tryAcquireAccount (h : s.Keyed) (account : Account) (pool : Pool) (now : Millis) :
    (s.tryAcquireAccount account pool now).2.Keyed := by
  have hlooks := h.of_looks (looks_isEligible s account pool (isAdaptive pool) now none)
  unfold PoolScheduler.tryAcquireAccount
  cases assertSupportedStrategy pool.strategy with
  | error e => exact h
  | ok _ =>
      dsimp only
      generalize s.isEligible account pool (isAdaptive pool) now none = eligible at hlooks ⊢
      obtain ⟨_ | _, t⟩ := eligible <;> exact hlooks

theorem Keyed.fulfillFrom (h : s.Keyed) (env : Env) (abortedSignals : List Nat) (now : Millis)
    (accountId : JsString) (ids : List Nat) :
    (fulfillFrom env abortedSignals now accountId ids s).scheduler.Keyed := by
  induction ids generalizing s with
  | nil => exact h
  | cons id ids ih =>
      unfold PoolScheduler.fulfillFrom
      split
      · exact ih h
      · next waiter _ =>
          split
          · exact ih h
          · have htried := h.tryWaiter env abortedSignals now waiter
            cases htry : s.tryWaiter env abortedSignals now waiter with
            | keep t => rw [htry] at htried; exact ih htried
            | reject e t => rw [htry] at htried; exact ih htried
            | serve selection t => rw [htry] at htried; exact htried

theorem Keyed.fulfillAny (h : s.Keyed) (env : Env) (abortedSignals : List Nat) (now : Millis)
    (accountIds : List JsString) :
    (fulfillAny env abortedSignals now accountIds s).scheduler.Keyed := by
  induction accountIds generalizing s with
  | nil => exact h
  | cons accountId rest ih =>
      have hfirst : (s.fulfillOneCapacityWaiter env abortedSignals accountId now).scheduler.Keyed :=
        h.fulfillFrom env abortedSignals now accountId _
      unfold PoolScheduler.fulfillAny
      dsimp only
      split
      · exact hfirst
      · exact ih hfirst

theorem Keyed.enqueueCapacityWaiter (h : s.Keyed) (env : Env) (abortedSignals : List Nat)
    (input : SchedulerSelectionInput) (accountIds : List JsString) (deadlineAt : Millis)
    (signal : Option Nat) (errorAccountIds : List JsString) (now : Millis) :
    (s.enqueueCapacityWaiter env abortedSignals input accountIds deadlineAt signal errorAccountIds
      now).2.scheduler.Keyed := by
  unfold PoolScheduler.enqueueCapacityWaiter
  dsimp only
  split
  · exact h
  · refine Keyed.fulfillAny ?_ env abortedSignals now accountIds
    exact h.set ⟨s.nextCapacityWaiterId, input, newSet accountIds, input.pool.id, deadlineAt, signal⟩
      rfl

theorem Keyed.selectAndAcquireWhenAvailable (h : s.Keyed) (env : Env) (abortedSignals : List Nat)
    (input : SchedulerSelectionInput) (signal : Option Nat) (deadlineAt : Option Millis)
    (maxWaitMs : Int) (now : Millis) :
    (s.selectAndAcquireWhenAvailable env abortedSignals input signal deadlineAt maxWaitMs
      now).2.scheduler.Keyed := by
  have hselected := h.selectAndAcquire env input now
  unfold PoolScheduler.selectAndAcquireWhenAvailable
  split
  · exact h
  · generalize s.selectAndAcquire env input now = selected at hselected ⊢
    obtain ⟨e | selection, t⟩ := selected
    · cases e with
      | noEligibleAccount ids message =>
          have hblocked := hselected.of_looks (looks_capacityBlockedAccountIds t input now)
          dsimp only at hblocked ⊢
          generalize t.capacityBlockedAccountIds input now = blocked at hblocked ⊢
          obtain ⟨_ | ⟨id, rest⟩, u⟩ := blocked
          · exact hblocked
          · dsimp only
            split_ifs
            · exact hblocked
            · exact Keyed.enqueueCapacityWaiter hblocked env abortedSignals input _ _ signal ids now
      | modelNotExposed | unsupportedPoolStrategy | typeError | aborted => exact hselected
    · exact hselected

theorem Keyed.rejectCapacityWaiter (h : s.Keyed) (waiterId : Nat) :
    (s.rejectCapacityWaiter waiterId).Keyed := by
  unfold PoolScheduler.rejectCapacityWaiter
  split
  · exact h
  · exact h.removeCapacityWaiter _

theorem queue_returnPermit (s : PoolScheduler) (stickyKey : Option JsString)
    (accountId : JsString) :
    (s.returnPermit stickyKey accountId).capacityWaiters = s.capacityWaiters := by
  cases stickyKey with
  | none => rfl
  | some key =>
      unfold returnPermit releaseActiveStickySession
      dsimp only
      split <;> rfl

theorem queue_setPerformance (s : PoolScheduler)
    (performance : JsMap JsString AccountPerformanceState) :
    ({ s with performance := performance } : PoolScheduler).capacityWaiters = s.capacityWaiters :=
  rfl

theorem Keyed.foldl {α : Type} {f : PoolScheduler → α → PoolScheduler}
    (hf : ∀ s a, s.Keyed → (f s a).Keyed) (h : s.Keyed) (as : List α) : (as.foldl f s).Keyed := by
  induction as generalizing s with
  | nil => exact h
  | cons a as ih => exact ih (hf s a h)

end PoolScheduler

namespace System

theorem keyed_settle {y : System} (h : handoff.scheduler.Keyed) :
    (y.settle handoff).scheduler.Keyed := by
  rw [scheduler_settle]
  exact h

theorem keyed_returned {y : System} (h : y.scheduler.Keyed) (i : Nat) (p : Permit) :
    (y.returned i p).scheduler.Keyed :=
  h.of_queue (PoolScheduler.queue_returnPermit ..)

theorem keyed_step (env : Env) {y : System} (h : y.scheduler.Keyed) (op : Op) :
    (y.step env op).scheduler.Keyed := by
  cases op with
  | hydratePerformance logs now =>
      refine PoolScheduler.Keyed.foldl (fun s accountId hs => ?_) h _
      split
      · exact hs
      · exact PoolScheduler.Keyed.foldl
          (fun t log ht => ht.of_queue (PoolScheduler.queue_setPerformance t _)) hs _
  | selectAndAcquire input now =>
      have hselected := h.selectAndAcquire env input now
      unfold System.step
      dsimp only
      generalize y.scheduler.selectAndAcquire env input now = selected at hselected ⊢
      obtain ⟨_ | _, t⟩ := selected <;> exact hselected
  | selectAndAcquireWhenAvailable input signal deadlineAt maxWaitMs now =>
      have hwaited := h.selectAndAcquireWhenAvailable env y.abortedSignals input signal deadlineAt
        maxWaitMs now
      unfold System.step
      dsimp only
      generalize y.scheduler.selectAndAcquireWhenAvailable env y.abortedSignals input signal
        deadlineAt maxWaitMs now = waited at hwaited ⊢
      obtain ⟨_ | _ | _, handoff⟩ := waited
      · exact hwaited
      · exact hwaited
      · exact keyed_settle hwaited
  | tryAcquireAccount account pool now =>
      have hacquired := h.tryAcquireAccount account pool now
      unfold System.step
      dsimp only
      generalize y.scheduler.tryAcquireAccount account pool now = acquired at hacquired ⊢
      obtain ⟨e | _ | _, t⟩ := acquired <;> exact hacquired
  | release permit now =>
      change (y.release env permit now).scheduler.Keyed
      cases hi : y.permits[permit]? with
      | none => rw [System.release, hi]; exact h
      | some p =>
          cases hp : p.released with
          | true => rw [System.release, hi]; simpa [hp] using h
          | false =>
              rw [release_eq env hi hp]
              exact keyed_settle
                ((keyed_returned h permit p).fulfillFrom env y.abortedSignals now p.account.id _)
  | abort signal =>
      exact PoolScheduler.Keyed.foldl (f := fun s (waiter : CapacityWaiter) =>
        s.rejectCapacityWaiter waiter.id) (fun s waiter hs => hs.rejectCapacityWaiter waiter.id) h _
  | timeout waiterId =>
      unfold System.step System.timeout
      dsimp only
      split
      · exact h
      · exact h.rejectCapacityWaiter waiterId
  | recordFailure accountId options now =>
      refine h.of_queue ?_
      unfold System.step PoolScheduler.recordFailure
      dsimp only
      split
      · rfl
      · exact (PoolScheduler.queue_setPerformance ..).trans (PoolScheduler.queue_setPerformance ..)
  | recordPerformance =>
      refine h.of_queue ?_
      unfold System.step PoolScheduler.recordPerformance
      dsimp only
      split <;> rfl
  | hasUsableAlternative => exact h.of_looks (PoolScheduler.looks_anyAvailable ..)
  | clear => exact fun id waiter hget => by cases hget
  | hydrate | recordStickyFailure | setCooldown | recordSuccess | resetHealth | recordModelFailure
  | getHealth | getModelCooldowns => exact h

theorem keyed_init (options : PoolSchedulerOptions) : (init options).scheduler.Keyed :=
  fun id waiter hget => by cases hget

theorem keyed_run (env : Env) (options : PoolSchedulerOptions) (ops : List Op) :
    (run env (init options) ops).scheduler.Keyed :=
  Lib.invariant_run (fun y : System => y.scheduler.Keyed) (fun _ op h => keyed_step env h op)
    (keyed_init options) ops

/-! ## Main result -/

/-- The hand-off that a release of the permit makes. -/
def handoff (env : Env) (y : System) (i : Nat) (p : Permit) (now : Millis) : Handoff :=
  (y.returned i p).scheduler.fulfillOneCapacityWaiter env y.abortedSignals p.account.id now

/-- A waiter that was registered for the account before the release is no
longer queued after it, or no selection succeeds for its input. -/
def NotServable (env : Env) (accountId : JsString) (now : Millis) (y z : System) (id : Nat) :
    Prop :=
  ∀ waiter, y.scheduler.capacityWaiters.get? id = some waiter → accountId ∈ waiter.accountIds →
    ∀ waiter', z.scheduler.capacityWaiters.get? id = some waiter' →
      ∀ selection, (z.scheduler.selectAndAcquire env waiter'.input now).1 ≠ .ok selection

/-- Wake-up.  In every reachable state, releasing a permit hands its slot to at
most one waiter.  If none is served, no queued waiter that was registered for
the account can be served when the release returns.  The waiter served, if
any, was registered for the account, neither aborted nor past its deadline,
and no registered waiter ahead of it in the queue can be served. -/
theorem release_wakes_registered_waiter (env : Env) (options : PoolSchedulerOptions)
    (ops : List Op) (i : Nat) (p : Permit) (now : Millis)
    (hi : (run env (init options) ops).permits[i]? = some p) (hp : p.released = false) :
    let y := run env (init options) ops
    let z := y.step env (.release i now)
    z = (y.returned i p).settle (y.handoff env i p now) ∧
    match (y.handoff env i p now).served with
    | none => ∀ id ∈ y.scheduler.capacityWaiters.keys, NotServable env p.account.id now y z id
    | some (waiter, _) => ∃ ahead behind,
        y.scheduler.capacityWaiters.keys = ahead ++ waiter.id :: behind ∧
        y.scheduler.capacityWaiters.get? waiter.id = some waiter ∧
        p.account.id ∈ waiter.accountIds ∧
        signalAborted y.abortedSignals waiter.signal = false ∧ now < waiter.deadlineAt ∧
        ∀ id ∈ ahead, NotServable env p.account.id now y z id := by
  have hkeyed := keyed_run env options ops
  generalize run env (init options) ops = y at hi hkeyed ⊢
  intro y' z
  have hz : z = (y.returned i p).settle (y.handoff env i p now) := release_eq env hi hp now
  have hqueue : (y.returned i p).scheduler.capacityWaiters = y.scheduler.capacityWaiters :=
    PoolScheduler.queue_returnPermit ..
  have hwalked : PoolScheduler.Walked env y.abortedSignals now p.account.id
      (y.returned i p).scheduler (y.returned i p).scheduler.capacityWaiters.keys
      (y.handoff env i p now) :=
    PoolScheduler.fulfillFrom_walked env y.abortedSignals now p.account.id
      (JsMap.nodup_keys _) (keyed_returned hkeyed i p)
  have hscheduler : z.scheduler = (y.handoff env i p now).scheduler := by
    rw [hz, scheduler_settle]
  have hsettled : ∀ id, PoolScheduler.Settled env now p.account.id (y.returned i p).scheduler
      (y.handoff env i p now).scheduler id → NotServable env p.account.id now y z id := by
    intro id hid waiter hget hmem waiter' hget' selection hok
    rw [hscheduler] at hget' hok
    rw [← hqueue] at hget
    obtain ⟨e, he⟩ := hid waiter hget hmem waiter' hget' _ (.refl now _)
    cases he.symm.trans hok
  refine ⟨hz, ?_⟩
  unfold PoolScheduler.Walked at hwalked
  rw [hqueue] at hwalked
  split at hwalked
  · next hserved =>
      rw [hserved]
      exact fun id hid => hsettled id (hwalked id hid)
  · next waiter selection hserved =>
      rw [hserved]
      obtain ⟨ahead, behind, hkeys, hget, hmem, haborted, hdeadline, hahead⟩ := hwalked
      exact ⟨ahead, behind, hkeys, hget, hmem, haborted, hdeadline,
        fun id hid => hsettled id (hahead id hid)⟩

/-- A waiter queues for the only account and is served when its permit is
released. -/
theorem release_wakes_registered_waiter_of_full_account :
    let input := plainInput (plainPool .balanced) [plainAccount "a" 1]
    let y := run Env.plain (init .default)
      [.selectAndAcquire input 0, .selectAndAcquireWhenAvailable input none none 5000 1]
    let z := y.step Env.plain (.release 0 2)
    ∃ p, z = (y.returned 0 p).settle (y.handoff Env.plain 0 p 2) :=
  ⟨⟨plainAccount "a" 1, none, some (0, 0), false, 1, 0⟩,
    (release_wakes_registered_waiter Env.plain .default _ 0
      ⟨plainAccount "a" 1, none, some (0, 0), false, 1, 0⟩ 2 (by decide +kernel) rfl).1⟩

/-- A queued waiter, neither aborted nor past its deadline, for whose input a
selection would now succeed on the account. -/
def couldServe (y : System) (env : Env) (now : Millis) (accountId : JsString) (id : Nat) : Bool :=
  (y.scheduler.capacityWaiters.get? id).any fun waiter =>
    !signalAborted y.abortedSignals waiter.signal && decide (now < waiter.deadlineAt) &&
      match (y.scheduler.selectAndAcquire env waiter.input now).1 with
      | .ok selection => decide (selection.account.id = accountId)
      | .error _ => false

/-- Two releases after which a queued waiter could be served on the account
just released.  First, the learned limit of the account grew from one to two
while two waiters queued: the release serves one of them.  Second, the account
was busy with its half-open probe when the waiter queued for the other one,
recovered, and was then released. -/
theorem release_leaves_servable_waiter :
    (let account := plainAccount "a" 2
     let input := plainInput (plainPool .autobalanced) [account]
     let y := run Env.plain (init .default)
      ([.recordFailure (js "a") ⟨none, none, none, some 2, none, none, none⟩ 0,
        .recordSuccess (js "a") none none 1, .selectAndAcquire input 2,
        .selectAndAcquireWhenAvailable input none none 5000 3,
        .selectAndAcquireWhenAvailable input none none 5000 4] ++
        List.replicate 8 (.recordPerformance (js "a") AccountPerformanceSample.none none none 5))
     let z := y.step Env.plain (.release 0 6)
     z.settled = [(1, .resolved 1)] ∧ z.couldServe Env.plain 6 (js "a") 2 = true) ∧
    (let input := plainInput (plainPool .balanced) [plainAccount "a" 1, plainAccount "b" 1]
     let y := run Env.plain (init .default)
      [.setCooldown (js "a") 10 none none 0, .selectAndAcquire input 1, .selectAndAcquire input 20,
        .selectAndAcquireWhenAvailable input none none 5000 21,
        .recordSuccess (js "a") (some 1) (some 0) 22]
     let z := y.step Env.plain (.release 1 23)
     y.permits.map (fun p => p.account.id) = [js "b", js "a"] ∧ z.settled = [] ∧
      z.couldServe Env.plain 23 (js "a") 1 = true) := by
  decide +kernel

end System

end StonePlus.Scheduler
