import StonePlus.Scheduler.Frame
import StonePlus.Scheduler.System
import Mathlib.Data.Finset.Card

/-!
# StonePlus.Scheduler.Permits

Permit accounting: the scheduler's three counters against the permits it has
granted and not yet taken back.

The counters are plain maps that four code paths update; `Agrees` says that
they count the unreleased permits of the current generation.  Every operation
keeps it, except a stale release: a release closure handed out before a
`clear()` that runs while the account holds permits granted after it.
-/

namespace StonePlus.Scheduler

/-! ## Counter updates -/

namespace PoolScheduler

/-- Give a slot back and take it off its session: a release before the
hand-off. -/
def returnPermit (s : PoolScheduler) (stickyKey : Option JsString) (accountId : JsString) :
    PoolScheduler :=
  match stickyKey with
  | none => s.returnAccountSlot accountId
  | some key => (s.releaseActiveStickySession key accountId).returnAccountSlot accountId

theorem releasePermit_eq (env : Env) (abortedSignals : List Nat) (s : PoolScheduler)
    (stickyKey : Option JsString) (accountId : JsString) (now : Millis) :
    s.releasePermit env abortedSignals stickyKey accountId now =
      (s.returnPermit stickyKey accountId).fulfillOneCapacityWaiter env abortedSignals accountId
        now := by
  cases stickyKey <;> rfl

theorem activeCount_acquireAccountSlot (s : PoolScheduler) (a b : JsString) :
    (s.acquireAccountSlot a).activeCount b =
      if b = a then s.activeCount a + 1 else s.activeCount b :=
  JsMap.getD_set ..

theorem activeCount_returnAccountSlot (s : PoolScheduler) (a b : JsString) :
    (s.returnAccountSlot a).activeCount b =
      if b = a then s.activeCount a - 1 else s.activeCount b := by
  unfold returnAccountSlot activeCount
  dsimp only
  split
  · next h =>
      rw [JsMap.getD_delete]
      split
      · exact h.symm
      · rfl
  · exact JsMap.getD_set ..

@[simp] theorem activeCount_acquireActiveStickySession (s : PoolScheduler) (k a b : JsString) :
    (s.acquireActiveStickySession k a).activeCount b = s.activeCount b := rfl

@[simp] theorem activeCount_releaseActiveStickySession (s : PoolScheduler) (k a b : JsString) :
    (s.releaseActiveStickySession k a).activeCount b = s.activeCount b := by
  unfold releaseActiveStickySession
  split <;> rfl

@[simp] theorem sessionPermits_acquireAccountSlot (s : PoolScheduler) (a k b : JsString) :
    (s.acquireAccountSlot a).sessionPermits k b = s.sessionPermits k b := rfl

@[simp] theorem sessionPermits_returnAccountSlot (s : PoolScheduler) (a k b : JsString) :
    (s.returnAccountSlot a).sessionPermits k b = s.sessionPermits k b := rfl

@[simp] theorem sessionCount_acquireAccountSlot (s : PoolScheduler) (a b : JsString) :
    (s.acquireAccountSlot a).sessionCount b = s.sessionCount b := rfl

@[simp] theorem sessionCount_returnAccountSlot (s : PoolScheduler) (a b : JsString) :
    (s.returnAccountSlot a).sessionCount b = s.sessionCount b := rfl

theorem sessionPermits_acquireActiveStickySession (s : PoolScheduler) (k a k' b : JsString) :
    (s.acquireActiveStickySession k a).sessionPermits k' b =
      if k' = k ∧ b = a then s.sessionPermits k a + 1 else s.sessionPermits k' b := by
  unfold acquireActiveStickySession
  rw [sessionPermits]
  dsimp only
  rw [JsMap.getD_set]
  by_cases hk : k' = k
  · subst hk
    rw [if_pos rfl, JsMap.getD_set]
    by_cases hb : b = a <;> simp [hb, sessionPermits]
  · simp [hk, sessionPermits]

theorem sessionCount_acquireActiveStickySession (s : PoolScheduler) (k a b : JsString) :
    (s.acquireActiveStickySession k a).sessionCount b =
      if b = a ∧ s.sessionPermits k a = 0 then s.sessionCount a + 1 else s.sessionCount b := by
  unfold acquireActiveStickySession
  rw [sessionCount]
  dsimp only
  by_cases h : s.sessionPermits k a = 0
  · rw [if_pos h, JsMap.getD_set]
    by_cases hb : b = a <;> simp [hb, h, sessionCount]
  · simp [h, sessionCount]

/-- A map of size zero is empty. -/
theorem getD_eq_of_size_eq_zero {m : JsMap JsString Nat} (h : m.size = 0) (b : JsString)
    (d : Nat) : m.getD b d = d := by
  have hget : m.get? b = none := by
    rw [JsMap.get?_eq_none_iff, List.eq_nil_of_length_eq_zero (m.length_keys.trans h)]
    exact List.not_mem_nil
  rw [JsMap.getD, hget]
  rfl

theorem sessionPermits_eq {s : PoolScheduler} (h : s.activeStickySessions.get? k = some accounts)
    (b : JsString) : s.sessionPermits k b = accounts.getD b 0 := by
  have haccounts : s.activeStickySessions.getD k ∅ = accounts := by rw [JsMap.getD, h]; rfl
  rw [sessionPermits, haccounts]

theorem sessionPermits_releaseActiveStickySession (s : PoolScheduler) (k a k' b : JsString) :
    (s.releaseActiveStickySession k a).sessionPermits k' b =
      if k' = k ∧ b = a then s.sessionPermits k a - 1 else s.sessionPermits k' b := by
  unfold releaseActiveStickySession
  cases hget : s.activeStickySessions.get? k with
  | none =>
      by_cases h : k' = k ∧ b = a
      · obtain ⟨rfl, rfl⟩ := h
        simp [sessionPermits, JsMap.getD, hget]
      · simp [h]
  | some accounts =>
      rw [sessionPermits]
      dsimp only
      generalize hafter : (if 0 < accounts.getD a 0 - 1 then accounts.set a (accounts.getD a 0 - 1)
        else accounts.delete a) = after
      have hcount : after.getD b 0 = if b = a then accounts.getD a 0 - 1 else accounts.getD b 0 := by
        rw [← hafter]
        split
        · exact JsMap.getD_set ..
        · rw [JsMap.getD_delete]
          split <;> omega
      by_cases hk : k' = k
      · subst hk
        have hinner : ((if after.size = 0 then s.activeStickySessions.delete k'
            else s.activeStickySessions.set k' after).getD k' ∅).getD b 0 = after.getD b 0 := by
          split
          · next hsize => rw [JsMap.getD_delete, if_pos rfl, getD_eq_of_size_eq_zero hsize]; rfl
          · rw [JsMap.getD_set, if_pos rfl]
        rw [hinner, hcount, sessionPermits_eq hget, sessionPermits_eq hget]
        by_cases hb : b = a <;> simp [hb]
      · rw [if_neg (c := k' = k ∧ b = a) fun h => hk h.1, sessionPermits]
        split
        · rw [JsMap.getD_delete, if_neg hk]
        · rw [JsMap.getD_set, if_neg hk]

/-- The session count drops when the last counted permit of the session goes,
and also when a counted session is asked to give back what it does not hold. -/
theorem sessionCount_releaseActiveStickySession (s : PoolScheduler) (k a b : JsString) :
    (s.releaseActiveStickySession k a).sessionCount b =
      if b = a ∧ (s.activeStickySessions.get? k).isSome ∧ s.sessionPermits k a ≤ 1 then
        s.sessionCount a - 1
      else s.sessionCount b := by
  unfold releaseActiveStickySession
  cases hget : s.activeStickySessions.get? k with
  | none => simp
  | some accounts =>
      rw [sessionCount, sessionPermits_eq hget]
      dsimp only
      by_cases hpos : 0 < accounts.getD a 0 - 1
      · rw [if_pos hpos, if_neg (by omega)]
        rfl
      · rw [if_neg hpos]
        have hle : accounts.getD a 0 ≤ 1 := by omega
        by_cases hb : b = a
        · subst hb
          simp only [hle, Option.isSome_some, and_self, if_true]
          split
          · rw [JsMap.getD_set, if_pos rfl]
          · rw [JsMap.getD_delete, if_pos rfl]; omega
        · rw [if_neg (c := b = a ∧ _) fun h => hb h.1]
          split
          · rw [JsMap.getD_set, if_neg hb]; rfl
          · rw [JsMap.getD_delete, if_neg hb]; rfl

/-- The effect of a grant on the three counters. -/
theorem activeCount_takePermit (s : PoolScheduler) (stickyKey : Option JsString) (a b : JsString) :
    (s.takePermit stickyKey a).activeCount b =
      if b = a then s.activeCount a + 1 else s.activeCount b := by
  cases stickyKey <;> exact activeCount_acquireAccountSlot s a b

theorem sessionPermits_takePermit (s : PoolScheduler) (stickyKey : Option JsString)
    (a k b : JsString) :
    (s.takePermit stickyKey a).sessionPermits k b =
      if stickyKey = some k ∧ b = a then s.sessionPermits k a + 1 else s.sessionPermits k b := by
  cases stickyKey with
  | none => simp [takePermit]
  | some key =>
      have h := sessionPermits_acquireActiveStickySession (s.acquireAccountSlot a) key a k b
      by_cases hk : k = key
      · subst hk; simpa [takePermit] using h
      · simpa [takePermit, hk, Ne.symm hk] using h

theorem sessionCount_takePermit (s : PoolScheduler) (stickyKey : Option JsString)
    (a b : JsString) :
    (s.takePermit stickyKey a).sessionCount b =
      if b = a ∧ ∃ k, stickyKey = some k ∧ s.sessionPermits k a = 0 then s.sessionCount a + 1
      else s.sessionCount b := by
  cases stickyKey with
  | none => simp [takePermit]
  | some key =>
      have h := sessionCount_acquireActiveStickySession (s.acquireAccountSlot a) key a b
      by_cases hkey : b = a ∧ s.sessionPermits key a = 0 <;> simpa [takePermit, hkey] using h

/-- The effect of a release on the three counters. -/
theorem activeCount_returnPermit (s : PoolScheduler) (stickyKey : Option JsString)
    (a b : JsString) :
    (s.returnPermit stickyKey a).activeCount b =
      if b = a then s.activeCount a - 1 else s.activeCount b := by
  cases stickyKey with
  | none => exact activeCount_returnAccountSlot s a b
  | some key =>
      simpa [returnPermit] using
        activeCount_returnAccountSlot (s.releaseActiveStickySession key a) a b

theorem sessionPermits_returnPermit (s : PoolScheduler) (stickyKey : Option JsString)
    (a k b : JsString) :
    (s.returnPermit stickyKey a).sessionPermits k b =
      if stickyKey = some k ∧ b = a then s.sessionPermits k a - 1 else s.sessionPermits k b := by
  cases stickyKey with
  | none => simp [returnPermit]
  | some key =>
      have h := sessionPermits_releaseActiveStickySession s key a k b
      by_cases hk : k = key
      · subst hk; simpa [returnPermit] using h
      · simpa [returnPermit, hk, Ne.symm hk] using h

theorem sessionCount_returnPermit (s : PoolScheduler) (stickyKey : Option JsString)
    (a b : JsString) :
    (s.returnPermit stickyKey a).sessionCount b =
      if b = a ∧ ∃ k, stickyKey = some k ∧ (s.activeStickySessions.get? k).isSome ∧
          s.sessionPermits k a ≤ 1 then s.sessionCount a - 1
      else s.sessionCount b := by
  cases stickyKey with
  | none => simp [returnPermit]
  | some key => simpa [returnPermit] using sessionCount_releaseActiveStickySession s key a b

/-- A session with a counted permit is in the session map. -/
theorem isSome_of_sessionPermits_pos {s : PoolScheduler} (h : 0 < s.sessionPermits k a) :
    (s.activeStickySessions.get? k).isSome := by
  cases hget : s.activeStickySessions.get? k with
  | none => simp [sessionPermits, JsMap.getD, hget] at h
  | some accounts => rfl

theorem one_le_concurrencyLimit (s : PoolScheduler) (account : Account) (adaptive : Bool) :
    1 ≤ s.concurrencyLimit account adaptive := by
  unfold concurrencyLimit
  dsimp only
  split
  · exact one_le_routeAccountConcurrencyLimit _
  · exact le_max_left _ _

/-- The limit in force never exceeds the configured one. -/
theorem concurrencyLimit_le (s : PoolScheduler) (account : Account) (adaptive : Bool) :
    s.concurrencyLimit account adaptive ≤ routeAccountConcurrencyLimit account.maxConcurrency := by
  unfold concurrencyLimit
  dsimp only
  split
  · exact le_refl _
  · exact max_le (one_le_routeAccountConcurrencyLimit _) (min_le_left _ _)

/-- Capacity is a strict comparison of the count in flight with the limit. -/
theorem hasCapacity_iff (s : PoolScheduler) (account : Account) (adaptive : Bool) :
    s.hasCapacity account adaptive = true ↔
      max 0 account.inFlight + s.activeCount account.id < s.concurrencyLimit account adaptive :=
  hasRouteAccountCapacity_iff (s.one_le_concurrencyLimit account adaptive)

end PoolScheduler

/-! ## Counters against permits -/

/-- The sessions that hold an unreleased permit on the account. -/
def sessionKeys (permits : List Permit) (accountId : JsString) : Finset JsString :=
  ((permits.filter (Permit.isLiveOn accountId)).filterMap Permit.stickyKey).toFinset

theorem mem_sessionKeys :
    k ∈ sessionKeys permits a ↔ 0 < permits.countP (Permit.isLiveFor k a) := by
  simp only [sessionKeys, List.mem_toFinset, List.mem_filterMap, List.mem_filter,
    List.countP_pos_iff, Permit.isLiveFor, Bool.and_eq_true, decide_eq_true_eq, and_assoc]

/-- The three counter maps. -/
def PoolScheduler.slots (s : PoolScheduler) :
    JsMap JsString Nat × JsMap JsString (JsMap JsString Nat) × JsMap JsString Nat :=
  (s.active, s.activeStickySessions, s.activeStickySessionCounts)

theorem PoolScheduler.slots_congr {s t : PoolScheduler} (h : s.counters = t.counters) :
    s.slots = t.slots :=
  eq_of_counters slots (fun _ => rfl) h

/-- The scheduler's counters count the unreleased permits of a list. -/
structure Agrees (s : PoolScheduler) (permits : List Permit) : Prop where
  active : ∀ a, s.activeCount a = permits.countP (Permit.isLiveOn a)
  session : ∀ k a, s.sessionPermits k a = permits.countP (Permit.isLiveFor k a)
  sessions : ∀ a, s.sessionCount a = (sessionKeys permits a).card

theorem Agrees.congr (h : Agrees s permits) (ht : t.slots = s.slots) : Agrees t permits := by
  obtain ⟨hactive, hsession, hsessions⟩ : t.active = s.active ∧
      t.activeStickySessions = s.activeStickySessions ∧
      t.activeStickySessionCounts = s.activeStickySessionCounts := by
    simpa [PoolScheduler.slots] using ht
  refine ⟨fun a => ?_, fun k a => ?_, fun a => ?_⟩
  · rw [PoolScheduler.activeCount, hactive]; exact h.active a
  · rw [PoolScheduler.sessionPermits, hsession]; exact h.session k a
  · rw [PoolScheduler.sessionCount, hsessions]; exact h.sessions a

/-- Nothing is counted before the first grant. -/
theorem agrees_nil (hactive : s.active = ∅) (hsession : s.activeStickySessions = ∅)
    (hsessions : s.activeStickySessionCounts = ∅) : Agrees s [] where
  active a := by rw [PoolScheduler.activeCount, hactive]; rfl
  session k a := by rw [PoolScheduler.sessionPermits, hsession]; rfl
  sessions a := by rw [PoolScheduler.sessionCount, hsessions]; rfl

/-- Taking a permit counts it. -/
theorem Agrees.takePermit (h : Agrees s permits) (hp : p.released = false) :
    Agrees (s.takePermit p.stickyKey p.account.id) (permits ++ [p]) where
  active b := by
    rw [PoolScheduler.activeCount_takePermit, List.countP_append, List.countP_singleton, h.active,
      h.active]
    by_cases hb : b = p.account.id
    · subst hb; simp [Permit.isLiveOn, hp]
    · simp [Permit.isLiveOn, hp, hb, Ne.symm hb]
  session k b := by
    rw [PoolScheduler.sessionPermits_takePermit, List.countP_append, List.countP_singleton,
      h.session, h.session]
    by_cases hb : b = p.account.id
    · subst hb
      by_cases hk : p.stickyKey = some k <;> simp [Permit.isLiveFor, Permit.isLiveOn, hp, hk]
    · simp [Permit.isLiveFor, Permit.isLiveOn, hp, hb, Ne.symm hb]
  sessions b := by
    have hmem : ∀ k, k ∈ sessionKeys (permits ++ [p]) b ↔
        k ∈ sessionKeys permits b ∨ (p.account.id = b ∧ p.stickyKey = some k) := fun k => by
      simp only [mem_sessionKeys, List.countP_append, List.countP_singleton, Permit.isLiveFor,
        Permit.isLiveOn, hp]
      by_cases hk : p.account.id = b ∧ p.stickyKey = some k
      · simp [hk.1, hk.2]
      · rcases not_and_or.mp hk with hk | hk <;> simp [hk]
    rw [PoolScheduler.sessionCount_takePermit, h.sessions, h.sessions]
    split
    · next hnew =>
        obtain ⟨rfl, k, hk, hzero⟩ := hnew
        rw [h.session] at hzero
        have hnot : k ∉ sessionKeys permits p.account.id := by rw [mem_sessionKeys]; omega
        rw [← Finset.card_insert_of_notMem hnot]
        congr 1
        ext k'
        rw [hmem, Finset.mem_insert, hk, Option.some_inj]
        tauto
    · next hold =>
        congr 1
        ext k
        rw [hmem]
        refine ⟨.inl, ?_⟩
        rintro (hk | ⟨rfl, hk⟩)
        · exact hk
        · by_contra hnot
          rw [mem_sessionKeys, ← h.session] at hnot
          exact hold ⟨rfl, k, hk, by omega⟩

variable {permits : List Permit}

/-- Releasing a permit takes it out of every count of unreleased permits. -/
theorem countP_release (hf : f { p with released := true } = false) (hi : permits[i]? = some p) :
    (permits.set i { p with released := true }).countP f =
      permits.countP f - if f p then 1 else 0 := by
  obtain ⟨hlt, hget⟩ := List.getElem?_eq_some_iff.mp hi
  rw [List.countP_set hlt, hget, hf]
  simp

theorem countP_pos_of_getElem? {i : Nat} (hi : permits[i]? = some p) (hf : f p = true) :
    0 < permits.countP f :=
  List.countP_pos_iff.mpr ⟨p, List.mem_of_getElem? hi, hf⟩

/-- Returning a counted permit uncounts it. -/
theorem Agrees.returnPermit {s : PoolScheduler} (h : Agrees s permits) (hi : permits[i]? = some p)
    (hp : p.released = false) : Agrees (s.returnPermit p.stickyKey p.account.id)
      (permits.set i { p with released := true }) where
  active b := by
    rw [PoolScheduler.activeCount_returnPermit, countP_release rfl hi, h.active, h.active]
    by_cases hb : b = p.account.id
    · subst hb; simp [Permit.isLiveOn, hp]
    · simp [Permit.isLiveOn, hp, hb, Ne.symm hb]
  session k b := by
    rw [PoolScheduler.sessionPermits_returnPermit, countP_release rfl hi, h.session, h.session]
    by_cases hb : b = p.account.id
    · subst hb
      by_cases hk : p.stickyKey = some k <;> simp [Permit.isLiveFor, Permit.isLiveOn, hp, hk]
    · simp [Permit.isLiveFor, Permit.isLiveOn, hp, hb, Ne.symm hb]
  sessions b := by
    have hmem : ∀ k, k ∈ sessionKeys (permits.set i { p with released := true }) b ↔
        0 < permits.countP (Permit.isLiveFor k b) -
          if p.account.id = b ∧ p.stickyKey = some k then 1 else 0 := fun k => by
      rw [mem_sessionKeys, countP_release rfl hi]
      simp [Permit.isLiveFor, Permit.isLiveOn, hp]
    rw [PoolScheduler.sessionCount_returnPermit, h.sessions, h.sessions]
    split
    · next hlast =>
        obtain ⟨rfl, k, hk, -, hle⟩ := hlast
        rw [h.session] at hle
        have hlive : k ∈ sessionKeys permits p.account.id := mem_sessionKeys.mpr
          (countP_pos_of_getElem? hi (by simp [Permit.isLiveFor, Permit.isLiveOn, hp, hk]))
        rw [← Finset.card_erase_of_mem hlive]
        congr 1
        ext k'
        rw [hmem, Finset.mem_erase, mem_sessionKeys]
        by_cases hk' : k' = k
        · subst hk'; simp [hk]; omega
        · simp [hk, hk', Ne.symm hk']
    · next hmore =>
        congr 1
        ext k
        rw [hmem, mem_sessionKeys]
        split
        · next hk =>
            obtain ⟨rfl, hk⟩ := hk
            have hpos : 0 < permits.countP (Permit.isLiveFor k p.account.id) :=
              countP_pos_of_getElem? hi (by simp [Permit.isLiveFor, Permit.isLiveOn, hp, hk])
            have hmany : ¬ permits.countP (Permit.isLiveFor k p.account.id) ≤ 1 := fun hle =>
              hmore ⟨rfl, k, hk,
                PoolScheduler.isSome_of_sessionPermits_pos (a := p.account.id) (by rwa [h.session]),
                by rwa [h.session]⟩
            omega
        · simp

/-- Returning a permit that is not counted changes no count of an account
without counted permits. -/
theorem Agrees.returnStale (h : Agrees s permits) (hidle : permits.countP (Permit.isLiveOn a) = 0) :
    Agrees (s.returnPermit stickyKey a) permits where
  active b := by
    rw [PoolScheduler.activeCount_returnPermit]
    split
    · next hb => rw [hb, h.active, hidle]
    · exact h.active b
  session k b := by
    rw [PoolScheduler.sessionPermits_returnPermit]
    split
    · next hb =>
        have hle : permits.countP (Permit.isLiveFor k a) ≤ permits.countP (Permit.isLiveOn a) :=
          List.countP_mono_left fun p _ hp => (Bool.and_eq_true _ _ ▸ hp).1
        rw [hb.2, h.session]
        omega
    · exact h.session k b
  sessions b := by
    rw [PoolScheduler.sessionCount_returnPermit]
    split
    · next hb =>
        have hempty : sessionKeys permits a = ∅ := by
          rw [sessionKeys, List.filter_eq_nil_iff.mpr (List.countP_eq_zero.mp hidle)]
          rfl
        rw [hb.1, h.sessions, hempty]
        rfl
    · exact h.sessions b

/-! ## The invariant of a run -/

namespace System

/-- The counters agree with the unreleased permits of the current generation,
every grant was made below the limit in force, and so no account holds more
permits than a bound on the limits they were granted under. -/
structure Sound (y : System) : Prop where
  cleared_le : y.cleared ≤ y.permits.length
  agrees : Agrees y.scheduler y.current
  guarded : ∀ p ∈ y.permits, max 0 p.account.inFlight + p.held < p.limit
  configured : ∀ p ∈ y.permits, p.limit ≤ routeAccountConcurrencyLimit p.account.maxConcurrency
  bounded : ∀ a (bound : Nat), (∀ p ∈ y.current, p.account.id = a → p.limit ≤ bound) →
    y.held a ≤ bound

theorem sound_init (options : PoolSchedulerOptions) : (init options).Sound where
  cleared_le := Nat.le_refl _
  agrees := agrees_nil rfl rfl rfl
  guarded p hp := by cases hp
  configured p hp := by cases hp
  bounded a bound _ := Nat.zero_le _

variable {y : System}

/-- A change that touches neither the counters nor the permits keeps the
invariant. -/
theorem Sound.congr {z : System} (h : y.Sound) (hslots : z.scheduler.slots = y.scheduler.slots)
    (hpermits : z.permits = y.permits) (hcleared : z.cleared = y.cleared) : z.Sound := by
  have hcurrent : z.current = y.current := by rw [current, hpermits, hcleared, current]
  refine ⟨?_, ?_, ?_, ?_, ?_⟩
  · rw [hpermits, hcleared]; exact h.cleared_le
  · rw [hcurrent]; exact h.agrees.congr hslots
  · rw [hpermits]; exact h.guarded
  · rw [hpermits]; exact h.configured
  · intro a bound hbound
    rw [held, hcurrent]
    exact h.bounded a bound (hcurrent ▸ hbound)

theorem Sound.onScheduler (h : y.Sound) (hs : s.slots = y.scheduler.slots) :
    (y.onScheduler s).Sound :=
  h.congr hs rfl rfl

theorem current_grant (h : y.cleared ≤ y.permits.length) (account : Account)
    (stickyKey : Option JsString) (snapshot : Option (Nat × Nat)) (adaptive : Bool)
    (s : PoolScheduler) : (y.grant account stickyKey snapshot adaptive s).current =
      y.current ++ [⟨account, stickyKey, snapshot, false, s.concurrencyLimit account adaptive,
        y.held account.id⟩] :=
  List.drop_append_of_le_length h

/-- A grant keeps the invariant. -/
theorem Sound.grant (h : y.Sound) (hgrant : y.scheduler.Grants now account stickyKey adaptive s)
    (snapshot : Option (Nat × Nat)) : (y.grant account stickyKey snapshot adaptive s).Sound := by
  have hlimit : s.concurrencyLimit account adaptive =
      y.scheduler.concurrencyLimit account adaptive := by
    rw [PoolScheduler.concurrencyLimit_congr hgrant.counters_eq]
    cases stickyKey <;> rfl
  have hguard : max 0 account.inFlight + y.held account.id <
      s.concurrencyLimit account adaptive := by
    have hcapacity := (PoolScheduler.hasCapacity_iff ..).mp hgrant.hasCapacity
    rwa [h.agrees.active, ← hlimit] at hcapacity
  refine ⟨?_, ?_, ?_, ?_, ?_⟩
  · exact h.cleared_le.trans (by simp [System.grant])
  · rw [current_grant h.cleared_le]
    exact (h.agrees.takePermit (p := ⟨account, stickyKey, snapshot, false, _, _⟩) rfl).congr
      (PoolScheduler.slots_congr hgrant.counters_eq)
  · intro p hp
    rcases List.mem_append.mp hp with hp | hp
    · exact h.guarded p hp
    · rw [List.mem_singleton.mp hp]
      exact hguard
  · intro p hp
    rcases List.mem_append.mp hp with hp | hp
    · exact h.configured p hp
    · rw [List.mem_singleton.mp hp]
      exact s.concurrencyLimit_le account adaptive
  · intro a bound hbound
    rw [current_grant h.cleared_le] at hbound
    have hold := h.bounded a bound fun p hp => hbound p (List.mem_append_left _ hp)
    rw [held, current_grant h.cleared_le, List.countP_append, List.countP_singleton]
    split
    · next ha =>
        have ha : account.id = a := by simpa [Permit.isLiveOn] using ha
        have hlast := hbound _ (List.mem_append_right _ List.mem_cons_self) ha
        have hroom : y.held account.id < bound := by
          have hle : (s.concurrencyLimit account adaptive : Rat) ≤ bound := by exact_mod_cast hlast
          have hnonneg : (0 : Rat) ≤ max 0 account.inFlight := le_max_left _ _
          have : (y.held account.id : Rat) < bound := by linarith
          exact_mod_cast this
        rw [ha] at hroom
        exact hroom
    · exact hold

/-- Settling a hand-off keeps the invariant. -/
theorem Sound.settle (h : y.Sound) (hgrant : PoolScheduler.Handoff.Grants now y.scheduler handoff) :
    (y.settle handoff).Sound := by
  unfold PoolScheduler.Handoff.Grants at hgrant
  unfold System.settle
  cases hserved : handoff.served with
  | none =>
      rw [hserved] at hgrant
      exact h.congr (PoolScheduler.slots_congr hgrant.counters_eq) rfl rfl
  | some served =>
      rw [hserved] at hgrant
      exact (h.grant hgrant.2 _).congr rfl rfl rfl

/-- The step does not release a permit granted before the last `clear()` while
its account holds permits granted since. -/
def ReleasesSafely (y : System) : Op → Prop
  | .release permit _ => ∀ p, y.permits[permit]? = some p → p.released = false →
      permit < y.cleared → y.held p.account.id = 0
  | _ => True

instance (y : System) : ∀ op, Decidable (y.ReleasesSafely op)
  | .release permit _ => decidable_of_iff
      (y.permits[permit]?.all fun p => decide (p.released = false → permit < y.cleared →
        y.held p.account.id = 0)) (by simp only [ReleasesSafely, Option.all_eq_true, decide_eq_true_eq])
  | .hydrate .. | .hydratePerformance .. | .selectAndAcquire .. | .tryAcquireAccount ..
  | .selectAndAcquireWhenAvailable .. | .abort .. | .timeout .. | .recordStickyFailure ..
  | .setCooldown .. | .recordFailure .. | .recordSuccess .. | .resetHealth ..
  | .recordPerformance .. | .recordModelFailure .. | .getHealth .. | .getModelCooldowns ..
  | .hasUsableAlternative .. | .clear => .isTrue trivial

/-- A permit whose release closure has run up to the hand-off. -/
def returned (y : System) (i : Nat) (p : Permit) : System :=
  (y.markReleased i p).onScheduler (y.scheduler.returnPermit p.stickyKey p.account.id)

theorem current_returned_of_le (p : Permit) (h : y.cleared ≤ i) :
    (y.returned i p).current = y.current.set (i - y.cleared) { p with released := true } :=
  List.drop_set.trans (if_neg (Nat.not_lt.mpr h))

theorem current_returned_of_lt (p : Permit) (h : i < y.cleared) :
    (y.returned i p).current = y.current :=
  List.drop_set_of_lt h

theorem cleared_le_returned (h : y.cleared ≤ y.permits.length) (i : Nat) (p : Permit) :
    (y.returned i p).cleared ≤ (y.returned i p).permits.length :=
  h.trans_eq List.length_set.symm

/-- Releasing a permit leaves every grant as it was made. -/
theorem forall_returned {f : Permit → Prop} (hf : ∀ p, f p → f { p with released := true })
    (h : ∀ p ∈ y.permits, f p) (hi : y.permits[i]? = some p) :
    ∀ q ∈ (y.returned i p).permits, f q := by
  intro q hq
  rcases List.mem_or_eq_of_mem_set hq with hq | rfl
  · exact h q hq
  · exact hf p (h p (List.mem_of_getElem? hi))

/-- Returning a current permit keeps the invariant. -/
theorem Sound.returnCurrent (h : y.Sound) (hi : y.permits[i]? = some p) (hp : p.released = false)
    (hcurrent : y.cleared ≤ i) : (y.returned i p).Sound := by
  have hi' : y.current[i - y.cleared]? = some p := by
    rw [current, List.getElem?_drop, Nat.add_sub_cancel' hcurrent, hi]
  have hcur := current_returned_of_le p hcurrent
  refine ⟨cleared_le_returned h.cleared_le i p, ?_, forall_returned (fun _ h => h) h.guarded hi,
    forall_returned (fun _ h => h) h.configured hi, ?_⟩
  · rw [hcur]
    exact h.agrees.returnPermit hi' hp
  · intro a bound hbound
    rw [hcur] at hbound
    have hold : y.held a ≤ bound := h.bounded a bound fun q hq ha => by
      obtain ⟨j, hj⟩ := List.mem_iff_getElem?.mp hq
      -- the marked permit still carries the limit it was granted under
      by_cases hij : j = i - y.cleared
      · subst hij
        cases hi'.symm.trans hj
        exact hbound { p with released := true } (List.mem_of_getElem?
          (List.getElem?_set_self (List.getElem?_eq_some_iff.mp hi').1)) ha
      · exact hbound q (List.mem_of_getElem? ((List.getElem?_set_ne (Ne.symm hij)).trans hj)) ha
    rw [held, hcur, countP_release rfl hi']
    exact (Nat.sub_le _ _).trans hold

/-- Returning a stale permit of an idle account keeps the invariant. -/
theorem Sound.returnStale (h : y.Sound) (hi : y.permits[i]? = some p) (hstale : i < y.cleared)
    (hidle : y.held p.account.id = 0) : (y.returned i p).Sound := by
  have hcur := current_returned_of_lt p hstale
  refine ⟨cleared_le_returned h.cleared_le i p, ?_, forall_returned (fun _ h => h) h.guarded hi,
    forall_returned (fun _ h => h) h.configured hi, ?_⟩
  · rw [hcur]
    exact h.agrees.returnStale hidle
  · intro a bound hbound
    rw [held, hcur]
    exact h.bounded a bound (hcur ▸ hbound)

theorem settle_onScheduler (y : System) (s : PoolScheduler) (handoff : Handoff) :
    (y.onScheduler s).settle handoff = y.settle handoff := by
  unfold System.settle
  cases handoff.served <;> rfl

theorem release_eq (env : Env) (hi : y.permits[i]? = some p) (hp : p.released = false)
    (now : Millis) : y.release env i now = (y.returned i p).settle
      ((y.returned i p).scheduler.fulfillOneCapacityWaiter env y.abortedSignals p.account.id
        now) := by
  rw [System.release, hi, returned, settle_onScheduler]
  simp only [hp, Bool.false_eq_true, if_false, PoolScheduler.releasePermit_eq]
  rfl

theorem Sound.release (h : y.Sound) (env : Env) (i : Nat) (now : Millis)
    (hsafe : y.ReleasesSafely (.release i now)) : (y.release env i now).Sound := by
  cases hi : y.permits[i]? with
  | none => rw [System.release, hi]; exact h
  | some p =>
      cases hp : p.released with
      | true => rw [System.release, hi]; simpa [hp] using h
      | false =>
          have hreturned : (y.returned i p).Sound := by
            by_cases hstale : i < y.cleared
            · exact h.returnStale hi hstale (hsafe p hi hp hstale)
            · exact h.returnCurrent hi hp (by omega)
          rw [release_eq env hi hp]
          exact hreturned.settle (PoolScheduler.fulfillFrom_grants ..)

theorem Sound.clear (h : y.Sound) : y.clear.Sound := by
  have hcur : y.clear.current = [] := List.drop_length
  refine ⟨Nat.le_refl _, ?_, h.guarded, h.configured, ?_⟩
  · rw [hcur]
    exact agrees_nil rfl rfl rfl
  · intro a bound _
    rw [held, hcur]
    exact Nat.zero_le _

theorem slots_foldl {α : Type} {f : PoolScheduler → α → PoolScheduler}
    (hf : ∀ s a, (f s a).slots = s.slots) (s : PoolScheduler) (as : List α) :
    (as.foldl f s).slots = s.slots := by
  induction as generalizing s with
  | nil => rfl
  | cons a as ih => exact (ih _).trans (hf s a)

@[simp] theorem slots_setPerformance (s : PoolScheduler)
    (performance : JsMap JsString AccountPerformanceState) :
    ({ s with performance := performance } : PoolScheduler).slots = s.slots := rfl

theorem slots_observeOutcome (env : Env) (s : PoolScheduler) (accountId : JsString)
    (success : Bool) (sample : AccountPerformanceSample) (observedAt : Millis)
    (adaptConcurrency : Bool) :
    (s.observeOutcome env accountId success sample observedAt adaptConcurrency).slots = s.slots :=
  slots_setPerformance s _

theorem slots_hydratePerformance (env : Env) (s : PoolScheduler) (logs : List RequestLog)
    (now : Millis) : (s.hydratePerformance env logs now).slots = s.slots := by
  unfold PoolScheduler.hydratePerformance
  refine slots_foldl (fun t accountId => ?_) s _
  split
  · rfl
  · exact slots_foldl (fun u log => slots_observeOutcome env u ..) t _

theorem slots_recordFailure (env : Env) (s : PoolScheduler) (accountId : JsString)
    (options : AccountFailureOptions) (now : Millis) :
    (s.recordFailure env accountId options now).2.slots = s.slots := by
  unfold PoolScheduler.recordFailure
  split
  · rfl
  · exact (slots_setPerformance ..).trans (slots_observeOutcome ..)

theorem slots_recordPerformance (env : Env) (s : PoolScheduler) (accountId : JsString)
    (sample : AccountPerformanceSample) (revision epoch : Option Nat) (now : Millis) :
    (s.recordPerformance env accountId sample revision epoch now).2.slots = s.slots := by
  unfold PoolScheduler.recordPerformance
  split
  · rfl
  · exact slots_observeOutcome ..

/-- Every operation that releases safely keeps the invariant. -/
theorem Sound.step (h : y.Sound) (env : Env) (op : Op) (hsafe : y.ReleasesSafely op) :
    (y.step env op).Sound := by
  cases op with
  | selectAndAcquire input now =>
      have hspec := PoolScheduler.selectAndAcquire_spec env y.scheduler input now
      unfold System.step
      dsimp only
      cases hsel : y.scheduler.selectAndAcquire env input now with
      | mk result s =>
          rw [hsel] at hspec
          cases result with
          | ok selection => exact h.grant hspec.2.2 _
          | error e => exact h.onScheduler (PoolScheduler.slots_congr hspec.counters_eq)
  | tryAcquireAccount account pool now =>
      have hspec := PoolScheduler.tryAcquireAccount_spec y.scheduler account pool now
      unfold System.step
      dsimp only
      cases hsel : y.scheduler.tryAcquireAccount account pool now with
      | mk result s =>
          rw [hsel] at hspec
          rcases result with e | _ | _
          · exact h.onScheduler (PoolScheduler.slots_congr hspec.counters_eq)
          · exact h.onScheduler (PoolScheduler.slots_congr hspec.counters_eq)
          · exact h.grant hspec _
  | selectAndAcquireWhenAvailable input signal deadlineAt maxWaitMs now =>
      have hspec := PoolScheduler.selectAndAcquireWhenAvailable_grants env
        y.abortedSignals y.scheduler input signal deadlineAt maxWaitMs now
      unfold System.step
      dsimp only
      generalize y.scheduler.selectAndAcquireWhenAvailable env y.abortedSignals input signal
        deadlineAt maxWaitMs now = waited at hspec ⊢
      obtain ⟨_ | _ | _, handoff⟩ := waited
      · exact h.onScheduler (PoolScheduler.slots_congr hspec.counters_eq)
      · exact h.grant hspec.2 _
      · exact h.settle hspec
  | release permit now => exact h.release env permit now hsafe
  | clear => exact h.clear
  | abort signal =>
      exact h.congr (slots_foldl (f := fun s (waiter : CapacityWaiter) =>
        s.rejectCapacityWaiter waiter.id) (fun s waiter => PoolScheduler.slots_congr
          (PoolScheduler.keeps_rejectCapacityWaiter 0 s waiter.id).counters_eq) _ _) rfl rfl
  | timeout waiterId =>
      unfold System.step System.timeout
      dsimp only
      split
      · exact h
      · exact h.congr (PoolScheduler.slots_congr
          (PoolScheduler.keeps_rejectCapacityWaiter 0 ..).counters_eq) rfl rfl
  | hydratePerformance logs now => exact h.onScheduler (slots_hydratePerformance ..)
  | recordFailure accountId options now => exact h.onScheduler (slots_recordFailure ..)
  | recordPerformance accountId sample revision epoch now =>
      exact h.onScheduler (slots_recordPerformance ..)
  | hasUsableAlternative =>
      exact h.onScheduler (PoolScheduler.slots_congr
        (PoolScheduler.looks_anyAvailable ..).counters_eq)
  | hydrate | recordStickyFailure | setCooldown | recordSuccess | resetHealth | recordModelFailure
  | getHealth | getModelCooldowns => exact h.congr rfl rfl rfl

/-- The invariant holds in every state reached by safe steps. -/
theorem sound_run (env : Env) (options : PoolSchedulerOptions) {ops : List Op}
    (hsafe : Lib.Along (step env) ReleasesSafely (init options) ops) :
    (run env (init options) ops).Sound :=
  Lib.invariant_of_along Sound (fun _ op h hop => h.step env op hop) (sound_init options) hsafe

theorem cleared_settle (y : System) (handoff : Handoff) :
    (y.settle handoff).cleared = y.cleared := by
  unfold System.settle
  split <;> rfl

/-- Only `clear()` starts a new generation of permits. -/
theorem cleared_step (env : Env) (y : System) (hop : op ≠ .clear) :
    (y.step env op).cleared = y.cleared := by
  cases op with
  | clear => exact absurd rfl hop
  | selectAndAcquire | tryAcquireAccount =>
      unfold System.step
      dsimp only
      split <;> rfl
  | selectAndAcquireWhenAvailable =>
      unfold System.step
      dsimp only
      split
      · rfl
      · exact cleared_settle ..
      · rfl
  | release permit now =>
      unfold System.step System.release
      dsimp only
      split
      · rfl
      · split
        · rfl
        · exact cleared_settle ..
  | timeout =>
      unfold System.step System.timeout
      dsimp only
      split <;> rfl
  | _ => rfl

/-- Without a `clear()` no permit is stale, so every run is safe. -/
theorem sound_run_of_no_clear (env : Env) (options : PoolSchedulerOptions) {ops : List Op}
    (hclear : ∀ op ∈ ops, op ≠ .clear) :
    (run env (init options) ops).Sound ∧ (run env (init options) ops).cleared = 0 := by
  have hinit : (init options).Sound ∧ (init options).cleared = 0 := ⟨sound_init options, rfl⟩
  refine Lib.invariant_of_along (fun y : System => y.Sound ∧ y.cleared = 0) ?_ hinit
    (Lib.along_of_forall hclear _)
  rintro y op ⟨hsound, hcleared⟩ hop
  refine ⟨hsound.step env op ?_, (cleared_step env y hop).trans hcleared⟩
  cases op with
  | release i now => exact fun p _ _ hstale => absurd hstale (by omega)
  | _ => exact trivial

/-! ## Main results -/

/-- Permit accounting.  In every run without a `clear()` the active count of
every account is the number of its unreleased permits, every permit was
granted below the limit in force, and the sticky-session count is the number
of distinct sessions that hold an unreleased permit. -/
theorem permits_accounted (env : Env) (options : PoolSchedulerOptions) (ops : List Op)
    (hclear : ∀ op ∈ ops, op ≠ .clear) :
    let y := run env (init options) ops
    (∀ a, y.scheduler.activeCount a = y.permits.countP (Permit.isLiveOn a)) ∧
    (∀ p ∈ y.permits, p.account.inFlight + p.held < p.limit) ∧
    (∀ a, y.scheduler.sessionCount a = (sessionKeys y.permits a).card) := by
  intro y
  obtain ⟨hsound, hcleared⟩ := sound_run_of_no_clear env options hclear
  have hcurrent : y.current = y.permits := by rw [current, hcleared, List.drop_zero]
  refine ⟨fun a => ?_, fun p hp => ?_, fun a => ?_⟩
  · rw [← hcurrent]; exact hsound.agrees.active a
  · have hguard := hsound.guarded p hp
    have hle : p.account.inFlight ≤ max 0 p.account.inFlight := le_max_right _ _
    linarith
  · rw [← hcurrent]; exact hsound.agrees.sessions a

/-- One selection, released twice. -/
theorem permits_accounted_of_double_release :
    let y := run Env.plain (init .default)
      [.selectAndAcquire (plainInput (plainPool .balanced) [plainAccount "a" 1]) 0,
        .release 0 1, .release 0 2]
    (∀ a, y.scheduler.activeCount a = y.permits.countP (Permit.isLiveOn a)) ∧
    (∀ p ∈ y.permits, p.account.inFlight + p.held < p.limit) ∧
    (∀ a, y.scheduler.sessionCount a = (sessionKeys y.permits a).card) :=
  permits_accounted Env.plain .default _ (by simp)

/-- A stale release up to its hand-off leaves every count alone exactly when
its account holds no current permit. -/
theorem Sound.returnStale_iff (h : y.Sound) (hi : y.permits[i]? = some p) (hstale : i < y.cleared) :
    ((∀ a, (y.returned i p).scheduler.activeCount a = y.scheduler.activeCount a) ∧
      (∀ a, (y.returned i p).scheduler.sessionCount a = y.scheduler.sessionCount a)) ↔
    y.held p.account.id = 0 := by
  constructor
  · rintro ⟨hactive, -⟩
    have hcount : y.scheduler.activeCount p.account.id = y.held p.account.id :=
      h.agrees.active p.account.id
    have hsame : (y.scheduler.returnPermit p.stickyKey p.account.id).activeCount p.account.id =
        y.scheduler.activeCount p.account.id := hactive p.account.id
    rw [PoolScheduler.activeCount_returnPermit, if_pos rfl] at hsame
    omega
  · intro hidle
    have hagrees := (h.returnStale hi hstale hidle).agrees
    rw [current_returned_of_lt p hstale] at hagrees
    exact ⟨fun a => (hagrees.active a).trans (h.agrees.active a).symm,
      fun a => (hagrees.sessions a).trans (h.agrees.sessions a).symm⟩

/-- Permits across `clear()`.  In every run that releases a stale permit only
while its account holds no current one, the counters count the current permits
in every state reached, no account holds more of them than its configured
limit, and a further stale release changes no count exactly when its account
holds no current permit. -/
theorem current_permits_counted (env : Env) (options : PoolSchedulerOptions) (ops : List Op)
    (hsafe : Lib.Along (step env) ReleasesSafely (init options) ops) :
    let y := run env (init options) ops
    (∀ a, y.scheduler.activeCount a = y.held a) ∧
    (∀ a, y.scheduler.sessionCount a = (sessionKeys y.current a).card) ∧
    (∀ a (limit : Nat), (∀ p ∈ y.current, p.account.id = a →
      routeAccountConcurrencyLimit p.account.maxConcurrency ≤ limit) → y.held a ≤ limit) ∧
    (∀ i p, y.permits[i]? = some p → i < y.cleared →
      (((∀ a, (y.returned i p).scheduler.activeCount a = y.scheduler.activeCount a) ∧
        (∀ a, (y.returned i p).scheduler.sessionCount a = y.scheduler.sessionCount a)) ↔
      y.held p.account.id = 0)) := by
  intro y
  have hsound := sound_run env options hsafe
  refine ⟨hsound.agrees.active, hsound.agrees.sessions, fun a limit hlimit => ?_,
    fun i p hi hstale => hsound.returnStale_iff hi hstale⟩
  refine hsound.bounded a limit fun p hp ha => (hsound.configured p ?_).trans (hlimit p hp ha)
  exact List.mem_of_mem_drop hp

/-- A stale permit of one account, released while another account serves. -/
theorem current_permits_counted_of_idle_release :
    let input (id : String) := plainInput (plainPool .balanced) [plainAccount id 1]
    let y := run Env.plain (init .default)
      [.selectAndAcquire (input "a") 0, .clear, .selectAndAcquire (input "b") 1, .release 0 2]
    y.held (js "b") = 1 ∧ y.scheduler.activeCount (js "b") = y.held (js "b") := by
  intro input
  exact ⟨by decide +kernel,
    (current_permits_counted Env.plain .default _ (by decide +kernel)).1 (js "b")⟩

/-- The counters outlive their permits: a stale release frees the slot of a
permit granted after the `clear()`, and an account of limit one serves two
requests at once. -/
theorem stale_release_frees_current_slot :
    let input := plainInput (plainPool .balanced) [plainAccount "a" 1]
    let y := run Env.plain (init .default)
      [.selectAndAcquire input 0, .clear, .selectAndAcquire input 1]
    let z := run Env.plain y [.release 0 2]
    let w := run Env.plain z [.selectAndAcquire input 3]
    y.held (js "a") = 1 ∧ y.scheduler.activeCount (js "a") = 1 ∧
    z.held (js "a") = 1 ∧ z.scheduler.activeCount (js "a") = 0 ∧
    w.held (js "a") = 2 := by
  decide +kernel

end System

end StonePlus.Scheduler
