import StonePlus.Scheduler.Waiters
import Mathlib.Logic.Relation

/-!
# StonePlus.Scheduler.Frame

What a selection leaves alone.

Looking for an account checks availability, moves sticky entries, advances
the round-robin offsets, the smooth weighted scores and the random source.
`Looks` says so for two states: the circuits differ by availability checks
made at one time, and the `core`, everything but these five components, is
the same.  The permit counters, the learned limits and the waiter queue are
read off the core.  `Grants` is a look that ends with one permit taken.
-/

namespace StonePlus.Scheduler

namespace Circuits

/-- The circuits after `isAvailable` was asked about an account. -/
def check (c : Circuits) (account : Account) (model : Option JsString) (now : Millis) : Circuits :=
  match PoolScheduler.modelGate c account model now with
  | (false, d) => d
  | (true, d) => d.probe account now

/-- `d` results from `c` by availability checks, all made at `now`. -/
def Checked (now : Millis) : Circuits → Circuits → Prop :=
  Relation.ReflTransGen fun c d => ∃ account model, d = c.check account model now

end Circuits

namespace PoolScheduler

/-! ## What is looked at -/

/-- The state without the components that picking an account changes. -/
def frame (s : PoolScheduler) : PoolScheduler :=
  { s with
    stickyCache := StickyCache.init 0 0
    roundRobinOffsets := ∅
    smoothWeighted := ∅
    randomCalls := 0 }

/-- The frame without the circuits. -/
def core (s : PoolScheduler) : PoolScheduler := { s.frame with circuits := Circuits.init }

/-- The core without the waiter queue: the permit counters, the learned limits
and the configured bounds. -/
def counters (s : PoolScheduler) : PoolScheduler :=
  { s.core with
    capacityWaiters := ∅
    capacityWaiterCountsByPool := ∅
    nextCapacityWaiterId := 0 }

@[simp] theorem frame_setStickyCache (s : PoolScheduler) (stickyCache : StickyCache) :
    ({ s with stickyCache := stickyCache } : PoolScheduler).frame = s.frame := rfl

variable {s t : PoolScheduler}

theorem counters_congr (h : s.core = t.core) : s.counters = t.counters := by
  change s.core.counters = t.core.counters
  rw [h]

/-- Whatever is read off the core agrees in states with the same core. -/
theorem eq_of_core {α : Type} (f : PoolScheduler → α) (hf : ∀ u : PoolScheduler, f u.core = f u)
    (h : s.core = t.core) : f s = f t := by
  rw [← hf s, h, hf t]

/-- Whatever is read off the counters agrees in states with the same counters. -/
theorem eq_of_counters {α : Type} (f : PoolScheduler → α)
    (hf : ∀ u : PoolScheduler, f u.counters = f u) (h : s.counters = t.counters) : f s = f t := by
  rw [← hf s, h, hf t]

theorem hasCapacity_congr (h : s.counters = t.counters) (account : Account) (adaptive : Bool) :
    s.hasCapacity account adaptive = t.hasCapacity account adaptive :=
  eq_of_counters (fun u => u.hasCapacity account adaptive) (fun _ => rfl) h

theorem concurrencyLimit_congr (h : s.counters = t.counters) (account : Account) (adaptive : Bool) :
    s.concurrencyLimit account adaptive = t.concurrencyLimit account adaptive :=
  eq_of_counters (fun u => u.concurrencyLimit account adaptive) (fun _ => rfl) h

/-- `t` differs from `s` by availability checks at `now` and by what picking
an account changes. -/
structure Looks (now : Millis) (s t : PoolScheduler) : Prop where
  core_eq : t.core = s.core
  checked : Circuits.Checked now s.circuits t.circuits

namespace Looks

variable {now : Millis} {s t u : PoolScheduler}

theorem refl (now : Millis) (s : PoolScheduler) : Looks now s s := ⟨rfl, .refl⟩

theorem trans (h : Looks now s t) (h' : Looks now t u) : Looks now s u :=
  ⟨h'.core_eq.trans h.core_eq, h.checked.trans h'.checked⟩

theorem of_frame (h : t.frame = s.frame) : Looks now s t := by
  refine ⟨?_, ?_⟩
  · rw [core, h, core]
  · have hcircuits : t.frame.circuits = s.frame.circuits := by rw [h]
    exact (show t.circuits = s.circuits from hcircuits) ▸ .refl

theorem counters_eq (h : Looks now s t) : t.counters = s.counters := counters_congr h.core_eq

end Looks

/-! ## Eligibility -/

theorem circuits_isAvailable (s : PoolScheduler) (account : Account) (pool : Option Pool)
    (now : Millis) (model : Option JsString) :
    (s.isAvailable account pool now model).2.circuits = s.circuits.check account model now := by
  unfold isAvailable Circuits.check
  generalize modelGate s.circuits account model now = gate
  obtain ⟨_ | _, d⟩ := gate <;> rfl

theorem looks_isAvailable (s : PoolScheduler) (account : Account) (pool : Option Pool)
    (now : Millis) (model : Option JsString) :
    Looks now s (s.isAvailable account pool now model).2 := by
  refine ⟨?_, .single ⟨account, model, circuits_isAvailable s account pool now model⟩⟩
  unfold isAvailable
  split <;> rfl

theorem isEligible_eq (s : PoolScheduler) (account : Account) (pool : Pool) (adaptive : Bool)
    (now : Millis) (model : Option JsString) :
    s.isEligible account pool adaptive now model =
      let available := s.isAvailable account (some pool) now model
      (available.1 && available.2.hasCapacity account adaptive, available.2) := by
  unfold isEligible
  generalize s.isAvailable account (some pool) now model = available
  obtain ⟨_ | _, t⟩ := available <;> rfl

theorem looks_isEligible (s : PoolScheduler) (account : Account) (pool : Pool)
    (adaptive : Bool) (now : Millis) (model : Option JsString) :
    Looks now s (s.isEligible account pool adaptive now model).2 := by
  rw [isEligible_eq]
  exact looks_isAvailable ..

/-- An eligible account has capacity in the state it was asked in. -/
theorem hasCapacity_of_isEligible (h : (s.isEligible account pool adaptive now model).1 = true) :
    s.hasCapacity account adaptive = true := by
  rw [isEligible_eq] at h
  rw [← hasCapacity_congr (looks_isAvailable s account (some pool) now model).counters_eq]
  exact (Bool.and_eq_true _ _ ▸ h).2

/-! ## Filters -/

/-- A filter whose test only looks only looks. -/
theorem looks_filterM (htest : ∀ s account, Looks now s (test s account).2) (s : PoolScheduler)
    (accounts : List Account) : Looks now s (filterM test s accounts).2 := by
  induction accounts generalizing s with
  | nil => exact Looks.refl now s
  | cons account rest ih => exact (htest s account).trans (ih _)

theorem mem_filterM_cons : account ∈ (filterM test s (first :: rest)).1 ↔
      (account = first ∧ (test s first).1 = true) ∨
        account ∈ (filterM test (test s first).2 rest).1 := by
  cases h : (test s first).1 <;> simp [filterM, h]

/-- What a filter keeps, its test accepted after some looking. -/
theorem accepted_of_mem_filterM (htest : ∀ s account, Looks now s (test s account).2)
    (h : account ∈ (filterM test s accounts).1) :
    ∃ t, Looks now s t ∧ (test t account).1 = true := by
  induction accounts generalizing s with
  | nil => simp [filterM] at h
  | cons first rest ih =>
      rcases mem_filterM_cons.mp h with ⟨rfl, haccept⟩ | hrest
      · exact ⟨s, Looks.refl now s, haccept⟩
      · obtain ⟨t, ht, haccept⟩ := ih hrest
        exact ⟨t, (htest s first).trans ht, haccept⟩

theorem runtimeEligible_eq (input : SchedulerSelectionInput) (now : Millis) (s : PoolScheduler)
    (h : account.id ∉ input.excludedAccountIds) :
    runtimeEligible input now s account = s.isEligible account input.pool (isAdaptive input.pool)
      now (SchedulerSelectionInput.cooldownKey input) :=
  if_neg h

theorem looks_runtimeEligible (input : SchedulerSelectionInput) (now : Millis)
    (s : PoolScheduler) (account : Account) :
    Looks now s (runtimeEligible input now s account).2 := by
  by_cases h : account.id ∈ input.excludedAccountIds
  · rw [runtimeEligible, if_pos h]
    exact Looks.refl now s
  · rw [runtimeEligible_eq input now s h]
    exact looks_isEligible ..

theorem hasCapacity_of_runtimeEligible (h : (runtimeEligible input now s account).1 = true) :
    s.hasCapacity account (isAdaptive input.pool) = true := by
  unfold runtimeEligible at h
  split at h
  · cases h
  · exact hasCapacity_of_isEligible h

theorem candidates_eq (s : PoolScheduler) (input : SchedulerSelectionInput) (now : Millis) :
    s.candidates input now =
      let verified := filterM (runtimeEligible input now) s (sourceEligibility input).verified
      if verified.1 = [] then
        filterM (runtimeEligible input now) verified.2 (sourceEligibility input).unknown
      else verified := by
  unfold candidates
  generalize filterM (runtimeEligible input now) s (sourceEligibility input).verified = verified
  obtain ⟨_ | ⟨account, rest⟩, t⟩ := verified <;> rfl

theorem looks_candidates (s : PoolScheduler) (input : SchedulerSelectionInput)
    (now : Millis) : Looks now s (s.candidates input now).2 := by
  have hfilter := looks_filterM (looks_runtimeEligible input now)
  rw [candidates_eq]
  dsimp only
  split
  · exact (hfilter _ _).trans (hfilter _ _)
  · exact hfilter _ _

/-- Every candidate has capacity. -/
theorem hasCapacity_of_mem_candidates (h : account ∈ (s.candidates input now).1) :
    s.hasCapacity account (isAdaptive input.pool) = true := by
  have hfiltered : ∀ (t : PoolScheduler) (accounts : List Account), Looks now s t →
      account ∈ (filterM (runtimeEligible input now) t accounts).1 →
      s.hasCapacity account (isAdaptive input.pool) = true := by
    intro t accounts ht hmem
    obtain ⟨u, hu, haccept⟩ := accepted_of_mem_filterM (looks_runtimeEligible input now) hmem
    rw [← hasCapacity_congr (ht.trans hu).counters_eq]
    exact hasCapacity_of_runtimeEligible haccept
  rw [candidates_eq] at h
  dsimp only at h
  split at h
  · exact hfiltered _ _ (looks_filterM (looks_runtimeEligible input now) _ _) h
  · exact hfiltered _ _ (Looks.refl now s) h

/-! ## Strategies -/

@[simp] theorem frame_nextRandom (env : Env) (s : PoolScheduler) :
    (s.nextRandom env).2.frame = s.frame := rfl

theorem frame_pickSmoothWeighted (env : Env) (s : PoolScheduler) (pool : Pool)
    (candidates configuredAccounts : List Account) (now : Millis) :
    (s.pickSmoothWeighted env pool candidates configuredAccounts now).2.frame = s.frame := by
  unfold pickSmoothWeighted
  dsimp only
  split <;> rfl

theorem frame_pickWeightedRandom (env : Env) (s : PoolScheduler) (candidates : List Account)
    (now : Millis) : (s.pickWeightedRandom env candidates now).2.frame = s.frame := by
  unfold pickWeightedRandom
  dsimp only
  split <;> rfl

@[simp] theorem frame_pickCheapest (env : Env) (s : PoolScheduler) (candidates : List Account)
    (stickyKey : Option JsString) (now : Millis) :
    (s.pickCheapest env candidates stickyKey now).2.frame = s.frame := by
  unfold pickCheapest
  dsimp only
  split <;> rfl

theorem frame_pickAutoBalanced (env : Env) (s : PoolScheduler) (candidates : List Account)
    (stickyKey : Option JsString) (now : Millis) :
    (s.pickAutoBalanced env candidates stickyKey now).2.frame = s.frame := by
  unfold pickAutoBalanced
  dsimp only
  split
  · split
    · rfl
    · rw [frame_pickCheapest, frame_nextRandom]
  · exact frame_pickCheapest ..

@[simp] theorem frame_pick (env : Env) (s : PoolScheduler) (pool : Pool)
    (candidates configuredAccounts : List Account) (stickyKey : Option JsString) (now : Millis) :
    (s.pick env pool candidates configuredAccounts stickyKey now).2.frame = s.frame := by
  unfold pick
  cases pool.strategy with
  | priority | balanced | other | roundRobin => rfl
  | autobalanced => exact frame_pickAutoBalanced ..
  | weightedRoundRobin => exact frame_pickSmoothWeighted ..
  | weightedRandom => exact frame_pickWeightedRandom ..

/-! ## Selection -/

@[simp] theorem frame_consultAvoidance (s : PoolScheduler) (stickyKey : JsString)
    (candidates : List Account) (now : Millis) :
    (s.consultAvoidance stickyKey candidates now).2.frame = s.frame := by
  unfold consultAvoidance
  split
  · rfl
  · split <;> rfl

@[simp] theorem frame_consultAssignment (env : Env) (s : PoolScheduler) (pool : Pool)
    (stickyKey : JsString) (candidates : List Account) (failed : Option JsString) (now : Millis) :
    (s.consultAssignment env pool stickyKey candidates failed now).2.frame = s.frame := by
  unfold consultAssignment
  split
  · rfl
  · split
    · dsimp only
      split
      · rfl
      · split <;> rfl
    · rfl

@[simp] theorem frame_consultSticky (env : Env) (s : PoolScheduler) (pool : Pool)
    (stickyKey : Option JsString) (candidates : List Account) (now : Millis) :
    (s.consultSticky env pool stickyKey candidates now).2.frame = s.frame := by
  cases stickyKey with
  | none => rfl
  | some key =>
      exact (frame_consultAssignment ..).trans (frame_consultAvoidance s key candidates now)

/-- The assigned account is taken from the candidates. -/
theorem consultSticky_mem {candidates : List Account}
    (h : (s.consultSticky env pool stickyKey candidates now).1.selected = some selected) :
    selected ∈ candidates := by
  cases stickyKey with
  | none => cases h
  | some key =>
      dsimp only [consultSticky] at h
      unfold consultAssignment at h
      split at h
      · cases h
      · split at h
        · dsimp only at h
          split at h
          · cases h
          · next hfind =>
              split at h
              · cases h
              · cases h
                exact List.mem_of_find?_eq_some hfind
        · cases h

theorem choose_eq (env : Env) (s : PoolScheduler) (input : SchedulerSelectionInput)
    (stickyKey : Option JsString) (candidates : List Account) (now : Millis) :
    s.choose env input stickyKey candidates now =
      let sticky := s.consultSticky env input.pool stickyKey candidates now
      let preferred := preferredCandidates sticky.1 candidates
      match sticky.1.selected with
      | some selected => (some selected, sticky.2)
      | none => sticky.2.pick env input.pool (if preferred = [] then candidates else preferred)
          input.accounts stickyKey now := by
  unfold choose
  generalize s.consultSticky env input.pool stickyKey candidates now = sticky
  obtain ⟨⟨_ | selected, escaped, failed⟩, t⟩ := sticky <;> rfl

@[simp] theorem frame_choose (env : Env) (s : PoolScheduler) (input : SchedulerSelectionInput)
    (stickyKey : Option JsString) (candidates : List Account) (now : Millis) :
    (s.choose env input stickyKey candidates now).2.frame = s.frame := by
  rw [choose_eq]
  dsimp only
  split
  · exact frame_consultSticky ..
  · rw [frame_pick, frame_consultSticky]

/-- The chosen account is one of the candidates. -/
theorem choose_mem {candidates : List Account}
    (h : (s.choose env input stickyKey candidates now).1 = some selected) :
    selected ∈ candidates := by
  rw [choose_eq] at h
  dsimp only at h
  split at h
  · next heq =>
      cases h
      exact consultSticky_mem heq
  · have hpick := pick_mem h
    split at hpick
    · exact hpick
    · unfold preferredCandidates at hpick
      split at hpick
      · exact List.mem_of_mem_filter hpick
      · exact hpick

/-- Take a slot of an account and count the session that holds it. -/
def takePermit (s : PoolScheduler) (stickyKey : Option JsString) (accountId : JsString) :
    PoolScheduler :=
  match stickyKey with
  | none => s.acquireAccountSlot accountId
  | some key => (s.acquireAccountSlot accountId).acquireActiveStickySession key accountId

theorem takePermit_congr (h : s.counters = t.counters) (stickyKey : Option JsString)
    (accountId : JsString) :
    (s.takePermit stickyKey accountId).counters = (t.takePermit stickyKey accountId).counters :=
  eq_of_counters (fun u => (u.takePermit stickyKey accountId).counters)
    (fun _ => by cases stickyKey <;> rfl) h

theorem circuits_takePermit (s : PoolScheduler) (stickyKey : Option JsString)
    (accountId : JsString) : (s.takePermit stickyKey accountId).circuits = s.circuits := by
  cases stickyKey <;> rfl

theorem frame_acquire (s : PoolScheduler) (pool : Pool) (stickyKey : Option JsString)
    (selected : Account) (now : Millis) :
    (s.acquire pool stickyKey selected now).frame = (s.takePermit stickyKey selected.id).frame := by
  cases stickyKey with
  | none => rfl
  | some key => exact frame_setStickyCache _ _

theorem capacityWaiters_acquire (s : PoolScheduler) (pool : Pool) (stickyKey : Option JsString)
    (selected : Account) (now : Millis) :
    (s.acquire pool stickyKey selected now).capacityWaiters = s.capacityWaiters := by
  cases stickyKey <;> rfl

@[simp] theorem frame_beginSelection (s : PoolScheduler) (pool : Pool) (now : Millis) :
    (s.beginSelection pool now).frame = s.frame := rfl

/-- `t` is what a grant to the account makes of `s`: the account had capacity,
its slot and session are counted, and beyond that `s` was looked at. -/
structure Grants (now : Millis) (s : PoolScheduler) (account : Account)
    (stickyKey : Option JsString) (adaptive : Bool) (t : PoolScheduler) : Prop where
  hasCapacity : s.hasCapacity account adaptive = true
  counters_eq : t.counters = (s.takePermit stickyKey account.id).counters
  checked : Circuits.Checked now s.circuits t.circuits

/-- The generation a selection carries is the one its account has in `t`. -/
def SnapshotIn (t : PoolScheduler) (selection : ScheduledSelection) : Prop :=
  selection.healthRevision = t.circuits.getHealthRevision selection.account.id ∧
    selection.resetEpoch = t.circuits.getResetEpoch selection.account.id

/-- Taking a permit for an account that had capacity. -/
theorem grants_takePermit (hu : Looks now s u) (hcapacity : s.hasCapacity account adaptive = true)
    (ht : t.frame = (u.takePermit stickyKey account.id).frame) :
    s.Grants now account stickyKey adaptive t := by
  have hlast : Looks now (u.takePermit stickyKey account.id) t := Looks.of_frame ht
  refine ⟨hcapacity, hlast.counters_eq.trans (takePermit_congr hu.counters_eq _ _), ?_⟩
  exact hu.checked.trans (circuits_takePermit u stickyKey account.id ▸ hlast.checked)

/-- A selection grants one permit or only looks. -/
theorem selectAndAcquire_spec (env : Env) (s : PoolScheduler) (input : SchedulerSelectionInput)
    (now : Millis) :
    match s.selectAndAcquire env input now with
    | (.ok selection, t) => t.SnapshotIn selection ∧ t.capacityWaiters = s.capacityWaiters ∧
        s.Grants now selection.account selection.stickyKey (isAdaptive input.pool) t
    | (.error _, t) => Looks now s t := by
  unfold selectAndAcquire
  cases assertSupportedStrategy input.pool.strategy with
  | error e => exact Looks.refl now s
  | ok _ =>
      dsimp only
      have hbegin : Looks now s (s.beginSelection input.pool now) :=
        Looks.of_frame (frame_beginSelection s input.pool now)
      split_ifs with hpolicy hmodel
      · exact hbegin
      · exact hbegin
      · have hcandidates := looks_candidates (s.beginSelection input.pool now) input now
        cases hc : (s.beginSelection input.pool now).candidates input now with
        | mk candidates t =>
            rw [hc] at hcandidates
            have ht : Looks now s t := hbegin.trans hcandidates
            cases candidates with
            | nil => exact ht
            | cons first rest =>
                dsimp only
                have hchoose := frame_choose env t input (selectionStickyKey input) (first :: rest) now
                cases hch : t.choose env input (selectionStickyKey input) (first :: rest) now with
                | mk chosen u =>
                    rw [hch] at hchoose
                    have hu : Looks now s u := ht.trans (Looks.of_frame hchoose)
                    cases chosen with
                    | none => exact hu
                    | some selected =>
                        have hqueue : u.capacityWaiters = s.capacityWaiters :=
                          eq_of_core capacityWaiters (fun _ => rfl) hu.core_eq
                        refine ⟨⟨rfl, rfl⟩, ?_, grants_takePermit hu ?_ (frame_acquire ..)⟩
                        · rw [capacityWaiters_acquire, hqueue]
                        rw [← hasCapacity_congr hbegin.counters_eq]
                        have hmem : selected ∈ ((s.beginSelection input.pool now).candidates input now).1 := by
                          rw [hc]
                          exact choose_mem (congrArg Prod.fst hch)
                        exact hasCapacity_of_mem_candidates hmem

theorem tryAcquireAccount_spec (s : PoolScheduler) (account : Account) (pool : Pool)
    (now : Millis) :
    match s.tryAcquireAccount account pool now with
    | (.ok true, t) => s.Grants now account none (isAdaptive pool) t
    | (_, t) => Looks now s t := by
  unfold tryAcquireAccount
  cases assertSupportedStrategy pool.strategy with
  | error e => exact Looks.refl now s
  | ok _ =>
      have hlooks := looks_isEligible s account pool (isAdaptive pool) now none
      dsimp only
      cases he : s.isEligible account pool (isAdaptive pool) now none with
      | mk eligible t =>
          rw [he] at hlooks
          cases eligible with
          | false => exact hlooks
          | true => exact grants_takePermit hlooks (hasCapacity_of_isEligible (congrArg Prod.fst he)) rfl

/-! ## Hand-off -/

theorem looks_capacityBlockedAccountIds (s : PoolScheduler)
    (input : SchedulerSelectionInput) (now : Millis) :
    Looks now s (s.capacityBlockedAccountIds input now).2 := by
  unfold capacityBlockedAccountIds
  refine looks_filterM (fun t account => ?_) s _
  have havailable := looks_isAvailable t account (some input.pool) now
    (SchedulerSelectionInput.cooldownKey input)
  by_cases hexcluded : account.id ∈ input.excludedAccountIds
  · simp only [hexcluded, if_true]
    exact Looks.refl now t
  · simp only [hexcluded, if_false]
    generalize t.isAvailable account (some input.pool) now
      (SchedulerSelectionInput.cooldownKey input) = available at havailable ⊢
    obtain ⟨_ | _, u⟩ := available <;> exact havailable

/-- `t` differs from `s` by looking and by changes of the waiter queue. -/
structure Keeps (now : Millis) (s t : PoolScheduler) : Prop where
  counters_eq : t.counters = s.counters
  checked : Circuits.Checked now s.circuits t.circuits

theorem Looks.keeps (h : Looks now s t) : Keeps now s t :=
  ⟨h.counters_eq, h.checked⟩

theorem Keeps.trans (h : Keeps now s t) (h' : Keeps now t u) : Keeps now s u :=
  ⟨h'.counters_eq.trans h.counters_eq, h.checked.trans h'.checked⟩

/-- A grant after a stretch that keeps the counters, with queue changes after it. -/
theorem Keeps.grants (h : Keeps now s s') (hgrants : s'.Grants now account stickyKey adaptive t)
    (h' : Keeps now t t') : s.Grants now account stickyKey adaptive t' :=
  ⟨hasCapacity_congr h.counters_eq account adaptive ▸ hgrants.hasCapacity,
    h'.counters_eq.trans (hgrants.counters_eq.trans (takePermit_congr h.counters_eq _ _)),
    h.checked.trans (hgrants.checked.trans h'.checked)⟩

theorem circuits_removeCapacityWaiter (s : PoolScheduler) (waiter : CapacityWaiter) :
    (s.removeCapacityWaiter waiter).circuits = s.circuits := by
  unfold removeCapacityWaiter
  split <;> rfl

theorem keeps_removeCapacityWaiter (now : Millis) (s : PoolScheduler) (waiter : CapacityWaiter) :
    Keeps now s (s.removeCapacityWaiter waiter) := by
  refine ⟨?_, circuits_removeCapacityWaiter s waiter ▸ .refl⟩
  unfold removeCapacityWaiter
  split <;> rfl

theorem circuits_rejectCapacityWaiter (s : PoolScheduler) (waiterId : Nat) :
    (s.rejectCapacityWaiter waiterId).circuits = s.circuits := by
  unfold rejectCapacityWaiter
  split
  · rfl
  · exact circuits_removeCapacityWaiter ..

theorem keeps_rejectCapacityWaiter (now : Millis) (s : PoolScheduler) (waiterId : Nat) :
    Keeps now s (s.rejectCapacityWaiter waiterId) := by
  unfold rejectCapacityWaiter
  split
  · exact ⟨rfl, .refl⟩
  · exact keeps_removeCapacityWaiter ..

/-- Trying a waiter grants it a permit or keeps the counters. -/
theorem tryWaiter_spec (env : Env) (abortedSignals : List Nat) (now : Millis) (s : PoolScheduler)
    (waiter : CapacityWaiter) :
    match s.tryWaiter env abortedSignals now waiter with
    | .keep t => Keeps now s t
    | .reject _ t => Keeps now s t
    | .serve selection t => t.SnapshotIn selection ∧
        s.Grants now selection.account selection.stickyKey (isAdaptive waiter.input.pool) t := by
  have hselect := selectAndAcquire_spec env s waiter.input now
  unfold tryWaiter
  split_ifs
  · exact keeps_removeCapacityWaiter ..
  · exact keeps_removeCapacityWaiter ..
  · cases hsel : s.selectAndAcquire env waiter.input now with
    | mk result t =>
        rw [hsel] at hselect
        cases result with
        | ok selection =>
            refine ⟨?_, (Looks.refl now s).keeps.grants hselect.2.2 (keeps_removeCapacityWaiter ..)⟩
            rw [SnapshotIn, circuits_removeCapacityWaiter]
            exact hselect.1
        | error e =>
            have ht : Keeps now s t := Looks.keeps hselect
            cases e with
            | noEligibleAccount ids message =>
                have hblocked := (looks_capacityBlockedAccountIds t waiter.input now).keeps
                dsimp only
                cases hb : t.capacityBlockedAccountIds waiter.input now with
                | mk accountIds u =>
                    rw [hb] at hblocked
                    cases accountIds with
                    | nil => exact ht.trans (hblocked.trans (keeps_removeCapacityWaiter ..))
                    | cons id rest => exact ht.trans (hblocked.trans ⟨rfl, .refl⟩)
            | modelNotExposed | unsupportedPoolStrategy | typeError | aborted =>
                exact ht.trans (keeps_removeCapacityWaiter ..)

/-- A hand-off serves at most one waiter: it grants one permit or keeps the
counters. -/
def Handoff.Grants (now : Millis) (s : PoolScheduler) (handoff : Handoff) : Prop :=
  match handoff.served with
  | none => Keeps now s handoff.scheduler
  | some (waiter, selection) => handoff.scheduler.SnapshotIn selection ∧
      s.Grants now selection.account selection.stickyKey (isAdaptive waiter.input.pool)
        handoff.scheduler

theorem Handoff.Grants.after (h : Handoff.Grants now s' handoff) (hs : Keeps now s s') :
    Handoff.Grants now s handoff := by
  unfold Handoff.Grants at h ⊢
  split at h
  · exact hs.trans h
  · exact ⟨h.1, hs.grants h.2 ⟨rfl, .refl⟩⟩

theorem fulfillFrom_grants (env : Env) (abortedSignals : List Nat) (now : Millis)
    (accountId : JsString) (ids : List Nat) (s : PoolScheduler) :
    Handoff.Grants now s (fulfillFrom env abortedSignals now accountId ids s) := by
  induction ids generalizing s with
  | nil => exact ⟨rfl, .refl⟩
  | cons id ids ih =>
      unfold fulfillFrom
      split
      · exact ih s
      · next waiter _ =>
          split
          · exact ih s
          · have htry := tryWaiter_spec env abortedSignals now s waiter
            cases h : s.tryWaiter env abortedSignals now waiter with
            | keep t => rw [h] at htry; exact (ih t).after htry
            | reject e t => rw [h] at htry; exact (ih t).after htry
            | serve selection t => rw [h] at htry; exact htry

theorem fulfillAny_grants (env : Env) (abortedSignals : List Nat) (now : Millis)
    (accountIds : List JsString) (s : PoolScheduler) :
    Handoff.Grants now s (fulfillAny env abortedSignals now accountIds s) := by
  induction accountIds generalizing s with
  | nil => exact ⟨rfl, .refl⟩
  | cons accountId rest ih =>
      have hfirst : Handoff.Grants now s
          (s.fulfillOneCapacityWaiter env abortedSignals accountId now) := fulfillFrom_grants ..
      unfold fulfillAny
      dsimp only
      split
      · exact hfirst
      · next hserved =>
          unfold Handoff.Grants at hfirst
          rw [hserved] at hfirst
          exact (ih _).after hfirst

/-! ## Queueing -/

/-- Waiting grants at most one permit: to the caller at once, or to the first
waiter that can be served when the caller queues. -/
def WaitGrants (now : Millis) (s : PoolScheduler) (input : SchedulerSelectionInput) :
    WaitResult × Handoff → Prop
  | (.throws _, handoff) => Keeps now s handoff.scheduler
  | (.selected selection, handoff) => handoff.scheduler.SnapshotIn selection ∧
      s.Grants now selection.account selection.stickyKey (isAdaptive input.pool) handoff.scheduler
  | (.queued _, handoff) => Handoff.Grants now s handoff

theorem WaitGrants.after (h : WaitGrants now s' input waited) (hs : Keeps now s s') :
    WaitGrants now s input waited := by
  obtain ⟨_ | _ | _, handoff⟩ := waited
  · exact hs.trans h
  · exact ⟨h.1, hs.grants h.2 ⟨rfl, .refl⟩⟩
  · exact Handoff.Grants.after h hs

theorem enqueueCapacityWaiter_grants (env : Env) (abortedSignals : List Nat) (s : PoolScheduler)
    (input : SchedulerSelectionInput) (accountIds : List JsString) (deadlineAt : Millis)
    (signal : Option Nat) (errorAccountIds : List JsString) (now : Millis) :
    WaitGrants now s input (s.enqueueCapacityWaiter env abortedSignals input accountIds deadlineAt
      signal errorAccountIds now) := by
  unfold enqueueCapacityWaiter
  dsimp only
  split_ifs
  · exact ⟨rfl, .refl⟩
  · exact (fulfillAny_grants ..).after ⟨rfl, .refl⟩

theorem selectAndAcquireWhenAvailable_grants (env : Env) (abortedSignals : List Nat)
    (s : PoolScheduler) (input : SchedulerSelectionInput) (signal : Option Nat)
    (deadlineAt : Option Millis) (maxWaitMs : Int) (now : Millis) :
    WaitGrants now s input (s.selectAndAcquireWhenAvailable env abortedSignals input signal
      deadlineAt maxWaitMs now) := by
  have hselect := selectAndAcquire_spec env s input now
  unfold selectAndAcquireWhenAvailable
  split_ifs
  · exact ⟨rfl, .refl⟩
  · cases hsel : s.selectAndAcquire env input now with
    | mk result t =>
        rw [hsel] at hselect
        cases result with
        | ok selection => exact ⟨hselect.1, hselect.2.2⟩
        | error e =>
            have ht : Keeps now s t := Looks.keeps hselect
            cases e with
            | noEligibleAccount ids message =>
                have hblocked := (looks_capacityBlockedAccountIds t input now).keeps
                dsimp only
                cases hb : t.capacityBlockedAccountIds input now with
                | mk accountIds u =>
                    rw [hb] at hblocked
                    have hu : Keeps now s u := ht.trans hblocked
                    cases accountIds with
                    | nil => exact hu
                    | cons id rest =>
                        dsimp only
                        split_ifs
                        · exact hu
                        · exact (enqueueCapacityWaiter_grants ..).after hu
            | modelNotExposed | unsupportedPoolStrategy | typeError | aborted => exact ht

theorem looks_anyAvailable (pool : Option Pool) (model : JsString) (now : Millis)
    (accounts : List Account) (s : PoolScheduler) :
    Looks now s (hasUsableAlternative.anyAvailable pool model now accounts s).2 := by
  induction accounts generalizing s with
  | nil => exact Looks.refl now s
  | cons account rest ih =>
      have hlooks := looks_isAvailable s account pool now (some model)
      unfold hasUsableAlternative.anyAvailable
      generalize s.isAvailable account pool now (some model) = available at hlooks ⊢
      obtain ⟨_ | _, t⟩ := available
      · exact hlooks.trans (ih t)
      · exact hlooks

end PoolScheduler

end StonePlus.Scheduler
