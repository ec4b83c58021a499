import StonePlus.Scheduler.Permits

/-!
# StonePlus.Scheduler.Generations

Health revisions as generations of a circuit.

An attempt carries the health revision and the reset epoch of its account at
selection; `recordSuccess` closes a circuit only when both still match.  This
is sound as long as nothing opens the circuit without a new revision.
`Follows` states that for one stretch of a run, and every operation satisfies
it except a hydration that installs a persisted open circuit for an account
without live health.
-/

namespace StonePlus.Scheduler

/-- An open circuit whose cooldown ends after `at_`. -/
def AccountRuntimeHealth.OpenPast (at_ : Millis) (h : AccountRuntimeHealth) : Prop :=
  h.circuitState = .open ∧ at_ < h.cooldownUntil.getD 0

instance (at_ : Millis) (h : AccountRuntimeHealth) : Decidable (h.OpenPast at_) :=
  inferInstanceAs (Decidable (_ ∧ _))

/-- Half-opening opens nothing. -/
theorem AccountRuntimeHealth.halfOpened_eq {h : AccountRuntimeHealth}
    (hopen : (h.halfOpened now).OpenPast at_) : h.halfOpened now = h := by
  unfold halfOpened at hopen ⊢
  split
  · next hexpired => rw [if_pos hexpired] at hopen; cases hopen.1
  · rfl

namespace Circuits

/-! ## Revisions -/

theorem getHealthRevision_bump (c : Circuits) (a b : JsString) :
    (c.bumpHealthRevision a).getHealthRevision b =
      if b = a then c.getHealthRevision a + 1 else c.getHealthRevision b :=
  JsMap.getD_set ..

@[simp] theorem getResetEpoch_bumpHealthRevision (c : Circuits) (a b : JsString) :
    (c.bumpHealthRevision a).getResetEpoch b = c.getResetEpoch b := rfl

@[simp] theorem health_bumpHealthRevision (c : Circuits) (a : JsString) :
    (c.bumpHealthRevision a).health = c.health := rfl

/-- Between `c` and `d` the revision of the account has not fallen, and if it
stands still, an open circuit of `d` past `at_` is one of `c`. -/
structure Follows (a : JsString) (at_ : Millis) (c d : Circuits) : Prop where
  revision_le : c.getHealthRevision a ≤ d.getHealthRevision a
  health_eq : d.getHealthRevision a = c.getHealthRevision a →
    ∀ h, d.health.get? a = some h → h.OpenPast at_ → c.health.get? a = some h

namespace Follows

variable {a : JsString} {at_ : Millis} {c d e : Circuits}

theorem refl (a : JsString) (at_ : Millis) (c : Circuits) : Follows a at_ c c :=
  ⟨le_refl _, fun _ _ h _ => h⟩

theorem trans (h : Follows a at_ c d) (h' : Follows a at_ d e) : Follows a at_ c e := by
  refine ⟨h.revision_le.trans h'.revision_le, fun hrev s hs hopen => ?_⟩
  have hde : e.getHealthRevision a = d.getHealthRevision a :=
    le_antisymm (hrev ▸ h.revision_le) h'.revision_le
  exact h.health_eq (hde ▸ hrev) s (h'.health_eq hde s hs hopen) hopen

/-- A new revision leaves nothing to show. -/
theorem of_lt (h : c.getHealthRevision a < d.getHealthRevision a) : Follows a at_ c d :=
  ⟨h.le, fun heq => absurd heq h.ne'⟩

/-- Nothing to show when the revision is the same and no open circuit is new. -/
theorem of_health (hrev : d.getHealthRevision a = c.getHealthRevision a)
    (h : ∀ s, d.health.get? a = some s → s.OpenPast at_ → c.health.get? a = some s) :
    Follows a at_ c d := ⟨hrev.ge, fun _ => h⟩

/-- A change that touches neither revisions nor health. -/
theorem of_eq (hrev : d.healthRevisions = c.healthRevisions) (hhealth : d.health = c.health) :
    Follows a at_ c d :=
  of_health (congrArg (fun m : JsMap JsString Nat => m.getD a 0) hrev)
    fun _ hs _ => hhealth ▸ hs

end Follows

variable (a : JsString) (at_ : Millis)

theorem follows_bump (c : Circuits) (b : JsString) : Follows a at_ c (c.bumpHealthRevision b) := by
  by_cases h : a = b
  · exact .of_lt (by rw [getHealthRevision_bump, if_pos h, h]; omega)
  · exact .of_health (by rw [getHealthRevision_bump, if_neg h]) fun _ hs _ => hs

/-- A transition starts a new revision of its own account. -/
theorem follows_transition (c : Circuits) (b : JsString) (state : AccountRuntimeHealth)
    (reason : CooldownReason) : Follows a at_ c (c.transition b state reason) := by
  by_cases h : a = b
  · refine .of_lt ?_
    rw [transition, getHealthRevision_bump, if_pos h, h]
    exact Nat.lt_succ_self _
  · refine .of_health ?_ fun s hs _ => ?_
    · rw [transition, getHealthRevision_bump, if_neg h]; rfl
    · rwa [transition, health_bumpHealthRevision, JsMap.get?_set_of_ne _ _ h] at hs

theorem follows_touchHealth (c : Circuits) (b : JsString) (now : Millis) :
    Follows a at_ c (c.touchHealth b now) := by
  unfold touchHealth
  cases hget : c.health.get? b with
  | none => exact .refl a at_ c
  | some h =>
      refine .of_health rfl fun s hs hopen => ?_
      rw [JsMap.get?_set] at hs
      split at hs
      · next hab =>
          cases hs
          rw [hab, hget, AccountRuntimeHealth.halfOpened_eq hopen]
      · exact hs

theorem follows_notApplied (c : Circuits) (b : JsString) (revision : Nat) (now : Millis) :
    Follows a at_ c (c.notApplied b revision now).2 :=
  follows_touchHealth a at_ c b now

/-! ## Availability checks -/

theorem follows_probe (c : Circuits) (account : Account) (now : Millis) :
    Follows a at_ c (c.probe account now) := by
  have htouch := follows_touchHealth a at_ c account.id now
  unfold probe
  dsimp only
  split
  · exact htouch.trans (.of_eq rfl rfl)
  · split
    · exact htouch
    · split
      · exact htouch.trans (.of_eq rfl rfl)
      · next hnone =>
          refine htouch.trans (.of_health rfl fun s hs hopen => ?_)
          rw [JsMap.get?_set] at hs
          split at hs
          · cases hs; cases hopen.1
          · exact hs

theorem follows_putModelCooldowns (c : Circuits) (b : JsString)
    (cooldowns : JsMap JsString AccountModelCooldown) :
    Follows a at_ c (c.putModelCooldowns b cooldowns) := .of_eq rfl rfl

theorem follows_isModelAvailable (c : Circuits) (b model : JsString) (now : Millis) :
    Follows a at_ c (c.isModelAvailable b model now).2 := by
  unfold isModelAvailable
  split
  · exact .refl a at_ c
  · split
    · exact .refl a at_ c
    · split
      · exact .refl a at_ c
      · split
        · exact .refl a at_ c
        · exact follows_putModelCooldowns ..

theorem follows_check (c : Circuits) (account : Account) (model : Option JsString)
    (now : Millis) : Follows a at_ c (c.check account model now) := by
  have hgate : Follows a at_ c (PoolScheduler.modelGate c account model now).2 := by
    unfold PoolScheduler.modelGate
    split
    · exact .refl a at_ c
    · split
      · exact .refl a at_ c
      · exact follows_isModelAvailable ..
  unfold check
  generalize PoolScheduler.modelGate c account model now = gate at hgate ⊢
  obtain ⟨_ | _, d⟩ := gate
  · exact hgate
  · exact hgate.trans (follows_probe ..)

/-- Looking for an account opens no circuit. -/
theorem follows_checked {now : Millis} (h : Checked now c d) : Follows a at_ c d := by
  induction h with
  | refl => exact .refl a at_ c
  | tail _ hcheck ih =>
      obtain ⟨account, model, rfl⟩ := hcheck
      exact ih.trans (follows_check ..)

/-! ## Outcomes -/

theorem follows_mergeQuotaCooldown (c : Circuits) (b : JsString) (untilAt : Millis)
    (revision : Nat) (now : Millis) :
    Follows a at_ c (c.mergeQuotaCooldown b untilAt revision now).2 := by
  unfold mergeQuotaCooldown
  dsimp only
  split
  · exact follows_notApplied ..
  · exact follows_transition ..

theorem follows_setCooldown (c : Circuits) (b : JsString) (untilAt : Millis)
    (revision epoch : Option Nat) (now : Millis) :
    Follows a at_ c (c.setCooldown b untilAt revision epoch now).2 := by
  unfold setCooldown
  dsimp only
  split
  · exact follows_notApplied ..
  · split
    · split
      · exact follows_mergeQuotaCooldown ..
      · exact follows_notApplied ..
    · exact follows_transition ..

theorem follows_staleFailure {c : Circuits} (h : c.staleFailure b options now = some (result, d)) :
    Follows a at_ c d := by
  unfold staleFailure at h
  dsimp only at h
  split at h
  · rw [← show _ = d from congrArg Prod.snd (Option.some.inj h)]
    exact follows_notApplied ..
  · split at h
    · split at h
      · rw [← show _ = d from congrArg Prod.snd (Option.some.inj h)]
        exact follows_mergeQuotaCooldown ..
      · rw [← show _ = d from congrArg Prod.snd (Option.some.inj h)]
        exact follows_notApplied ..
    · cases h

theorem follows_recordSuccess (c : Circuits) (b : JsString) (revision epoch : Option Nat)
    (now : Millis) : Follows a at_ c (c.recordSuccess b revision epoch now).2 := by
  unfold recordSuccess
  dsimp only
  split
  · exact follows_notApplied ..
  · split
    · by_cases h : a = b
      · refine .of_lt ?_
        rw [getHealthRevision_bump, if_pos h, h]
        exact Nat.lt_succ_self _
      · refine .of_health ?_ fun s hs _ => ?_
        · rw [getHealthRevision_bump, if_neg h]; rfl
        · rwa [health_bumpHealthRevision, JsMap.get?_delete_of_ne _ h] at hs
    · exact .refl a at_ c

theorem follows_resetHealth (c : Circuits) (b : JsString) :
    Follows a at_ c (c.resetHealth b) := by
  unfold resetHealth
  by_cases h : a = b
  · refine .of_lt ?_
    rw [getHealthRevision_bump, if_pos h, h]
    exact Nat.lt_succ_self _
  · refine .of_health ?_ fun s hs _ => ?_
    · rw [getHealthRevision_bump, if_neg h]; rfl
    · rw [health_bumpHealthRevision] at hs
      exact (JsMap.get?_delete_of_ne _ h).symm.trans hs

theorem follows_pruneModelCooldowns (c : Circuits) (b : JsString) (now : Millis) :
    Follows a at_ c (c.pruneModelCooldowns b now) := by
  unfold pruneModelCooldowns
  split
  · exact .refl a at_ c
  · exact follows_putModelCooldowns ..

theorem follows_recordModelFailure (c : Circuits) (b model : JsString)
    (reason : AccountModelCooldownReason) (cooldownMs : Rat) (statusCode : Option Nat)
    (now : Millis) :
    Follows a at_ c (c.recordModelFailure b model reason cooldownMs statusCode now) := by
  unfold recordModelFailure
  split
  · exact follows_pruneModelCooldowns ..
  · exact (follows_putModelCooldowns ..).trans (follows_pruneModelCooldowns ..)

theorem follows_foldl_bump (c : Circuits) (ids : List JsString) :
    Follows a at_ c (ids.foldl bumpHealthRevision c) := by
  induction ids generalizing c with
  | nil => exact .refl a at_ c
  | cons id ids ih => exact (follows_bump ..).trans (ih _)

/-! ## Hydration -/

theorem revisions_installPersisted (c : Circuits) (account : Account) :
    (c.installPersisted account).healthRevisions = c.healthRevisions := by
  unfold installPersisted
  split <;> rfl

/-- Hydrating a record never lowers a revision. -/
theorem revision_le_hydrateAccount (now : Millis) (c : Circuits) (account : Account) :
    c.getHealthRevision a ≤ (hydrateAccount now c account).getHealthRevision a := by
  unfold hydrateAccount
  dsimp only
  split
  · rw [getHealthRevision, getHealthRevision, revisions_installPersisted]
    exact le_refl _
  · split
    · rw [getHealthRevision, getHealthRevision, revisions_installPersisted]
      refine ((follows_bump a 0 c account.id).revision_le).trans_eq ?_
      rfl
    · exact le_refl _

theorem revision_le_foldl_hydrateAccount (now : Millis) (c : Circuits) (accounts : List Account) :
    c.getHealthRevision a ≤ (accounts.foldl (hydrateAccount now) c).getHealthRevision a := by
  induction accounts generalizing c with
  | nil => exact le_refl _
  | cons account rest ih => exact (revision_le_hydrateAccount a now c account).trans (ih _)

variable {a : JsString}

/-- Hydrating the record of another account leaves this one alone. -/
theorem hydrateAccount_of_ne (now : Millis) (c : Circuits) (h : a ≠ account.id) :
    (hydrateAccount now c account).health.get? a = c.health.get? a ∧
      (hydrateAccount now c account).getHealthRevision a = c.getHealthRevision a := by
  have hinstall : ∀ d : Circuits,
      (d.installPersisted account).health.get? a = d.health.get? a := fun d => by
    unfold installPersisted
    split
    · exact JsMap.get?_set_of_ne _ _ h
    · rfl
  unfold hydrateAccount
  dsimp only
  split
  · refine ⟨hinstall _, ?_⟩
    rw [getHealthRevision, revisions_installPersisted]
    rfl
  · split
    · refine ⟨(hinstall _).trans (JsMap.get?_delete_of_ne _ h), ?_⟩
      rw [getHealthRevision, revisions_installPersisted, recoverLive]
      exact (getHealthRevision_bump ..).trans (if_neg h)
    · exact ⟨rfl, rfl⟩

/-- An account with live health keeps it, unless its record was recovered by
hand: that starts a new revision. -/
theorem hydrateAccount_live (now : Millis) {c : Circuits} (ha : account.id = a)
    (hlive : c.health.get? a = some h) : if explicitlyRecovered account h then
      c.getHealthRevision a < (hydrateAccount now c account).getHealthRevision a
    else (hydrateAccount now c account).health.get? a = some h ∧
      (hydrateAccount now c account).getHealthRevision a = c.getHealthRevision a := by
  subst ha
  have hlive' : (c.hydrateModelCooldowns account now).health.get? account.id = some h := hlive
  unfold hydrateAccount
  dsimp only
  rw [hlive']
  dsimp only
  split
  · rw [getHealthRevision, getHealthRevision, revisions_installPersisted, recoverLive]
    refine Nat.lt_of_lt_of_eq (Nat.lt_succ_self _) ?_
    exact ((getHealthRevision_bump ..).trans (if_pos rfl)).symm
  · exact ⟨hlive, rfl⟩

/-- An account without live health gets the persisted open circuit of its
record, in the same revision. -/
theorem hydrateAccount_dead (now : Millis) (ha : account.id = a) (hdead : c.health.get? a = none) :
    (hydrateAccount now c account).getHealthRevision a = c.getHealthRevision a ∧
      (hydrateAccount now c account).health.get? a =
        if persistedOpen account then some (hydratedHealth account) else none := by
  subst ha
  have hdead' : (c.hydrateModelCooldowns account now).health.get? account.id = none := hdead
  unfold hydrateAccount
  dsimp only
  rw [hdead']
  dsimp only
  refine ⟨?_, ?_⟩
  · rw [getHealthRevision, revisions_installPersisted]
    rfl
  · unfold installPersisted
    split
    · exact JsMap.get?_set_self ..
    · exact hdead

/-- Records of an account that none of them recovers: its live health stays
or a new revision starts. -/
theorem foldl_hydrateAccount_live (now : Millis) (accounts : List Account)
    (hlive : c.health.get? a = some h) :
    c.getHealthRevision a < (accounts.foldl (hydrateAccount now) c).getHealthRevision a ∨
      (accounts.foldl (hydrateAccount now) c).health.get? a = some h ∧
      ∀ account ∈ accounts, account.id = a → explicitlyRecovered account h = false := by
  induction accounts generalizing c with
  | nil => exact .inr ⟨hlive, fun _ hmem => by cases hmem⟩
  | cons account rest ih =>
      by_cases ha : account.id = a
      · have hstep := hydrateAccount_live now ha hlive
        split at hstep
        · exact .inl (hstep.trans_le (revision_le_foldl_hydrateAccount a now _ rest))
        · next hrec =>
            rcases ih hstep.1 with hlt | ⟨hkept, hall⟩
            · exact .inl (hstep.2 ▸ hlt)
            · exact .inr ⟨hkept, List.forall_mem_cons.mpr ⟨fun _ => by simpa using hrec, hall⟩⟩
      · obtain ⟨hhealth, hrev⟩ := hydrateAccount_of_ne now c (Ne.symm ha)
        rcases ih (hhealth.trans hlive) with hlt | ⟨hkept, hall⟩
        · exact .inl (hrev ▸ hlt)
        · exact .inr ⟨hkept, List.forall_mem_cons.mpr ⟨fun h => absurd h ha, hall⟩⟩

/-- The records install an open circuit past `at_` for the account: its first
persisted open record is one, and no later record recovers it. -/
def InstallsOpen (a : JsString) (at_ : Millis) : List Account → Prop
  | [] => False
  | account :: rest =>
      if account.id = a ∧ persistedOpen account = true then
        (hydratedHealth account).OpenPast at_ ∧
          ∀ later ∈ rest, later.id = a → explicitlyRecovered later (hydratedHealth account) = false
      else InstallsOpen a at_ rest

instance InstallsOpen.decidable (a : JsString) (at_ : Millis) :
    ∀ accounts, Decidable (InstallsOpen a at_ accounts)
  | [] => .isFalse id
  | account :: rest =>
      have := InstallsOpen.decidable a at_ rest
      decidable_of_iff (if account.id = a ∧ persistedOpen account = true then
        (hydratedHealth account).OpenPast at_ ∧
          ∀ later ∈ rest, later.id = a → explicitlyRecovered later (hydratedHealth account) = false
        else InstallsOpen a at_ rest) Iff.rfl

/-- Hydrating the records of an account without live health opens its circuit
past `at_` without a new revision exactly when they install one. -/
theorem foldl_hydrateAccount_dead {at_ : Millis} (now : Millis) (hdead : c.health.get? a = none) :
    ((accounts.foldl (hydrateAccount now) c).getHealthRevision a = c.getHealthRevision a ∧
      ∃ h, (accounts.foldl (hydrateAccount now) c).health.get? a = some h ∧ h.OpenPast at_) →
    InstallsOpen a at_ accounts := by
  induction accounts generalizing c with
  | nil =>
      rintro ⟨-, h, hget, -⟩
      rw [List.foldl_nil, hdead] at hget
      cases hget
  | cons account rest ih =>
      rw [List.foldl_cons]
      unfold InstallsOpen
      by_cases ha : account.id = a
      · obtain ⟨hrev, hhealth⟩ := hydrateAccount_dead now ha hdead
        by_cases hopen : persistedOpen account = true
        · rw [if_pos hopen] at hhealth
          rw [if_pos ⟨ha, hopen⟩]
          rintro ⟨hsame, h, hget, hpast⟩
          rcases foldl_hydrateAccount_live now rest hhealth with hlt | ⟨hkept, hall⟩
          · exact absurd (hsame.trans hrev.symm) hlt.ne'
          · rw [hkept] at hget
            cases hget
            exact ⟨hpast, hall⟩
        · rw [if_neg hopen] at hhealth
          rw [if_neg fun h => hopen h.2, ← hrev]
          exact ih hhealth
      · obtain ⟨hhealth, hrev⟩ := hydrateAccount_of_ne now c (Ne.symm ha)
        rw [if_neg fun h => ha h.1, ← hrev]
        exact ih (hhealth.trans hdead)

theorem hydrateAccount_ids (now : Millis) (c : Circuits) {accounts : List Account}
    (h : a ∉ accounts.map Account.id) :
    (accounts.foldl (hydrateAccount now) c).health.get? a = c.health.get? a := by
  induction accounts generalizing c with
  | nil => rfl
  | cons account rest ih =>
      rw [List.map_cons, List.mem_cons, not_or] at h
      exact (ih _ h.2).trans (hydrateAccount_of_ne now c h.1).1

/-- A hydration follows, unless it installs an open circuit for an account
without live health. -/
theorem follows_hydrate {at_ : Millis}
    (hquiet : c.health.get? a = none → ¬ InstallsOpen a at_ accounts) (now : Millis) :
    Follows a at_ c (c.hydrate accounts now) := by
  have hretain : (c.retain (accounts.map Account.id)).health.get? a =
      if decide (a ∈ accounts.map Account.id) then c.health.get? a else none :=
    JsMap.get?_filterKeys ..
  have hle := revision_le_foldl_hydrateAccount a now (c.retain (accounts.map Account.id)) accounts
  refine ⟨hle, fun hrev h hget hopen => ?_⟩
  unfold hydrate at hget hrev
  by_cases hmem : a ∈ accounts.map Account.id
  · rw [if_pos (decide_eq_true hmem)] at hretain
    cases hlive : c.health.get? a with
    | some live =>
        rcases foldl_hydrateAccount_live now accounts (hretain.trans hlive) with
          hlt | ⟨hkept, -⟩
        · exact absurd hrev hlt.ne'
        · rw [hkept] at hget
          exact hget
    | none =>
        exact absurd (foldl_hydrateAccount_dead now (hretain.trans hlive) ⟨hrev, h, hget, hopen⟩)
          (hquiet hlive)
  · rw [hydrateAccount_ids now _ hmem, hretain, if_neg (by simpa using hmem)] at hget
    cases hget

end Circuits

/-! ## Runs -/

namespace PoolScheduler

theorem Handoff.Grants.checked {now : Millis} (h : Handoff.Grants now s handoff) :
    Circuits.Checked now s.circuits handoff.scheduler.circuits := by
  unfold Handoff.Grants at h
  split at h
  · exact h.checked
  · exact h.2.checked

theorem circuits_returnPermit (s : PoolScheduler) (stickyKey : Option JsString)
    (accountId : JsString) : (s.returnPermit stickyKey accountId).circuits = s.circuits := by
  cases stickyKey with
  | none => rfl
  | some key =>
      unfold returnPermit releaseActiveStickySession
      dsimp only
      split <;> rfl

theorem circuits_foldl {α : Type} {f : PoolScheduler → α → PoolScheduler}
    (hf : ∀ s a, (f s a).circuits = s.circuits) (s : PoolScheduler) (as : List α) :
    (as.foldl f s).circuits = s.circuits := by
  induction as generalizing s with
  | nil => rfl
  | cons a as ih => exact (ih _).trans (hf s a)

theorem circuits_setPerformance (s : PoolScheduler)
    (performance : JsMap JsString AccountPerformanceState) :
    ({ s with performance := performance } : PoolScheduler).circuits = s.circuits := rfl

theorem circuits_hydratePerformance (env : Env) (s : PoolScheduler) (logs : List RequestLog)
    (now : Millis) : (s.hydratePerformance env logs now).circuits = s.circuits := by
  unfold hydratePerformance
  refine circuits_foldl (fun t accountId => ?_) s _
  split
  · rfl
  · exact circuits_foldl (fun u log => circuits_setPerformance u _) t _

/-- An applied failure changes the circuits by its health transition alone. -/
theorem circuits_recordFailure {env : Env} {s : PoolScheduler}
    (h : s.circuits.staleFailure accountId options now = none) :
    (s.recordFailure env accountId options now).2.circuits =
      (s.circuits.applyFailure accountId options now).2 := by
  unfold recordFailure
  rw [h]
  exact (circuits_setPerformance ..).trans (circuits_setPerformance ..)

theorem follows_recordFailure (a : JsString) (at_ : Millis) (env : Env) (s : PoolScheduler)
    (accountId : JsString) (options : AccountFailureOptions) (now : Millis) :
    Circuits.Follows a at_ s.circuits (s.recordFailure env accountId options now).2.circuits := by
  cases hstale : s.circuits.staleFailure accountId options now with
  | some stale =>
      unfold recordFailure
      rw [hstale]
      exact Circuits.follows_staleFailure a at_ hstale
  | none =>
      rw [circuits_recordFailure hstale]
      exact Circuits.follows_transition ..

theorem follows_clear (a : JsString) (at_ : Millis) (s : PoolScheduler) :
    Circuits.Follows a at_ s.circuits s.clear.circuits := by
  refine Circuits.Follows.trans ?_ (Circuits.follows_foldl_bump a at_ _ _)
  exact .of_health rfl fun h hget _ => by cases hget

end PoolScheduler

namespace System

/-- The account's circuits over a run. -/
abbrev circuits (y : System) : Circuits := y.scheduler.circuits

theorem circuits_settle (y : System) (handoff : Handoff) :
    (y.settle handoff).circuits = handoff.scheduler.circuits :=
  congrArg _ (scheduler_settle y handoff)

/-- The step does not hydrate an open circuit past `at_` for the account while
it has no live health. -/
def HydratesQuietly (a : JsString) (at_ : Millis) (y : System) : Op → Prop
  | .hydrate accounts _ _ =>
      y.circuits.health.get? a = none → ¬ Circuits.InstallsOpen a at_ accounts
  | _ => True

instance (a : JsString) (at_ : Millis) (y : System) : ∀ op, Decidable (y.HydratesQuietly a at_ op)
  | .hydrate accounts _ _ => inferInstanceAs (Decidable
      (y.circuits.health.get? a = none → ¬ Circuits.InstallsOpen a at_ accounts))
  | .hydratePerformance .. | .selectAndAcquire .. | .tryAcquireAccount .. | .release ..
  | .selectAndAcquireWhenAvailable .. | .abort .. | .timeout .. | .recordStickyFailure ..
  | .setCooldown .. | .recordFailure .. | .recordSuccess .. | .resetHealth ..
  | .recordPerformance .. | .recordModelFailure .. | .getHealth .. | .getModelCooldowns ..
  | .hasUsableAlternative .. | .clear => .isTrue trivial

/-- Releasing a permit only looks for the account of a waiter. -/
theorem checked_release (env : Env) (y : System) (permit : Nat) (now : Millis) :
    Circuits.Checked now y.circuits (y.release env permit now).circuits := by
  cases hi : y.permits[permit]? with
  | none => rw [System.release, hi]; exact .refl
  | some p =>
      cases hp : p.released with
      | true => rw [System.release, hi]; simpa [hp] using .refl
      | false =>
          rw [release_eq env hi hp, circuits_settle]
          have hgrants := PoolScheduler.fulfillFrom_grants env y.abortedSignals now p.account.id
            (y.returned permit p).scheduler.capacityWaiters.keys (y.returned permit p).scheduler
          have hreturn : (y.returned permit p).scheduler.circuits = y.circuits :=
            PoolScheduler.circuits_returnPermit ..
          rw [← hreturn]
          exact hgrants.checked

/-- Every quiet step follows. -/
theorem follows_step {a : JsString} (env : Env) (y : System) (op : Op)
    (hquiet : y.HydratesQuietly a at_ op) :
    Circuits.Follows a at_ y.circuits (y.step env op).circuits := by
  cases op with
  | hydrate accounts pools now => exact Circuits.follows_hydrate hquiet now
  | hydratePerformance logs now =>
      exact .of_eq (congrArg _ (PoolScheduler.circuits_hydratePerformance ..))
        (congrArg _ (PoolScheduler.circuits_hydratePerformance ..))
  | selectAndAcquire input now =>
      have hspec := PoolScheduler.selectAndAcquire_spec env y.scheduler input now
      unfold System.step
      dsimp only
      cases hsel : y.scheduler.selectAndAcquire env input now with
      | mk result s =>
          rw [hsel] at hspec
          cases result with
          | ok selection => exact Circuits.follows_checked a at_ hspec.2.2.checked
          | error e => exact Circuits.follows_checked a at_ hspec.checked
  | tryAcquireAccount account pool now =>
      have hspec := PoolScheduler.tryAcquireAccount_spec y.scheduler account pool now
      unfold System.step
      dsimp only
      cases hsel : y.scheduler.tryAcquireAccount account pool now with
      | mk result s =>
          rw [hsel] at hspec
          rcases result with e | _ | _ <;> exact Circuits.follows_checked a at_ hspec.checked
  | selectAndAcquireWhenAvailable input signal deadlineAt maxWaitMs now =>
      have hspec := PoolScheduler.selectAndAcquireWhenAvailable_grants env
        y.abortedSignals y.scheduler input signal deadlineAt maxWaitMs now
      unfold System.step
      dsimp only
      generalize y.scheduler.selectAndAcquireWhenAvailable env y.abortedSignals input signal
        deadlineAt maxWaitMs now = waited at hspec ⊢
      obtain ⟨_ | _ | _, handoff⟩ := waited
      · exact Circuits.follows_checked a at_ hspec.checked
      · exact Circuits.follows_checked a at_ hspec.2.checked
      · dsimp only
        rw [circuits_settle]
        exact Circuits.follows_checked a at_ hspec.checked
  | release permit now => exact Circuits.follows_checked a at_ (checked_release env y permit now)
  | abort signal =>
      refine .of_eq (congrArg _ ?_) (congrArg _ ?_) <;>
        exact PoolScheduler.circuits_foldl (f := fun s (waiter : CapacityWaiter) =>
          s.rejectCapacityWaiter waiter.id)
          (fun s waiter => PoolScheduler.circuits_rejectCapacityWaiter s waiter.id) _ _
  | timeout waiterId =>
      unfold System.step System.timeout
      dsimp only
      split
      · exact .refl a at_ _
      · refine .of_eq (congrArg _ ?_) (congrArg _ ?_) <;>
          exact PoolScheduler.circuits_rejectCapacityWaiter ..
  | setCooldown => exact Circuits.follows_setCooldown ..
  | recordFailure => exact PoolScheduler.follows_recordFailure ..
  | recordSuccess => exact Circuits.follows_recordSuccess ..
  | resetHealth => exact Circuits.follows_resetHealth ..
  | recordPerformance =>
      refine .of_eq ?_ ?_ <;>
      · unfold System.step PoolScheduler.recordPerformance
        dsimp only
        split <;> rfl
  | recordModelFailure => exact Circuits.follows_recordModelFailure ..
  | getHealth => exact Circuits.follows_touchHealth ..
  | getModelCooldowns => exact Circuits.follows_pruneModelCooldowns ..
  | hasUsableAlternative =>
      exact Circuits.follows_checked a at_ (PoolScheduler.looks_anyAvailable ..).checked
  | clear => exact PoolScheduler.follows_clear a at_ y.scheduler
  | recordStickyFailure => exact .refl a at_ _

/-- Every quiet run follows. -/
theorem follows_run {a : JsString} (env : Env) (y : System)
    (hquiet : Lib.Along (step env) (HydratesQuietly a at_) y ops) :
    Circuits.Follows a at_ y.circuits (run env y ops).circuits := by
  induction ops generalizing y with
  | nil => exact .refl a at_ _
  | cons op ops ih => exact (follows_step env y op hquiet.1).trans (ih _ hquiet.2)

/-! ## Snapshots -/

/-- A permit that `z` has beyond `n` permits carries the generation its
account has in `z`. -/
def Stamped (n : Nat) (z : System) : Prop :=
  ∀ p, z.permits[n]? = some p → ∀ revision epoch, p.snapshot = some (revision, epoch) →
    revision = z.circuits.getHealthRevision p.account.id ∧
      epoch = z.circuits.getResetEpoch p.account.id

theorem stamped_of_length_le {n : Nat} (h : z.permits.length ≤ n) : Stamped n z := fun p hp => by
  rw [List.getElem?_eq_none h] at hp
  cases hp

theorem stamped_grantSelection {y : System} (h : s.SnapshotIn selection) (pool : Pool) :
    Stamped y.permits.length (y.grantSelection selection pool s) := by
  intro p hp revision epoch hsnapshot
  have hlast : (y.grantSelection selection pool s).permits[y.permits.length]? = _ :=
    List.getElem?_concat_length
  cases hp.symm.trans hlast
  cases hsnapshot
  exact h

theorem stamped_settle {y : System} (h : PoolScheduler.Handoff.Grants now y.scheduler handoff) :
    Stamped y.permits.length (y.settle handoff) := by
  unfold PoolScheduler.Handoff.Grants at h
  unfold System.settle
  cases hserved : handoff.served with
  | none => exact stamped_of_length_le (le_refl _)
  | some served =>
      rw [hserved] at h
      exact stamped_grantSelection h.1 served.1.input.pool

/-- Whatever permit a step grants carries the generation of its account after
the step. -/
theorem stamped_step (env : Env) (y : System) (op : Op) :
    Stamped y.permits.length (y.step env op) := by
  cases op with
  | selectAndAcquire input now =>
      have hspec := PoolScheduler.selectAndAcquire_spec env y.scheduler input now
      unfold System.step
      dsimp only
      cases hsel : y.scheduler.selectAndAcquire env input now with
      | mk result s =>
          rw [hsel] at hspec
          cases result with
          | ok selection => exact stamped_grantSelection hspec.1 input.pool
          | error e => exact stamped_of_length_le (le_refl _)
  | tryAcquireAccount account pool now =>
      unfold System.step
      dsimp only
      split
      · intro p hp revision epoch hsnapshot
        cases hp.symm.trans List.getElem?_concat_length
        cases hsnapshot
      · exact stamped_of_length_le (le_refl _)
  | selectAndAcquireWhenAvailable input signal deadlineAt maxWaitMs now =>
      have hspec := PoolScheduler.selectAndAcquireWhenAvailable_grants env
        y.abortedSignals y.scheduler input signal deadlineAt maxWaitMs now
      unfold System.step
      dsimp only
      generalize y.scheduler.selectAndAcquireWhenAvailable env y.abortedSignals input signal
        deadlineAt maxWaitMs now = waited at hspec ⊢
      obtain ⟨_ | _ | _, handoff⟩ := waited
      · exact stamped_of_length_le (le_refl _)
      · exact stamped_grantSelection hspec.1 input.pool
      · exact stamped_settle hspec
  | release permit now =>
      change Stamped _ (y.release env permit now)
      cases hi : y.permits[permit]? with
      | none => rw [System.release, hi]; exact stamped_of_length_le (le_refl _)
      | some p =>
          cases hp : p.released with
          | true =>
              have hsame : y.release env permit now = y := by
                rw [System.release, hi]; simp [hp]
              rw [hsame]
              exact stamped_of_length_le (le_refl _)
          | false =>
              have hlength : (y.returned permit p).permits.length = y.permits.length :=
                List.length_set
              rw [release_eq env hi hp, ← hlength]
              exact stamped_settle (PoolScheduler.fulfillFrom_grants ..)
  | timeout waiterId =>
      unfold System.step System.timeout
      dsimp only
      split <;> exact stamped_of_length_le (le_refl _)
  | _ => exact stamped_of_length_le (le_refl _)

/-! ## Circuit generations -/

theorem revision_of_applied {c : Circuits} {a : JsString}
    (h : (c.recordSuccess a (some revision) (some epoch) now).1.applied = true) :
    c.getHealthRevision a = revision := by
  unfold Circuits.recordSuccess at h
  dsimp only at h
  split at h
  · cases h
  · next hcurrent =>
      simp only [Option.any_some, Bool.or_eq_true, decide_eq_true_eq, not_or, not_not] at hcurrent
      exact hcurrent.1.1.symm

/-- The step puts the account into an open circuit that lasts past `at_`. -/
def PutsOpen (env : Env) (a : JsString) (at_ : Millis) (y : System) (op : Op) : Prop :=
  ∃ h, (y.step env op).circuits.health.get? a = some h ∧ h.OpenPast at_ ∧
    y.circuits.health.get? a ≠ some h

/-- Circuit generations.  Take any state, a step that grants a permit with a
snapshot, and any further run that never hydrates an open circuit for its
account while the account has no live health.  If `recordSuccess` with the
snapshot is applied at the end, no step of the run put the account into an
open circuit whose cooldown is still in the future. -/
theorem success_erases_no_newer_circuit (env : Env) (y : System) (op : Op) (ops : List Op)
    (p : Permit) (revision epoch : Nat) (now : Millis)
    (hgrant : (y.step env op).permits[y.permits.length]? = some p)
    (hsnapshot : p.snapshot = some (revision, epoch))
    (hquiet : Lib.Along (step env) (HydratesQuietly p.account.id now) (y.step env op) ops)
    (happlied : ((run env (y.step env op) ops).scheduler.recordSuccess p.account.id
      (some revision) (some epoch) now).1.applied = true) :
    ∀ pre later post, ops = pre ++ later :: post →
      ¬ PutsOpen env p.account.id now (run env (y.step env op) pre) later := by
  rintro pre later post rfl ⟨h, hget, hopen, hnew⟩
  have hselected := (stamped_step env y op p hgrant revision epoch hsnapshot).1
  generalize y.step env op = z at hquiet happlied hget hnew hselected
  obtain ⟨hpre, hlater, hpost⟩ := Lib.along_append.mp hquiet
  have hrun : run env z (pre ++ later :: post) = run env ((run env z pre).step env later) post :=
    Lib.run_append ..
  -- the revision is the selected one at both ends, so it never moved
  have hend : (run env ((run env z pre).step env later) post).circuits.getHealthRevision
      p.account.id = revision := hrun ▸ revision_of_applied happlied
  have hfollows₁ := follows_run env z hpre
  have hfollows₂ := follows_step env (run env z pre) later hlater
  have hfollows₃ := follows_run env ((run env z pre).step env later) hpost
  have hsame : ((run env z pre).step env later).circuits.getHealthRevision p.account.id =
      (run env z pre).circuits.getHealthRevision p.account.id := by
    have h₁ := hfollows₁.revision_le
    have h₂ := hfollows₂.revision_le
    have h₃ := hfollows₃.revision_le
    omega
  exact hnew (hfollows₂.health_eq hsame h hget hopen)

/-- An account whose record says that its circuit is open until `untilAt`. -/
def openAccount (id : String) (untilAt : Millis) : Account :=
  { plainAccount id 1 with
    status := .cooldown, circuitState := some .open, cooldownUntil := some untilAt }

/-- A selection, a hydration without open circuits, and the success. -/
theorem success_erases_no_newer_circuit_of_quiet_hydrate :
    let y := init .default
    let select : Op := .selectAndAcquire (plainInput (plainPool .balanced) [plainAccount "a" 1]) 0
    ∀ pre later post, [Op.hydrate [plainAccount "a" 1] none 1] = pre ++ later :: post →
      ¬ PutsOpen Env.plain (js "a") 10 (run Env.plain (y.step Env.plain select) pre) later := by
  intro y select
  exact success_erases_no_newer_circuit Env.plain y select [.hydrate [plainAccount "a" 1] none 1]
    ⟨plainAccount "a" 1, none, some (0, 0), false, 1, 0⟩ 0 0 10 (by decide +kernel) rfl
    (by decide +kernel) (by decide +kernel)

/-- A success selected before a hydration erases the open circuit that the
hydration installed. -/
theorem success_erases_hydrated_circuit :
    let y := run Env.plain (init .default)
      [.selectAndAcquire (plainInput (plainPool .balanced) [plainAccount "a" 1]) 0]
    let z := y.step Env.plain (.hydrate [openAccount "a" 100] none 1)
    let success := z.scheduler.recordSuccess (js "a") (some 0) (some 0) 10
    y.permits.map Permit.snapshot = [some (0, 0)] ∧
    y.circuits.health.get? (js "a") = none ∧
    (z.circuits.health.get? (js "a")).map (fun h => (h.circuitState, h.cooldownUntil)) =
      some (.open, some 100) ∧
    success.1.applied = true ∧ success.2.circuits.health.get? (js "a") = none := by
  decide +kernel

end System

end StonePlus.Scheduler
