import StonePlus.ClientConfig.Capture
import StonePlus.ClientConfig.Retention

/-!
# StonePlus.ClientConfig.Restore

Writing files that are backed up, and writing them back.

While files are written in turn, each holds what is planned for it or what it held before.
If the writing fails, the rollback brings back what was before, or says that it did not.
-/

namespace StonePlus.ClientConfig

open Lib

namespace ClientConfigService

variable {service : ClientConfigService} {faulty : Bool}

/-- Every file of `roles` is backed up as it is. -/
def BackedUp (backups : List BackupRecord) (roles : List ClientConfigFileRole) (s : Files) : Prop :=
  ∀ role ∈ roles, ∃ backup, backupOf backups role = some backup ∧
    backup.existed = (s.managed role).isSome ∧
    s.backups.get? backup = some ((s.managed role).getD [])

/-- The files once those of `written` hold what is planned. -/
def midway (s : Files) (planned : ClientConfigFileRole → Option Bytes)
    (written : List ClientConfigFileRole) : Files :=
  { s with managed := fun role => if role ∈ written then planned role else s.managed role }

@[simp] theorem midway_nil (s : Files) (planned : ClientConfigFileRole → Option Bytes) :
    midway s planned [] = s := by
  simp [midway]

@[simp] theorem backups_midway (s : Files) (planned : ClientConfigFileRole → Option Bytes)
    (written : List ClientConfigFileRole) : (midway s planned written).backups = s.backups := rfl

theorem managed_midway_of_notMem (h : role ∉ written) :
    (midway s planned written).managed role = s.managed role := by
  simp [midway, h]

theorem managed_midway_of_mem (h : role ∈ written) :
    (midway s planned written).managed role = planned role := by
  simp [midway, h]

/-- One more file is written. -/
theorem write_midway (s : Files) (planned : ClientConfigFileRole → Option Bytes)
    (written : List ClientConfigFileRole) (role : ClientConfigFileRole) :
    (midway s planned written).write role (planned role) =
      midway s planned (written ++ [role]) := by
  simp only [midway, Files.write, Files.mk.injEq, and_true]
  funext role'
  simp only [Function.update_apply]
  grind

/-- The last file written is written back. -/
theorem write_back_midway (h : role ∉ rest) :
    (midway s planned (role :: rest)).write role (s.managed role) = midway s planned rest := by
  simp only [midway, Files.write, Files.mk.injEq, and_true]
  funext role'
  simp only [Function.update_apply]
  grind

section Rules

variable {s : Files} {backups : List BackupRecord} {role : ClientConfigFileRole}

theorem meets_assertMatchesBackup (hexisted : backup.existed = (s.managed role).isSome)
    (hcontent : s.backups.get? backup = some ((s.managed role).getD [])) (hpost : post () s)
    (hfail : faulty = true → fail (.system .eio) s) :
    Faulty.Meets faulty post fail (assertMatchesBackup role (some backup)) s := by
  simp only [assertMatchesBackup, Faulty.meets_bind, meets_io, Faulty.meets_get]
  refine ⟨?_, hfail⟩
  cases hmanaged : s.managed role with
  | none => simp [hexisted, hmanaged, hpost]
  | some content =>
      rw [hmanaged] at hexisted hcontent
      rw [if_pos (by simpa using hexisted)]
      simp only [Faulty.meets_bind, meets_io, Faulty.meets_get, hcontent]
      exact ⟨by simp [hpost], hfail⟩

/-- A file is written back, or nothing changes and that is noted. -/
theorem meets_rollbackFile (hbackup : backupOf backups role = some backup)
    (hexisted : backup.existed = before.isSome)
    (hcontent : s.backups.get? backup = some (before.getD []))
    (hdone : post false (s.write role before)) (hfailed : post true s) :
    Faulty.Meets faulty post fail (rollbackFile backups expected role) s := by
  simp only [rollbackFile, Faulty.meets_orElse, Faulty.meets_bind, meets_io, Faulty.meets_get,
    Faulty.meets_pure, hbackup]
  refine ⟨?_, fun _ => hfailed⟩
  split
  · exact hfailed
  cases before with
  | none =>
      rw [Option.filter_some, if_neg (by simp [hexisted])]
      simp only [Faulty.meets_bind, meets_removeFile]
      exact ⟨hdone, fun _ => hfailed⟩
  | some content =>
      rw [Option.filter_some, if_pos (by simpa using hexisted)]
      simp only [Faulty.meets_bind, meets_io, Faulty.meets_get, hcontent]
      exact ⟨meets_atomicWriteFile hdone fun _ => hfailed, fun _ => hfailed⟩

end Rules

/-- **A rollback that notes no failure brings back every file it is given.** -/
theorem meets_rollbackFiles (planned : ClientConfigFileRole → Option Bytes)
    (managed : ClientConfigFileRole → Option Bytes) (hnodup : rest.Nodup)
    (hbacked : BackedUp backups rest s)
    (hmanaged : failures = [] → { s with managed } = midway s planned rest) :
    Faulty.Meets faulty (fun failures s' => failures = [] → s' = s) fail
      (rollbackFiles backups expected rest failures) { s with managed } := by
  induction rest generalizing failures managed with
  | nil => exact fun h => (hmanaged h).trans (midway_nil s planned)
  | cons role rest ih =>
      rw [List.nodup_cons] at hnodup
      have hbacked' : BackedUp backups rest s :=
        fun role' hrole' => hbacked role' (List.mem_cons_of_mem _ hrole')
      obtain ⟨backup, hbackup, hexisted, hcontent⟩ := hbacked role List.mem_cons_self
      rw [rollbackFiles, Faulty.meets_bind]
      refine meets_rollbackFile hbackup hexisted hcontent ?_ ?_
      · refine ih (Function.update managed role (s.managed role)) hnodup.2 hbacked' ?_
        intro hfailures
        have hwritten : { s with managed } = midway s planned (role :: rest) :=
          hmanaged (by simpa using hfailures)
        rw [← write_back_midway hnodup.1, ← hwritten]
        rfl
      · exact ih managed hnodup.2 hbacked' fun h => by simp at h

theorem meets_rollbackAndThrow
    (hincomplete : ∀ e files, (incomplete e files).reportsIncompleteRollback = true)
    (hfaulty : faulty = true) (hnodup : written.Nodup) (hbacked : BackedUp backups written s) :
    Faulty.Meets faulty post
      (fun e s' => faulty = true ∧
        (e.reportsIncompleteRollback = true ∨ s'.managed = s.managed))
      (rollbackAndThrow backups expected incomplete written error) (midway s planned written) := by
  rw [rollbackAndThrow, Faulty.meets_bind, rollback]
  refine (meets_rollbackFiles planned _ (List.nodup_reverse.mpr hnodup)
    (fun role hrole => hbacked role (List.mem_reverse.mp hrole)) ?_).mono ?_ fun _ _ h => h
  · intro _
    simp [midway]
  · intro failures s' hs'
    by_cases hfailures : failures = []
    · rw [if_pos hfailures, hs' hfailures]
      exact ⟨hfaulty, .inr rfl⟩
    · rw [if_neg hfailures]
      exact ⟨hfaulty, .inl (hincomplete error failures)⟩

/-- **Files are written all or not at all**: if writing or verifying one fails, each is as it
was, or the failure says that the rollback was incomplete. -/
theorem meets_writeEach {s : Files} {backups : List BackupRecord}
    {expected : ClientConfigFileRole → Option (Option Bytes)}
    (planned : ClientConfigFileRole → Option Bytes)
    {incomplete : Failure → List ClientConfigFileRole → Failure}
    {write verify : ClientConfigFileRole → FileOp Unit}
    {rest : List ClientConfigFileRole} (written : List ClientConfigFileRole)
    (hincomplete : ∀ e files, (incomplete e files).reportsIncompleteRollback = true)
    (hnodup : (written ++ rest).Nodup) (hbacked : BackedUp backups (written ++ rest) s)
    (hwrite : ∀ role ∈ rest, ∀ written, role ∉ written →
      Faulty.Meets faulty (fun _ s' => s' = midway s planned (written ++ [role]))
        (fun _ s' => faulty = true ∧ s' = midway s planned written)
        (write role) (midway s planned written))
    (hverify : ∀ role ∈ rest, ∀ written, role ∈ written →
      Faulty.Meets faulty (fun _ s' => s' = midway s planned written)
        (fun _ s' => faulty = true ∧ s' = midway s planned written)
        (verify role) (midway s planned written)) :
    Faulty.Meets faulty (fun _ s' => s' = midway s planned (written ++ rest))
      (fun e s' => faulty = true ∧
        (e.reportsIncompleteRollback = true ∨ s'.managed = s.managed))
      (writeEach write verify (rollbackAndThrow backups expected incomplete) rest written)
      (midway s planned written) := by
  induction rest generalizing written with
  | nil => simp [writeEach]
  | cons role rest ih =>
      have hsplit : written ++ role :: rest = (written ++ [role]) ++ rest := by simp
      rw [hsplit] at hnodup hbacked ⊢
      have hnodup' : (written ++ [role]).Nodup := (List.nodup_append'.mp hnodup).1
      have hnot : role ∉ written := by
        intro h
        exact (List.nodup_append'.mp hnodup').2.2 h List.mem_cons_self
      have hbacked' : BackedUp backups (written ++ [role]) s :=
        fun role' hrole' => hbacked role' (List.mem_append_left _ hrole')
      rw [writeEach, Faulty.meets_bind, Faulty.meets_orElse]
      refine (hwrite role List.mem_cons_self written hnot).mono ?_ ?_
      · rintro _ s' rfl
        rw [Faulty.meets_bind, Faulty.meets_orElse]
        refine (hverify role List.mem_cons_self _ (by simp)).mono ?_ ?_
        · rintro _ s' rfl
          exact ih (written ++ [role]) hnodup hbacked
            (fun role' hrole' => hwrite role' (List.mem_cons_of_mem _ hrole'))
            (fun role' hrole' => hverify role' (List.mem_cons_of_mem _ hrole'))
        · rintro e s' ⟨hfaulty, rfl⟩
          exact meets_rollbackAndThrow hincomplete hfaulty hnodup' hbacked'
      · rintro e s' ⟨hfaulty, rfl⟩
        exact meets_rollbackAndThrow hincomplete hfaulty (List.nodup_append'.mp hnodup').1
          fun role' hrole' => hbacked' role' (List.mem_append_left _ hrole')

end ClientConfigService

end StonePlus.ClientConfig

/-!
## Restoring

Restoring a backup set.

A restore puts back what the set holds or leaves every file as it is, whatever fails; and
a set that is there as a whole (`Holds`) is accepted.
-/

namespace StonePlus.ClientConfig

open Lib

namespace ClientConfigService

variable {service : ClientConfigService} {faulty : Bool} {s : Files} {client : SupportedClient}

/-! ## Restoring a set -/

/-- What a set holds of a file. -/
def sourceContent (s : Files) (sourceBackups : List BackupRecord) (role : ClientConfigFileRole) :
    Option Bytes :=
  ((backupOf sourceBackups role).filter (·.existed)).bind s.backups.get?

/-- The files of a client that a set is of. -/
def restoreFiles (service : ClientConfigService) (client : SupportedClient)
    (sourceBackups : List BackupRecord) : List ClientConfigFileRole :=
  (service.clientFiles client).filter (· ∈ sourceBackups.map (·.role))

/-- Each file is of the revision that is expected of it. -/
def RevisionsMatch (service : ClientConfigService) (s : Files) (roles : List ClientConfigFileRole)
    (expectedRevisions : Option (ClientConfigFileRole → Option String)) : Prop :=
  ∀ expected ∈ expectedRevisions, ∀ role ∈ roles,
    let revision := service.revisionOf role ((s.managed role).map service.decode)
    expected role = some revision ∧ revision ≠ ""

variable {roles : List ClientConfigFileRole}

theorem backupOf_map_recordOf (h : role ∈ roles) :
    backupOf (roles.map (recordOf s groupId)) role = some (recordOf s groupId role) := by
  induction roles with
  | nil => cases h
  | cons first rest ih =>
      simp only [backupOf, List.map_cons, List.find?_cons]
      by_cases hfirst : first = role
      · simp [recordOf, hfirst]
      · have hne : (recordOf s groupId first).role ≠ role := hfirst
        rw [decide_eq_false hne]
        exact ih ((List.mem_cons.mp h).resolve_left (Ne.symm hfirst))

/-- What has been captured is backed up. -/
theorem Captured.backedUp {roles' : List ClientConfigFileRole}
    (h : Captured client groupId roles s s') (hsub : ∀ role ∈ roles', role ∈ roles) :
    BackedUp (roles.map (recordOf s groupId)) roles' s' := by
  intro role hrole
  refine ⟨_, backupOf_map_recordOf (hsub role hrole), ?_, ?_⟩
  · rw [h.managed]
    rfl
  · rw [h.backups, if_pos (List.mem_map_of_mem (hsub role hrole)), h.managed]
    rfl

theorem meets_assertRevisions {safetyBackups : List BackupRecord}
    {expectedRevisions : Option (ClientConfigFileRole → Option String)}
    (hbacked : BackedUp safetyBackups roles s) : Faulty.Meets faulty (fun _ s' => s' = s)
      (fun _ s' => s' = s ∧ (faulty = true ∨ ¬ service.RevisionsMatch s roles expectedRevisions))
      (service.assertRevisions safetyBackups roles expectedRevisions) s := by
  cases expectedRevisions with
  | none => exact rfl
  | some expected =>
      refine Faulty.meets_forEach (fun _ s' => s' = s) ?_ rfl
      intro done role rest s' hsplit hs'
      rw [hs']
      have hrole : role ∈ roles := by simp [hsplit]
      obtain ⟨backup, hbackup, hexisted, hcontent⟩ := hbacked role hrole
      have hread : ((backupOf safetyBackups role).filter (·.existed)).bind s.backups.get? =
          s.managed role := by
        rw [hbackup]
        cases hmanaged : s.managed role <;> simp_all [Option.filter_some]
      simp only [Faulty.meets_bind, readSnapshot]
      generalize (backupOf safetyBackups role).filter (·.existed) = snapshot at hread ⊢
      have hensure : Faulty.Meets faulty (fun _ s' => s' = s)
          (fun _ s' => s' = s ∧
            (faulty = true ∨ ¬ service.RevisionsMatch s roles (some expected)))
          (Faulty.ensure
            (expected role = some (service.revisionOf role ((s.managed role).map service.decode)) ∧
              service.revisionOf role ((s.managed role).map service.decode) ≠ "")
            (Failure.validation ("Automatic rollback refused: " ++ role.name ++
              " changed after connection repair. Newer configuration was preserved."))) s := by
        rw [Faulty.meets_ensure]
        split
        · rfl
        · next hnot => exact ⟨rfl, .inr fun h => hnot (h expected rfl role hrole)⟩
      cases snapshot with
      | none =>
          simp only [Option.isSome_none, Bool.false_eq_true, if_false, Faulty.meets_finish,
            Faulty.meets_get, hread]
          exact hensure
      | some snapshot =>
          simp only [Option.isSome_some, if_true, meets_io, Faulty.meets_get, hread]
          exact ⟨hensure, fun hfaulty => ⟨trivial, .inl hfaulty⟩⟩

/-- A file that is backed up as it is may be written. -/
theorem meets_assert_midway (hbacked : BackedUp backups roles s) (hrole : role ∈ roles)
    (hnot : role ∉ written) (hpost : post () (midway s planned written))
    (hfail : faulty = true → fail (.system .eio) (midway s planned written)) :
    Faulty.Meets faulty post fail (assertMatchesBackup role (backupOf backups role))
      (midway s planned written) := by
  obtain ⟨backup, hbackup, hexisted, hcontent⟩ := hbacked role hrole
  rw [hbackup]
  refine meets_assertMatchesBackup ?_ ?_ hpost hfail
  · rwa [managed_midway_of_notMem hnot]
  · rwa [managed_midway_of_notMem hnot, backups_midway]

theorem meets_restoreFile {backups : List BackupRecord} {written : List ClientConfigFileRole}
    {planned : ClientConfigFileRole → Option Bytes} {role : ClientConfigFileRole}
    (hbacked : BackedUp backups roles s) (hrole : role ∈ roles) (hnot : role ∉ written) :
    Faulty.Meets faulty (fun _ s' => s' = midway s planned (written ++ [role]))
      (fun _ s' => faulty = true ∧ s' = midway s planned written)
      (restoreFile planned backups role) (midway s planned written) := by
  rw [restoreFile, Faulty.meets_bind]
  refine meets_assert_midway hbacked hrole hnot ?_ fun hfaulty => ⟨hfaulty, rfl⟩
  have hwrite := write_midway s planned written role
  cases hplanned : planned role with
  | some content =>
      rw [hplanned] at hwrite
      exact meets_atomicWriteFile hwrite fun hfaulty => ⟨hfaulty, rfl⟩
  | none =>
      rw [hplanned] at hwrite
      exact meets_removeFile.mpr ⟨hwrite, fun hfaulty => ⟨hfaulty, rfl⟩⟩

/-- What a restore needs in order to go through. -/
def Accepts (service : ClientConfigService) (s : Files) (client : SupportedClient)
    (selector : Selector) (expectedRevisions : Option (ClientConfigFileRole → Option String))
    (now : Nat) : Prop :=
  ∃ groupId sourceBackups,
    service.selectBackups client (service.listing s client) selector =
      .ok (groupId, sourceBackups) ∧
    service.restorable client groupId sourceBackups (s.manifests client groupId) = .ok () ∧
    service.RevisionsMatch s (service.restoreFiles client sourceBackups) expectedRevisions ∧
    (service.freeSequence s client now).isSome

/-- A restore that is refused, or fails, leaves the files alone or says that it did not. -/
def Unrestored (service : ClientConfigService) (faulty : Bool) (s : Files)
    (client : SupportedClient) (selector : Selector)
    (expectedRevisions : Option (ClientConfigFileRole → Option String)) (now : Nat)
    (e : Failure) (s' : Files) : Prop :=
  (e.reportsIncompleteRollback = true ∨ s'.managed = s.managed) ∧
    (faulty = true ∨ ¬ service.Accepts s client selector expectedRevisions now)

theorem clientFiles_ne_nil : service.clientFiles client ≠ [] := by
  cases client <;> simp [clientFiles]

/-- **A restore puts back what the set holds, or leaves every file as it is.** -/
theorem meets_restoreBackupSet {selector : Selector}
    {expectedRevisions : Option (ClientConfigFileRole → Option String)} {now : Nat} :
    Faulty.Meets faulty
      (fun _ s' => ∃ groupId sourceBackups,
        service.selectBackups client (service.listing s client) selector =
          .ok (groupId, sourceBackups) ∧
        ∀ role, s'.managed role = if role ∈ service.restoreFiles client sourceBackups then
          sourceContent s sourceBackups role else s.managed role)
      (service.Unrestored faulty s client selector expectedRevisions now)
      (service.restoreBackupSet client selector expectedRevisions now) s := by
  have hrefused : ∀ {e : Failure} {s' : Files}, s'.managed = s.managed →
      (faulty = true ∨ ¬ service.Accepts s client selector expectedRevisions now) →
      service.Unrestored faulty s client selector expectedRevisions now e s' :=
    fun hs' h => ⟨.inr hs', h⟩
  simp only [restoreBackupSet, listBackups, Faulty.meets_bind, meets_io, Faulty.meets_get,
    Faulty.meets_pure]
  refine ⟨?_, fun hfaulty => hrefused rfl (.inl hfaulty)⟩
  cases hselect : service.selectBackups client (service.listing s client) selector with
  | error e =>
      refine hrefused rfl (.inr ?_)
      rintro ⟨_, _, h, _⟩
      rw [hselect] at h
      cases h
  | ok selected =>
      obtain ⟨groupId, sourceBackups⟩ := selected
      have haccepts : service.Accepts s client selector expectedRevisions now →
          service.restorable client groupId sourceBackups (s.manifests client groupId) = .ok () ∧
          service.RevisionsMatch s (service.restoreFiles client sourceBackups) expectedRevisions ∧
          (service.freeSequence s client now).isSome := by
        rintro ⟨g, b, h, hrest⟩
        rw [hselect] at h
        cases h
        exact hrest
      simp only [assertRestorableBackupGroup, Faulty.meets_bind, meets_io, Faulty.meets_get,
        meets_check]
      refine ⟨?_, fun hfaulty => hrefused rfl (.inl hfaulty)⟩
      cases hrestorable :
          service.restorable client groupId sourceBackups (s.manifests client groupId) with
      | error e =>
          refine hrefused rfl (.inr fun h => ?_)
          rw [(haccepts h).1] at hrestorable
          cases hrestorable
      | ok _ =>
          refine ⟨?_, fun hfaulty => hrefused rfl (.inl hfaulty)⟩
          refine meets_backupFiles (nodup_clientFiles client) (fun _ h => h)
            (fun h => absurd h clientFiles_ne_nil) ?_
            (fun hfaulty s' hs' => hrefused hs' (.inl hfaulty)) ?_
          · intro _ sequence s₁ hfree hcaptured
            let written := service.restoreFiles client sourceBackups
            have hsub : ∀ role ∈ written, role ∈ service.clientFiles client :=
              fun role hrole => (List.mem_filter.mp hrole).1
            have hbacked : BackedUp _ written s₁ := hcaptured.backedUp hsub
            refine (meets_assertRevisions hbacked).mono ?_ ?_
            · rintro _ s₂ rfl
              refine (meets_writeEach (sourceContent s sourceBackups) [] (fun _ _ => rfl)
                ((nodup_clientFiles client).filter _) hbacked
                (fun role hrole _ hnot => meets_restoreFile hbacked hrole hnot)
                fun role _ _ _ => Faulty.meets_pure _ |>.mpr rfl).mono ?_ ?_
              · rintro _ s₃ rfl
                refine ⟨groupId, sourceBackups, rfl, fun role => ?_⟩
                rw [midway, hcaptured.managed]
                rfl
              · rintro e s₃ ⟨hfaulty, hs₃⟩
                exact ⟨hs₃.imp_right fun h => h.trans hcaptured.managed, .inl hfaulty⟩
            · rintro e s₂ ⟨rfl, h⟩
              refine hrefused hcaptured.managed (h.imp_right fun hnot haccepted => hnot ?_)
              unfold RevisionsMatch
              rw [hcaptured.managed]
              exact (haccepts haccepted).2.1
          · intro _ hfree
            refine hrefused rfl (.inr fun h => ?_)
            have := (haccepts h).2.2
            simp [hfree] at this

/-! ## The set that a change makes -/

/-- A set of `roles` is there as a whole, with what they held in `s₀`. -/
structure Holds (service : ClientConfigService) (client : SupportedClient) (groupId : GroupId)
    (roles : List ClientConfigFileRole) (s₀ s : Files) : Prop where
  backups : ∀ backup, backup.role ∈ service.clientFiles client → backup.groupId = groupId →
    s.backups.get? backup = if backup ∈ roles.map (recordOf s₀ groupId) then
      some ((s₀.managed backup.role).getD []) else none
  manifest : s.manifests client groupId =
    some (some (manifestOf client groupId (roles.map (recordOf s₀ groupId))))

theorem Captured.holds (h : Captured client groupId roles s s₁)
    (hfree : service.occupied s client groupId = false) :
    service.Holds client groupId roles s s₁ where
  backups backup hrole hgroup := by
    rw [h.backups, backups_eq_none_of_not_occupied hfree hrole hgroup]
  manifest := by simp [h.manifests, Files.setManifest]

/-- A set is not touched by a prune that keeps it. -/
theorem Holds.of_untouched (h : service.Holds client groupId roles s₀ s)
    (hs' : Untouched dropped s s') (hkept : groupId ∉ dropped) :
    service.Holds client groupId roles s₀ s' where
  backups backup hrole hgroup := by
    rw [hs'.backups backup (by rwa [hgroup])]
    exact h.backups backup hrole hgroup
  manifest := (hs'.manifests client groupId hkept).trans h.manifest

theorem duplicateRole_eq_none (hnodup : roles.Nodup) (hseen : ∀ role ∈ roles, role ∉ seen) :
    duplicateRole seen roles = none := by
  induction roles generalizing seen with
  | nil => rfl
  | cons role rest ih =>
      rw [List.nodup_cons] at hnodup
      rw [duplicateRole, if_neg (hseen role List.mem_cons_self)]
      refine ih hnodup.2 fun role' hrole' => ?_
      rw [List.mem_cons, not_or]
      exact ⟨fun h => hnodup.1 (h ▸ hrole'), hseen role' (List.mem_cons_of_mem _ hrole')⟩

theorem backupOf_eq_some {backups : List BackupRecord} (backup : BackupRecord)
    (hnodup : (backups.map (·.role)).Nodup) (h : backup ∈ backups) :
    backupOf backups backup.role = some backup := by
  induction backups with
  | nil => cases h
  | cons first rest ih =>
      rw [List.map_cons, List.nodup_cons] at hnodup
      rcases List.mem_cons.mp h with rfl | hmem
      · simp [backupOf]
      · have hne : first.role ≠ backup.role :=
          fun he => hnodup.1 (he ▸ List.mem_map_of_mem hmem)
        rw [backupOf, List.find?_cons_of_neg (by simpa using hne)]
        exact ih hnodup.2 hmem

section Holds

variable {groupId : GroupId} {roles : List ClientConfigFileRole} {s₀ : Files}

theorem map_role_map_recordOf :
    (roles.map (recordOf s₀ groupId)).map (·.role) = roles := by
  simp [recordOf, Function.comp_def]

/-- The backups of a set that is there are the ones it is made of. -/
theorem Holds.perm (h : service.Holds client groupId roles s₀ s) (hnodup : roles.Nodup)
    (hroles : ∀ role ∈ roles, role ∈ service.clientFiles client) :
    ((service.listing s client).filter (·.groupId = groupId)).Perm
      (roles.map (recordOf s₀ groupId)) := by
  refine (List.perm_ext_iff_of_nodup (nodup_listing.filter _) ?_).mpr fun backup => ?_
  · refine List.Nodup.of_map (·.role) ?_
    rwa [map_role_map_recordOf]
  · rw [List.mem_filter, mem_listing, decide_eq_true_eq]
    constructor
    · rintro ⟨⟨hrole, content, hcontent⟩, hgroup⟩
      rw [h.backups backup hrole hgroup] at hcontent
      by_contra hnot
      simp [hnot] at hcontent
    · intro hmem
      obtain ⟨role, hrole, rfl⟩ := List.mem_map.mp hmem
      refine ⟨⟨hroles role hrole, (s₀.managed role).getD [], ?_⟩, rfl⟩
      rw [h.backups _ (hroles role hrole) rfl, if_pos hmem]
      rfl

theorem mem_restoreFiles (hperm : sourceBackups.Perm (roles.map (recordOf s₀ groupId)))
    (hroles : ∀ role ∈ roles, role ∈ service.clientFiles client) :
    role ∈ service.restoreFiles client sourceBackups ↔ role ∈ roles := by
  have hsources : role ∈ sourceBackups.map (·.role) ↔ role ∈ roles := by
    rw [(hperm.map _).mem_iff, map_role_map_recordOf]
  rw [restoreFiles, List.mem_filter, decide_eq_true_eq, hsources]
  exact ⟨And.right, fun h => ⟨hroles role h, h⟩⟩

/-- A set that is there is found under its id. -/
theorem Holds.select (h : service.Holds client groupId roles s₀ s) (hne : roles ≠ [])
    (hnodup : roles.Nodup) (hroles : ∀ role ∈ roles, role ∈ service.clientFiles client) :
    service.selectBackups client (service.listing s client) (.groupId groupId) =
      .ok (groupId, (service.listing s client).filter (·.groupId = groupId)) := by
  have hperm := h.perm hnodup hroles
  have hsources : (service.listing s client).filter (·.groupId = groupId) ≠ [] := by
    intro hnil
    rw [hnil] at hperm
    exact hne (by simpa using hperm.symm.eq_nil)
  have hlisting : service.listing s client ≠ [] := fun hnil => hsources (by simp [hnil])
  have hmap : (((service.listing s client).filter (·.groupId = groupId)).map (·.role)).Perm
      roles := by
    have := hperm.map (·.role)
    rwa [map_role_map_recordOf] at this
  have hlength : ((service.clientFiles client).filter (· ∈
      ((service.listing s client).filter (·.groupId = groupId)).map (·.role))).length =
      ((service.listing s client).filter (·.groupId = groupId)).length := by
    have hfiles : ((service.clientFiles client).filter (· ∈
        ((service.listing s client).filter (·.groupId = groupId)).map (·.role))).Perm roles := by
      refine (List.perm_ext_iff_of_nodup ((nodup_clientFiles client).filter _) hnodup).mpr ?_
      exact fun role => mem_restoreFiles hperm hroles
    rw [hfiles.length_eq, ← hmap.length_eq, List.length_map]
  simp only [selectBackups, selectGroup, if_neg hlisting, if_neg hsources,
    duplicateRole_eq_none (hmap.nodup_iff.mpr hnodup) (fun _ _ => List.not_mem_nil)]
  rw [if_neg (by simpa using hlength)]

theorem Holds.restorable (h : service.Holds client groupId roles s₀ s) (hne : roles ≠ [])
    (hnodup : roles.Nodup) (hroles : ∀ role ∈ roles, role ∈ service.clientFiles client) :
    service.restorable client groupId
      ((service.listing s client).filter (·.groupId = groupId)) (s.manifests client groupId) =
        .ok () := by
  have hperm := h.perm hnodup hroles
  generalize (service.listing s client).filter (·.groupId = groupId) = sources at hperm ⊢
  have hmembers : (manifestOf client groupId (roles.map (recordOf s₀ groupId))).members.map
      (·.role) = roles := by
    simp [manifestOf, recordOf, Function.comp_def]
  have hhead : sources.head?.map (·.groupId.createdAt) = some groupId.createdAt := by
    cases hsources : sources with
    | nil =>
        rw [hsources] at hperm
        exact absurd (by simpa using hperm.symm.eq_nil) hne
    | cons first rest =>
        have hmem : first ∈ roles.map (recordOf s₀ groupId) :=
          hperm.mem_iff.mp (by simp [hsources])
        obtain ⟨role, _, hfirst⟩ := List.mem_map.mp hmem
        rw [← hfirst]
        rfl
  have hexact : service.exactMembers client groupId sources
      (manifestOf client groupId (roles.map (recordOf s₀ groupId))) := by
    refine ⟨rfl, rfl, hhead.symm, ?_, ?_, ?_⟩
    · simpa [manifestOf] using hperm.length_eq.symm
    · intro member hmember
      simp only [manifestOf, List.map_map, List.mem_map, Function.comp_apply] at hmember
      obtain ⟨role, hrole, rfl⟩ := hmember
      exact hroles role hrole
    · intro backup hbackup
      obtain ⟨role, hrole, rfl⟩ := List.mem_map.mp (hperm.mem_iff.mp hbackup)
      refine ⟨⟨role, (s₀.managed role).isSome, recordOf s₀ groupId role⟩, ?_, rfl, rfl, rfl⟩
      simp only [manifestOf, List.map_map, List.mem_map, Function.comp_apply]
      exact ⟨role, hrole, rfl⟩
  rw [h.manifest, ClientConfigService.restorable, hmembers,
    duplicateRole_eq_none hnodup (fun _ _ => List.not_mem_nil)]
  simp [hexact]

/-- A set holds of each of its files what the file held. -/
theorem Holds.sourceContent_eq (h : service.Holds client groupId roles s₀ s) (hnodup : roles.Nodup)
    (hroles : ∀ role ∈ roles, role ∈ service.clientFiles client) {role : ClientConfigFileRole}
    (hrole : role ∈ roles) :
    sourceContent s ((service.listing s client).filter (·.groupId = groupId)) role =
      s₀.managed role := by
  have hperm := h.perm hnodup hroles
  have hmem : recordOf s₀ groupId role ∈ roles.map (recordOf s₀ groupId) :=
    List.mem_map_of_mem hrole
  have hbackup := backupOf_eq_some (recordOf s₀ groupId role)
    (by rw [(hperm.map _).nodup_iff, map_role_map_recordOf]; exact hnodup) (hperm.mem_iff.mpr hmem)
  have hread := h.backups (recordOf s₀ groupId role) (hroles role hrole) rfl
  rw [if_pos hmem] at hread
  change backupOf _ role = _ at hbackup
  rw [sourceContent, hbackup]
  cases hmanaged : s₀.managed role with
  | none => simp [Option.filter_some, recordOf, hmanaged]
  | some content =>
      rw [Option.filter_some, if_pos (by simp [recordOf, hmanaged]), Option.bind_some, hread]
      simp [recordOf, hmanaged]

end Holds

end ClientConfigService

end StonePlus.ClientConfig
