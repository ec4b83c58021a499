import StonePlus.ClientConfig.Restore

/-!
# StonePlus.ClientConfig.Reversal

Whether a change to a client's configuration can be taken back.

A change is all or nothing, and so is a restore, whatever fails.  The set that a change
returns is there to be restored exactly when the prune that follows the change keeps it;
the prune goes by the clock, and the set that has just been made may be the oldest.
-/

namespace StonePlus.ClientConfig

open Lib

/-- A plan over the managed files of a client. -/
structure ClientConfigPlan (service : ClientConfigService) (client : SupportedClient) where
  files : List PlannedFileMutation
  nodup : (files.map (·.role)).Nodup
  managed : ∀ file ∈ files, file.role ∈ service.clientFiles client

namespace ClientConfigPlan

variable {service : ClientConfigService} {client : SupportedClient}

/-- The files that a plan changes. -/
def changes (plan : ClientConfigPlan service client) : List ClientConfigFileRole :=
  (plan.files.filter (·.changed)).map (·.role)

theorem nodup_changes (plan : ClientConfigPlan service client) : plan.changes.Nodup :=
  plan.nodup.sublist (List.filter_sublist.map _)

theorem mem_clientFiles_of_mem_changes (plan : ClientConfigPlan service client)
    (h : role ∈ plan.changes) : role ∈ service.clientFiles client := by
  obtain ⟨file, hfile, rfl⟩ := List.mem_map.mp h
  exact plan.managed file (List.mem_filter.mp hfile).1

end ClientConfigPlan

namespace ClientConfigService

variable {service : ClientConfigService} {faulty : Bool} {s : Files} {client : SupportedClient}

/-! ## Applying a plan -/

/-- The files are as the plan was made for. -/
def ExpectedFiles (service : ClientConfigService) (s : Files)
    (expected : ClientConfigFileRole → Option String) (roles : List ClientConfigFileRole) : Prop :=
  ∀ role ∈ roles, (s.managed role).map service.decode = expected role

variable {files : List PlannedFileMutation}

theorem meets_assertExpectedFiles {expected : ClientConfigFileRole → Option String} :
    Faulty.Meets faulty
      (fun _ s' => s' = s ∧ service.ExpectedFiles s expected (files.map (·.role)))
      (fun _ s' => s' = s ∧
        (faulty = true ∨ ¬ service.ExpectedFiles s expected (files.map (·.role))))
      (service.assertExpectedFiles expected files) s := by
  refine (Faulty.meets_forEach (fun (done : List PlannedFileMutation) s' => s' = s ∧
    service.ExpectedFiles s expected (done.map (·.role))) ?_ ⟨rfl, by simp [ExpectedFiles]⟩)
  rintro done file rest s' hsplit ⟨hs', hdone⟩
  rw [hs']
  simp only [Faulty.meets_bind, meets_io, Faulty.meets_get, Faulty.meets_ensure]
  refine ⟨?_, fun hfaulty => ⟨trivial, .inl hfaulty⟩⟩
  split
  · next hfile =>
    refine ⟨trivial, fun role hrole => ?_⟩
    rw [List.map_append, List.mem_append] at hrole
    rcases hrole with hrole | hrole
    · exact hdone role hrole
    · obtain rfl : role = file.role := by simpa using hrole
      exact hfile
  · next hfile =>
    exact ⟨trivial, .inr fun h => hfile (h file.role (List.mem_map_of_mem (by simp [hsplit])))⟩

variable {role : ClientConfigFileRole}

theorem meets_writePlanned {backups : List BackupRecord}
    {roles written : List ClientConfigFileRole} (hbacked : BackedUp backups roles s)
    (hrole : role ∈ roles) (hnot : role ∉ written)
    (hplanned : (service.plannedContent files role).isSome) : Faulty.Meets faulty
      (fun _ s' => s' = midway s (service.plannedContent files) (written ++ [role]))
      (fun _ s' => faulty = true ∧ s' = midway s (service.plannedContent files) written)
      (service.writePlanned files backups role)
      (midway s (service.plannedContent files) written) := by
  rw [writePlanned, Faulty.meets_bind]
  refine meets_assert_midway hbacked hrole hnot ?_ fun hfaulty => ⟨hfaulty, rfl⟩
  obtain ⟨content, hcontent⟩ := Option.isSome_iff_exists.mp hplanned
  have hwrite := write_midway s (service.plannedContent files) written role
  rw [hcontent] at hwrite ⊢
  exact meets_atomicWriteFile hwrite fun hfaulty => ⟨hfaulty, rfl⟩

theorem meets_verifyPlanned {written : List ClientConfigFileRole} (hmem : role ∈ written) :
    Faulty.Meets faulty
      (fun _ s' => s' = midway s (service.plannedContent files) written)
      (fun _ s' => faulty = true ∧ s' = midway s (service.plannedContent files) written)
      (service.verifyPlanned files role) (midway s (service.plannedContent files) written) := by
  simp only [verifyPlanned, Faulty.meets_bind, meets_io, Faulty.meets_get, Faulty.meets_ensure,
    managed_midway_of_mem hmem, if_true]
  exact ⟨trivial, fun hfaulty => ⟨hfaulty, trivial⟩⟩

theorem isSome_plannedContent (h : role ∈ files.map (·.role)) :
    (service.plannedContent files role).isSome := by
  obtain ⟨file, hfile, rfl⟩ := List.mem_map.mp h
  rw [plannedContent, Option.isSome_map, List.find?_isSome]
  exact ⟨file, hfile, by simp⟩

/-- The groups that the prune after a change drops, if a retention is asked for that is one. -/
def droppedBy (service : ClientConfigService) (s : Files) (client : SupportedClient) :
    Option Int → List GroupId
  | none => []
  | some retention =>
    if 1 ≤ retention ∧ retention ≤ 100 then service.droppedGroups s client retention else []

theorem meets_pruneAfterApply {fail : Failure → Files → Prop} {backupRetention : Option Int} :
    Faulty.Meets faulty
      (fun _ s' => Untouched (service.droppedBy s client backupRetention) s s' ∧
        (faulty = false → ∀ id ∈ service.droppedBy s client backupRetention,
          service.occupied s' client id = false))
      fail (service.pruneAfterApply client backupRetention) s := by
  have hsame : ∀ dropped, Untouched dropped s s :=
    fun _ => ⟨rfl, fun _ _ => rfl, fun _ _ _ => rfl⟩
  cases backupRetention with
  | none => exact ⟨hsame _, fun _ => by simp [droppedBy]⟩
  | some retention =>
      rw [pruneAfterApply, Faulty.meets_orElse, Faulty.meets_bind]
      by_cases hretention : 1 ≤ retention ∧ retention ≤ 100
      · have hdropped : service.droppedBy s client (some retention) =
            service.droppedGroups s client retention := if_pos hretention
        rw [hdropped]
        refine (meets_pruneBackups hretention).mono ?_ ?_
        · rintro _ s' ⟨htouched, hgone⟩
          exact ⟨htouched, fun _ => hgone⟩
        · rintro _ s' ⟨hfaulty, htouched⟩
          exact ⟨htouched, by simp [hfaulty]⟩
      · have hinvalid : ∃ e, validateBackupRetention retention = .error e := by
          rw [validateBackupRetention, if_pos (by omega)]
          exact ⟨_, rfl⟩
        obtain ⟨e, he⟩ := hinvalid
        rw [pruneBackups, Faulty.meets_bind, meets_check, he]
        refine ⟨hsame _, fun _ => ?_⟩
        rw [droppedBy, if_neg hretention]
        simp

/-- How many sets of a client are newer than a set. -/
def newerGroups (service : ClientConfigService) (s : Files) (client : SupportedClient)
    (id : GroupId) : Nat :=
  ((groupIds (service.listing s client)).filter fun other => other.newer id).length

/-- A prune keeps a set: fewer sets are newer than it keeps. -/
def Keeps (service : ClientConfigService) (s : Files) (client : SupportedClient)
    (backupRetention : Option Int) (id : GroupId) : Prop :=
  ∀ retention ∈ backupRetention, 1 ≤ retention → retention ≤ 100 →
    (service.newerGroups s client id : Int) < retention

/-- Making a set does not change which sets are newer. -/
theorem newerGroups_captured {id : GroupId} (h : Captured client id roles s s₁) :
    service.newerGroups s₁ client id = service.newerGroups s client id := by
  have hsame : ∀ other : GroupId, other.newer id →
      (other ∈ groupIds (service.listing s₁ client) ↔
        other ∈ groupIds (service.listing s client)) := by
    intro other hnewer
    simp only [mem_groupIds, mem_listing]
    have hget : ∀ backup : BackupRecord, backup.groupId = other →
        s₁.backups.get? backup = s.backups.get? backup := by
      intro backup hbackup
      rw [h.backups, if_neg]
      intro hmem
      obtain ⟨role, _, rfl⟩ := List.mem_map.mp hmem
      exact GroupId.newer_irrefl id (by rwa [← hbackup] at hnewer)
    grind
  have hnodup : ∀ s : Files, (groupIds (service.listing s client)).Nodup := by
    intro s
    refine (pairwise_groupIds pairwise_listing).imp ?_
    rintro left _ hnewer rfl
    exact GroupId.newer_irrefl _ hnewer
  refine ((List.perm_ext_iff_of_nodup ((hnodup s₁).filter _) ((hnodup s).filter _)).mpr ?_).length_eq
  intro other
  simp only [List.mem_filter, decide_eq_true_eq]
  grind

theorem mem_droppedBy_captured {id : GroupId} (backupRetention : Option Int)
    (h : Captured client id roles s s₁) (hne : roles ≠ [])
    (hroles : ∀ role ∈ roles, role ∈ service.clientFiles client) :
    id ∈ service.droppedBy s₁ client backupRetention ↔
      ¬ service.Keeps s client backupRetention id := by
  have hmem : id ∈ groupIds (service.listing s₁ client) := by
    obtain ⟨role, hrole⟩ := List.exists_mem_of_ne_nil _ hne
    refine mem_groupIds.mpr ⟨recordOf s id role, mem_listing.mpr ⟨hroles role hrole, ?_⟩, rfl⟩
    exact ⟨_, by rw [h.backups, if_pos (List.mem_map_of_mem hrole)]⟩
  cases backupRetention with
  | none => simp [droppedBy, Keeps]
  | some retention =>
      rw [droppedBy]
      split
      · next hretention =>
        rw [droppedGroups, mem_drop_groupIds hmem]
        change retention.toNat ≤ service.newerGroups s₁ client id ↔ _
        rw [newerGroups_captured h]
        simp only [Keeps, Option.mem_def, Option.some.injEq, forall_eq', hretention.1,
          hretention.2, forall_const]
        omega
      · next hretention =>
        simp only [Keeps, Option.mem_def, Option.some.injEq, forall_eq', List.not_mem_nil,
          false_iff, not_not]
        exact fun hlow hhigh => absurd ⟨hlow, hhigh⟩ hretention

/-- The set that a change makes is there afterwards, unless the prune did not keep it. -/
structure Applied (service : ClientConfigService) (faulty : Bool) (client : SupportedClient)
    (roles : List ClientConfigFileRole) (backupRetention : Option Int) (id : GroupId)
    (s s' : Files) : Prop where
  kept : service.Keeps s client backupRetention id → service.Holds client id roles s s'
  dropped : faulty = false → ¬ service.Keeps s client backupRetention id →
    service.occupied s' client id = false

/-- What a change needs in order to go through. -/
def Appliable (service : ClientConfigService) (s : Files) (client : SupportedClient)
    (roles : List ClientConfigFileRole) (expected : ClientConfigFileRole → Option String)
    (now : Nat) : Prop :=
  service.ExpectedFiles s expected roles ∧
    (roles = [] ∨ (service.freeSequence s client now).isSome)

/-- **A change goes through, and returns the set it has made, or every file is as it was.** -/
theorem meets_applyPlan {plan : ClientConfigPlan service client} : Faulty.Meets faulty
      (fun r s' => service.ExpectedFiles s expected plan.changes ∧
        (plan.changes = [] → r.backups = []) ∧
        (plan.changes ≠ [] → ∃ sequence, service.freeSequence s client now = some sequence ∧
          r.backups = plan.changes.map (recordOf s ⟨now, sequence⟩) ∧
          service.Applied faulty client plan.changes backupRetention ⟨now, sequence⟩ s s'))
      (fun e s' => (e.reportsIncompleteRollback = true ∨ s'.managed = s.managed) ∧
        (faulty = true ∨ ¬ service.Appliable s client plan.changes expected now))
      (service.applyPlan client plan.files backupRetention expected now) s := by
  rw [applyPlan, Faulty.meets_bind]
  refine meets_assertExpectedFiles.mono ?_ ?_
  · rintro _ s' ⟨hs', hexpected⟩
    rw [hs']
    have hroles : ∀ role ∈ plan.changes, role ∈ service.clientFiles client :=
      fun _ h => plan.mem_clientFiles_of_mem_changes h
    rw [Faulty.meets_bind]
    refine meets_backupFiles plan.nodup_changes hroles ?_ ?_ ?_ ?_
    · -- nothing is to be changed
      intro hnil
      change plan.changes = [] at hnil
      change Faulty.Meets _ _ _ (writeEach _ _ _ plan.changes [] >>= _) _
      rw [hnil, Faulty.meets_bind, writeEach, Faulty.meets_finish, Faulty.meets_bind]
      refine meets_pruneAfterApply.mono ?_ fun _ _ h => h
      intro _ s' _
      exact ⟨hnil ▸ hexpected, fun _ => rfl, fun hne => absurd rfl hne⟩
    · intro hne sequence s₁ hfree hcaptured
      have hoccupied : service.occupied s client ⟨now, sequence⟩ = false := by
        simpa using List.find?_some hfree
      have hbacked : BackedUp _ plan.changes s₁ := hcaptured.backedUp fun _ h => h
      rw [Faulty.meets_bind]
      refine (meets_writeEach (service.plannedContent (plan.files.filter (·.changed))) []
        (fun _ _ => rfl) plan.nodup_changes hbacked
        (fun role hrole _ hnot => meets_writePlanned hbacked hrole hnot (isSome_plannedContent hrole))
        fun role _ _ hmem => meets_verifyPlanned hmem).mono ?_ ?_
      · rintro _ s₂ rfl
        rw [Faulty.meets_bind]
        refine meets_pruneAfterApply.mono ?_ fun _ _ h => h
        rintro _ s' ⟨htouched, hgone⟩
        have hdropped := mem_droppedBy_captured backupRetention hcaptured hne hroles
        refine ⟨hexpected, fun h => absurd h hne, fun _ => ⟨sequence, hfree, rfl, ?_, ?_⟩⟩
        · intro hkeeps
          -- writing the files has left the backups alone
          have hholds := hcaptured.holds hoccupied
          have hmidway : service.Holds client ⟨now, sequence⟩ plan.changes s
              (midway s₁ (service.plannedContent (plan.files.filter (·.changed)))
                ([] ++ plan.changes)) := ⟨hholds.backups, hholds.manifest⟩
          exact hmidway.of_untouched htouched fun hmem => hdropped.mp hmem hkeeps
        · exact fun hfaulty hnot => hgone hfaulty _ (hdropped.mpr hnot)
      · rintro e s₂ ⟨hfaulty, hs₂⟩
        exact ⟨hs₂.imp_right fun h => h.trans hcaptured.managed, .inl hfaulty⟩
    · exact fun hfaulty s' hs' => ⟨.inr hs', .inl hfaulty⟩
    · intro hne hfree
      refine ⟨.inr rfl, .inr fun happliable => ?_⟩
      have := happliable.2.resolve_left hne
      simp [hfree] at this
  · rintro e _ ⟨rfl, h⟩
    exact ⟨.inr rfl, h.imp_right fun hnot happliable => hnot happliable.1⟩

/-! ## Runs -/

/-- How a change from `s` ends if its operations fail as `schedule` says. -/
def applied (service : ClientConfigService) (client : SupportedClient)
    (plan : ClientConfigPlan service client) (backupRetention : Option Int)
    (expected : ClientConfigFileRole → Option String) (now : Nat) (s : Files)
    (schedule : Schedule) : Except Failure ApplyClientConfigResult × Files :=
  let (result, s', _) :=
    (service.applyPlan client plan.files backupRetention expected now).run s schedule
  (result, s')

/-- How a restore from `s` ends if its operations fail as `schedule` says. -/
def restored (service : ClientConfigService) (client : SupportedClient) (selector : Selector)
    (expectedRevisions : Option (ClientConfigFileRole → Option String)) (now : Nat) (s : Files)
    (schedule : Schedule) : Except Failure RestoreBackupSetResult × Files :=
  let (result, s', _) :=
    (service.restoreBackupSet client selector expectedRevisions now).run s schedule
  (result, s')

/-- A change from `s` is all or nothing and can be taken back: unless it says that a rollback
was incomplete, a change or a restore that throws leaves every file as it was; and a restore
of the set that a change returned brings back every file that it changed, and goes through
if nothing fails, the files are of the revisions asked for and there is a name for the
backups of its own. -/
structure AllOrNothing (service : ClientConfigService) (client : SupportedClient)
    (plan : ClientConfigPlan service client) (backupRetention : Option Int)
    (expected : ClientConfigFileRole → Option String) (now : Nat) (s : Files) : Prop where
  apply_throws : ∀ schedule e s',
    service.applied client plan backupRetention expected now s schedule = (.error e, s') →
    e.reportsIncompleteRollback = false → s'.managed = s.managed
  restore_throws : ∀ selector revisions now' s₁ schedule e s',
    service.restored client selector revisions now' s₁ schedule = (.error e, s') →
    e.reportsIncompleteRollback = false → s'.managed = s₁.managed
  restore_brings_back : ∀ schedule r s₁,
    service.applied client plan backupRetention expected now s schedule = (.ok r, s₁) →
    ∀ backup ∈ r.backups, ∀ revisions now' schedule' r' s',
      service.restored client (.groupId backup.groupId) revisions now' s₁ schedule' =
        (.ok r', s') →
      ∀ role ∈ plan.changes, s'.managed role = s.managed role
  restore_returns : ∀ schedule r s₁,
    service.applied client plan backupRetention expected now s schedule = (.ok r, s₁) →
    ∀ backup ∈ r.backups, ∀ revisions now',
      service.RevisionsMatch s₁ plan.changes revisions →
      (service.freeSequence s₁ client now').isSome →
      ∃ r' s', service.restored client (.groupId backup.groupId) revisions now' s₁ [] =
        (.ok r', s')

/-- If the change is not refused, the set it makes is among those that the prune keeps. -/
def KeepsNewGroup (service : ClientConfigService) (client : SupportedClient)
    (plan : ClientConfigPlan service client) (backupRetention : Option Int)
    (expected : ClientConfigFileRole → Option String) (now : Nat) (s : Files) : Prop :=
  plan.changes ≠ [] → service.ExpectedFiles s expected plan.changes →
    ∀ sequence, service.freeSequence s client now = some sequence →
      service.Keeps s client backupRetention ⟨now, sequence⟩

section Runs

variable {plan : ClientConfigPlan service client} {backupRetention : Option Int}
  {expected : ClientConfigFileRole → Option String} {now : Nat}

/-- What a change that returns has done, whatever has failed meanwhile. -/
theorem of_applied_eq_ok {schedule : Schedule} (faulty : Bool)
    (hschedule : faulty = false → schedule = [])
    (h : service.applied client plan backupRetention expected now s schedule = (.ok r, s')) :
    service.ExpectedFiles s expected plan.changes ∧
      (plan.changes = [] → r.backups = []) ∧
      (plan.changes ≠ [] → ∃ sequence, service.freeSequence s client now = some sequence ∧
        r.backups = plan.changes.map (recordOf s ⟨now, sequence⟩) ∧
        service.Applied faulty client plan.changes backupRetention ⟨now, sequence⟩ s s') := by
  have hmeets : Faulty.Meets faulty _ _
      (service.applyPlan client plan.files backupRetention expected now) s := meets_applyPlan
  simp only [applied, Prod.mk.injEq] at h
  rw [← h.2]
  exact (Faulty.run_of_meets hmeets hschedule).1 r h.1

theorem of_applied_eq_error {schedule : Schedule} (faulty : Bool)
    (hschedule : faulty = false → schedule = [])
    (h : service.applied client plan backupRetention expected now s schedule = (.error e, s')) :
    (e.reportsIncompleteRollback = true ∨ s'.managed = s.managed) ∧
      (faulty = true ∨ ¬ service.Appliable s client plan.changes expected now) := by
  have hmeets : Faulty.Meets faulty _ _
      (service.applyPlan client plan.files backupRetention expected now) s := meets_applyPlan
  simp only [applied, Prod.mk.injEq] at h
  rw [← h.2]
  exact (Faulty.run_of_meets hmeets hschedule).2 e h.1

variable {selector : Selector} {revisions : Option (ClientConfigFileRole → Option String)}

theorem of_restored_eq_ok
    (h : service.restored client selector revisions now s schedule = (.ok r, s')) :
    ∃ groupId sourceBackups,
      service.selectBackups client (service.listing s client) selector =
        .ok (groupId, sourceBackups) ∧
      ∀ role, s'.managed role = if role ∈ service.restoreFiles client sourceBackups then
        sourceContent s sourceBackups role else s.managed role := by
  have hmeets : Faulty.Meets true _ _
      (service.restoreBackupSet client selector revisions now) s := meets_restoreBackupSet
  simp only [restored, Prod.mk.injEq] at h
  rw [← h.2]
  exact (Faulty.run_of_meets hmeets (by simp)).1 r h.1

theorem of_restored_eq_error (faulty : Bool) (hschedule : faulty = false → schedule = [])
    (h : service.restored client selector revisions now s schedule = (.error e, s')) :
    service.Unrestored faulty s client selector revisions now e s' := by
  have hmeets : Faulty.Meets faulty _ _
      (service.restoreBackupSet client selector revisions now) s := meets_restoreBackupSet
  simp only [restored, Prod.mk.injEq] at h
  rw [← h.2]
  exact (Faulty.run_of_meets hmeets hschedule).2 e h.1

/-- A set of which nothing is left is not found. -/
theorem selectBackups_of_not_occupied {id : GroupId}
    (h : service.occupied s client id = false) :
    ∃ e, service.selectBackups client (service.listing s client) (.groupId id) = .error e := by
  have hnone : (service.listing s client).filter (·.groupId = id) = [] := by
    simp only [List.filter_eq_nil_iff, decide_eq_true_eq]
    intro backup hbackup hid
    obtain ⟨hrole, content, hcontent⟩ := mem_listing.mp hbackup
    rw [backups_eq_none_of_not_occupied h hrole hid] at hcontent
    cases hcontent
  rw [selectBackups]
  split
  · exact ⟨_, rfl⟩
  · simp only [selectGroup, if_pos hnone]
    exact ⟨_, rfl⟩

theorem isSome_freeSequence_of_not_occupied {createdAt sequence : Nat}
    (hsequence : sequence ≤ maximumBackupSequence)
    (h : service.occupied s client ⟨createdAt, sequence⟩ = false) :
    (service.freeSequence s client createdAt).isSome := by
  rw [freeSequence, List.find?_isSome]
  exact ⟨sequence, List.mem_range.mpr (by omega), by simp [h]⟩

theorem le_of_freeSequence {createdAt sequence : Nat}
    (h : service.freeSequence s client createdAt = some sequence) :
    sequence ≤ maximumBackupSequence := by
  have := List.mem_range.mp (List.mem_of_find?_eq_some h)
  omega

/-- If the prune drops the set a change has made, the change cannot be taken back. -/
theorem keepsNewGroup_of_allOrNothing
    (h : service.AllOrNothing client plan backupRetention expected now s) :
    service.KeepsNewGroup client plan backupRetention expected now s := by
  intro hne hexpected sequence hfree
  by_contra hdrops
  -- nothing fails in this run
  rcases hrun : service.applied client plan backupRetention expected now s [] with ⟨result, s₁⟩
  cases result with
  | error e =>
      obtain ⟨-, hfaulty | hnot⟩ := of_applied_eq_error false (fun _ => rfl) hrun
      · cases hfaulty
      · exact hnot ⟨hexpected, .inr (by simp [hfree])⟩
  | ok r =>
      obtain ⟨-, -, happlied⟩ := of_applied_eq_ok false (fun _ => rfl) hrun
      obtain ⟨sequence', hfree', hbackups, happlied⟩ := happlied hne
      obtain rfl : sequence' = sequence := by simpa [hfree] using hfree'.symm
      obtain ⟨role, hrole⟩ := List.exists_mem_of_ne_nil _ hne
      have hbackup : recordOf s ⟨now, sequence'⟩ role ∈ r.backups := by
        rw [hbackups]
        exact List.mem_map_of_mem hrole
      have hgone := happlied.dropped rfl hdrops
      obtain ⟨r', s', hrestored⟩ := h.restore_returns [] r s₁ hrun _ hbackup none now
        (fun expected hexpected => by cases hexpected)
        (isSome_freeSequence_of_not_occupied (le_of_freeSequence hfree) hgone)
      obtain ⟨id, sourceBackups, hselect, -⟩ := of_restored_eq_ok hrestored
      obtain ⟨e, he⟩ := selectBackups_of_not_occupied hgone
      change service.selectBackups client _ (.groupId ⟨now, sequence'⟩) = _ at hselect
      rw [he] at hselect
      cases hselect

/-- The set that a change returns is there as a whole, if the prune keeps it. -/
theorem holds_of_applied
    (hkeeps : service.KeepsNewGroup client plan backupRetention expected now s)
    (h : service.applied client plan backupRetention expected now s schedule = (.ok r, s₁))
    (hbackup : backup ∈ r.backups) :
    plan.changes ≠ [] ∧ service.Holds client backup.groupId plan.changes s s₁ := by
  obtain ⟨hexpected, hnone, happlied⟩ := of_applied_eq_ok true (by simp) h
  have hne : plan.changes ≠ [] := by
    intro hnil
    rw [hnone hnil] at hbackup
    cases hbackup
  obtain ⟨sequence, hfree, hbackups, happlied⟩ := happlied hne
  rw [hbackups] at hbackup
  obtain ⟨role, -, rfl⟩ := List.mem_map.mp hbackup
  exact ⟨hne, happlied.kept (hkeeps hne hexpected sequence hfree)⟩

/-- **A change can be taken back, whatever fails, exactly when the prune that follows it
keeps the set it has made.** -/
theorem allOrNothing_iff_keepsNewGroup (service : ClientConfigService) (client : SupportedClient)
    (plan : ClientConfigPlan service client) (backupRetention : Option Int)
    (expected : ClientConfigFileRole → Option String) (now : Nat) (s : Files) :
    service.AllOrNothing client plan backupRetention expected now s ↔
      service.KeepsNewGroup client plan backupRetention expected now s := by
  have hroles : ∀ role ∈ plan.changes, role ∈ service.clientFiles client :=
    fun _ h => plan.mem_clientFiles_of_mem_changes h
  refine ⟨keepsNewGroup_of_allOrNothing, fun hkeeps => ⟨?_, ?_, ?_, ?_⟩⟩
  · intro schedule e s' h hcomplete
    have := (of_applied_eq_error true (by simp) h).1
    simpa [hcomplete] using this
  · intro selector revisions now' s₁ schedule e s' h hcomplete
    have := (of_restored_eq_error true (by simp) h).1
    simpa [hcomplete] using this
  · intro schedule r s₁ h backup hbackup revisions now' schedule' r' s' h' role hrole
    obtain ⟨hne, hholds⟩ := holds_of_applied hkeeps h hbackup
    obtain ⟨id, sourceBackups, hselect, hmanaged⟩ := of_restored_eq_ok h'
    rw [hholds.select hne plan.nodup_changes hroles] at hselect
    cases hselect
    rw [hmanaged, if_pos ((mem_restoreFiles (hholds.perm plan.nodup_changes hroles) hroles).mpr hrole)]
    exact hholds.sourceContent_eq plan.nodup_changes hroles hrole
  · intro schedule r s₁ h backup hbackup revisions now' hrevisions hfree
    obtain ⟨hne, hholds⟩ := holds_of_applied hkeeps h hbackup
    have haccepts : service.Accepts s₁ client (.groupId backup.groupId) revisions now' := by
      refine ⟨_, _, hholds.select hne plan.nodup_changes hroles,
        hholds.restorable hne plan.nodup_changes hroles, ?_, hfree⟩
      intro expected' hexpected' role hrole
      have hperm := hholds.perm plan.nodup_changes hroles
      exact hrevisions expected' hexpected' role ((mem_restoreFiles hperm hroles).mp hrole)
    rcases hrun : service.restored client (.groupId backup.groupId) revisions now' s₁ [] with
      ⟨result, s'⟩
    cases result with
    | ok r' => exact ⟨r', s', rfl⟩
    | error e =>
        obtain ⟨-, hfaulty | hnot⟩ := of_restored_eq_error false (fun _ => rfl) hrun
        · cases hfaulty
        · exact absurd haccepts hnot

end Runs

/-! ## A clock that went back -/

def sampleService : ClientConfigService where
  claudeMcp := true
  encode content := content.toList.map fun c => c.toNat.toUInt8
  decode bytes := String.ofList (bytes.map fun b => Char.ofNat b.toNat)
  revisionOf role content := role.name ++ content.getD "missing"
  collation backup := backup.role.name.length
  readCut _ _ := none

/-- The client's environment file, and a backup of it that was made at a later instant. -/
def sampleFiles : Files where
  managed role := if role = .geminiEnv then some [65] else none
  backups := JsMap.empty.set ⟨.geminiEnv, true, ⟨2000, 0⟩⟩ [65]
  manifests _ _ := none

def samplePlan : ClientConfigPlan sampleService .gemini where
  files := [⟨.geminiEnv, "B", true⟩]
  nodup := by decide
  managed := by decide

/-- What the change at the instant 1000 returns, and what the restore of it then does. -/
def sampleRun : Bool :=
  match sampleService.applied .gemini samplePlan (some 1)
      (fun role => if role = .geminiEnv then some "A" else none) 1000 sampleFiles [] with
  | (.error _, _) => false
  | (.ok r, s₁) =>
    decide (r.backups = [⟨.geminiEnv, true, ⟨1000, 0⟩⟩]) &&
      (sampleService.freeSequence s₁ .gemini 3000).isSome &&
      match sampleService.restored .gemini (.groupId ⟨1000, 0⟩) none 3000 s₁ [] with
      | (.error _, _) => true
      | (.ok _, _) => false

/-- With one set to keep, the change drops the set it has made. -/
theorem change_drops_its_own_backup :
    ¬ sampleService.AllOrNothing .gemini samplePlan (some 1)
      (fun role => if role = .geminiEnv then some "A" else none) 1000 sampleFiles := by
  intro h
  have hrun : sampleRun = true := by decide +kernel
  unfold sampleRun at hrun
  split at hrun
  · cases hrun
  · next r s₁ happlied =>
    simp only [Bool.and_eq_true, decide_eq_true_eq] at hrun
    obtain ⟨⟨hbackups, hfree⟩, hrestore⟩ := hrun
    obtain ⟨r', s', hrestored⟩ := h.restore_returns [] r s₁ happlied ⟨.geminiEnv, true, ⟨1000, 0⟩⟩
      (by simp [hbackups]) none 3000 (fun _ hexpected => by cases hexpected) hfree
    rw [hrestored] at hrestore
    cases hrestore

end ClientConfigService

end StonePlus.ClientConfig
