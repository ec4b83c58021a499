import StonePlus.ClientConfig.Service

/-!
# StonePlus.ClientConfig.Capture

What a backup set holds once it is made: the files as they were, under a name that nothing
else bears.  `Captured` says so, and `meets_backupFiles` is the rule for making one; making
one never touches a managed file, whatever fails.
-/

namespace StonePlus.ClientConfig

open Lib

section Rules

variable {faulty : Bool} {s : Files}

@[simp] theorem meets_check {post : Unit → Files → Prop} {fail : Failure → Files → Prop}
    {r : Except Failure Unit} :
    Faulty.Meets faulty post fail (check r) s ↔
      (match r with
        | .ok () => post () s
        | .error e => fail e s) := by
  cases r <;> exact Iff.rfl

end Rules

namespace ClientConfigService

variable {service : ClientConfigService} {faulty : Bool} {s : Files}

/-- What a set records of a file. -/
def recordOf (s : Files) (groupId : GroupId) (role : ClientConfigFileRole) : BackupRecord :=
  ⟨role, (s.managed role).isSome, groupId⟩

/-- `s'` is `s` with a new backup set of `roles`. -/
structure Captured (client : SupportedClient) (groupId : GroupId)
    (roles : List ClientConfigFileRole) (s s' : Files) : Prop where
  managed : s'.managed = s.managed
  backups : ∀ backup, s'.backups.get? backup =
    if backup ∈ roles.map (recordOf s groupId) then some ((s.managed backup.role).getD [])
    else s.backups.get? backup
  manifests : s'.manifests = (s.setManifest client groupId
    (some (some (manifestOf client groupId (roles.map (recordOf s groupId)))))).manifests

variable {client : SupportedClient}

theorem client_of_mem_clientFiles (h : role ∈ service.clientFiles client) :
    role.client = client := by
  cases client <;> simp [clientFiles] at h <;> grind [ClientConfigFileRole.client]

theorem nodup_clientFiles (client : SupportedClient) : (service.clientFiles client).Nodup := by
  cases client with
  | claude =>
      simp only [clientFiles]
      split <;> decide
  | codex | gemini | grokbuild | deepseekHarness => simp [clientFiles]

/-- Removing what was created leaves the managed files alone. -/
theorem meets_discard_throw {α : Type} {post : α → Files → Prop} {fail : Failure → Files → Prop}
    {created : List BackupRecord} {error : Failure}
    (hfail : ∀ s' : Files, s'.managed = s.managed → fail error s') :
    Faulty.Meets faulty post fail (do
      discard created
      .throw error) s := by
  rw [Faulty.meets_bind]
  refine (Faulty.meets_forEach (fun _ s' => s'.managed = s.managed) ?_ rfl).mono
    (fun _ s' h => hfail s' h) fun _ _ h => h
  intro done backup rest s' _ hs'
  simp [removeBackup, hs']

theorem meets_captureFile {post : Unit → Files → Prop}
    (hexisted : backup.existed = (s.managed backup.role).isSome)
    (hfree : s.backups.get? backup = none)
    (hpost : post () (s.setBackup backup ((s.managed backup.role).getD [])))
    (hfail : faulty = true → ∀ s' : Files, s'.managed = s.managed → fail (.system .eio) s') :
    Faulty.Meets faulty post fail (captureFile backup) s := by
  unfold captureFile
  cases hcontent : s.managed backup.role with
  | some content =>
      rw [hcontent] at hexisted hpost
      rw [if_pos (by simpa using hexisted)]
      exact meets_copyExclusive hcontent hfree hpost hfail
  | none =>
      rw [hcontent] at hexisted hpost
      rw [if_neg (by simp [hexisted])]
      exact meets_createExclusiveTombstone hfree hpost hfail

/-- Captures one file after another, each under a name that is free. -/
theorem meets_captureFiles {groupId : GroupId} {roles : List ClientConfigFileRole}
    (hmanaged : s.managed = s₀.managed) (hnodup : roles.Nodup)
    (hfree : ∀ role ∈ roles, s.backups.get? (recordOf s₀ groupId role) = none)
    (hpost : ∀ s' : Files, s'.managed = s₀.managed → s'.manifests = s.manifests →
      (∀ backup, s'.backups.get? backup =
        if backup ∈ roles.map (recordOf s₀ groupId) then some ((s₀.managed backup.role).getD [])
        else s.backups.get? backup) →
      post (some (created ++ roles.map (recordOf s₀ groupId))) s')
    (hfail : faulty = true → ∀ s' : Files, s'.managed = s₀.managed → fail (.system .eio) s') :
    Faulty.Meets faulty post fail
      (captureFiles groupId (roles.map fun role => (role, (s₀.managed role).isSome)) created) s := by
  induction roles generalizing s created with
  | nil =>
      simp only [List.map_nil, captureFiles, Faulty.meets_pure]
      simpa using hpost s hmanaged rfl (by simp)
  | cons role roles ih =>
      have hfree' : s.backups.get? ⟨role, (s₀.managed role).isSome, groupId⟩ = none :=
        hfree role List.mem_cons_self
      rw [List.nodup_cons] at hnodup
      simp only [List.map_cons, captureFiles]
      rw [Faulty.meets_bind, Faulty.meets_orElse, Faulty.meets_bind]
      refine meets_captureFile (by rw [hmanaged]) hfree' ?_ ?_
      · rw [Faulty.meets_pure, if_neg Bool.false_ne_true, Faulty.meets_bind, Faulty.meets_orElse,
          meets_io]
        refine ⟨ih (by simpa using hmanaged) hnodup.2 ?_ ?_, fun hfaulty => ?_⟩
        · -- the other names are still free
          intro role' hrole'
          have hne : recordOf s₀ groupId role' ≠ ⟨role, (s₀.managed role).isSome, groupId⟩ := by
            intro h
            have : role' = role := congrArg BackupRecord.role h
            exact hnodup.1 (this ▸ hrole')
          simpa [Files.setBackup, JsMap.get?_set, hne] using
            hfree role' (List.mem_cons_of_mem _ hrole')
        · intro s' hmanaged' hmanifests hbackups
          rw [List.append_assoc]
          refine hpost s' hmanaged' (by simpa using hmanifests) fun backup => ?_
          rw [hbackups]
          by_cases hbackup : backup = ⟨role, (s₀.managed role).isSome, groupId⟩
          · simp [hbackup, Files.setBackup, recordOf, hmanaged]
          · simp [hbackup, Files.setBackup, JsMap.get?_set, recordOf]
        · exact meets_discard_throw fun s' hs' => hfail hfaulty s' (by simpa [hmanaged] using hs')
      · intro hfaulty s' hs'
        rw [if_neg (by decide)]
        exact meets_discard_throw fun s'' hs'' =>
          hfail hfaulty s'' (hs''.trans (hs'.trans hmanaged))

/-- A set is made whole under a name that is free. -/
theorem meets_captureGroup {fail : Failure → Files → Prop} (hnodup : roles.Nodup)
    (hfree : ∀ role ∈ roles, s.backups.get? (recordOf s groupId role) = none)
    (hmanifest : s.manifests client groupId = none)
    (hpost : ∀ s', Captured client groupId roles s s' →
      post (some (roles.map (recordOf s groupId))) s')
    (hfail : faulty = true → ∀ s' : Files, s'.managed = s.managed → fail (.system .eio) s') :
    Faulty.Meets faulty post fail
      (service.captureGroup client groupId
        (roles.map fun role => (role, (s.managed role).isSome))) s := by
  rw [captureGroup, Faulty.meets_bind]
  refine meets_captureFiles rfl hnodup hfree (fun s' hmanaged hmanifests hbackups => ?_) hfail
  simp only [List.nil_append]
  rw [Faulty.meets_bind, Faulty.meets_orElse, Faulty.meets_bind]
  refine meets_createExclusiveManifest ?_ ?_ ?_
  · simpa [manifestOf, hmanifests] using hmanifest
  · rw [Faulty.meets_pure, if_neg Bool.false_ne_true, Faulty.meets_pure]
    refine hpost _ ⟨by simpa using hmanaged, by simpa using hbackups, ?_⟩
    simp [Files.setManifest, hmanifests, manifestOf]
  · intro hfaulty s'' hs''
    rw [if_neg (by decide)]
    exact meets_discard_throw fun s₃ hs₃ => hfail hfaulty s₃ (hs₃.trans (hs''.trans hmanaged))

/-- The first sequence under which no file of a set is there. -/
def freeSequence (service : ClientConfigService) (s : Files) (client : SupportedClient)
    (createdAt : Nat) : Option Nat :=
  (List.range (maximumBackupSequence + 1)).find? fun sequence =>
    !service.occupied s client ⟨createdAt, sequence⟩

theorem backups_eq_none_of_not_occupied (h : service.occupied s client groupId = false)
    (hrole : backup.role ∈ service.clientFiles client) (hgroup : backup.groupId = groupId) :
    s.backups.get? backup = none := by
  obtain ⟨role, existed, _⟩ := backup
  subst hgroup
  simp only [occupied, Bool.or_eq_false_iff, List.any_eq_false, Bool.not_eq_true] at h
  have hrole' := h.1 role hrole
  simp only [JsMap.has, Option.isSome_eq_false_iff, Option.isNone_iff_eq_none] at hrole'
  cases existed
  · exact hrole'.2
  · exact hrole'.1

theorem manifests_eq_none_of_not_occupied (h : service.occupied s client groupId = false) :
    s.manifests client groupId = none := by
  simp only [occupied, Bool.or_eq_false_iff] at h
  simpa using h.2

theorem meets_backupAtFreeSequence (hnodup : roles.Nodup)
    (hroles : ∀ role ∈ roles, role ∈ service.clientFiles client)
    (hpost : ∀ sequence s',
      sequences.find? (fun q => !service.occupied s client ⟨createdAt, q⟩) = some sequence →
      Captured client ⟨createdAt, sequence⟩ roles s s' →
      post (roles.map (recordOf s ⟨createdAt, sequence⟩)) s')
    (hfail : faulty = true → ∀ s' : Files, s'.managed = s.managed → fail (.system .eio) s')
    (hfull : sequences.find? (fun q => !service.occupied s client ⟨createdAt, q⟩) = none →
      fail (.error ("Unable to create a unique backup set for " ++ client.name ++ ".")) s) :
    Faulty.Meets faulty post fail
      (service.backupAtFreeSequence client createdAt
        (roles.map fun role => (role, (s.managed role).isSome)) sequences) s := by
  induction sequences with
  | nil => exact hfull rfl
  | cons sequence rest ih =>
      rw [backupAtFreeSequence, Faulty.meets_bind, meets_io]
      refine ⟨?_, fun hfaulty => hfail hfaulty s rfl⟩
      rw [Faulty.meets_bind, Faulty.meets_get]
      cases hoccupied : service.occupied s client ⟨createdAt, sequence⟩ with
      | true =>
          simp only [List.find?_cons, hoccupied, Bool.not_true] at hpost hfull
          exact ih hpost hfull
      | false =>
          simp only [List.find?_cons, hoccupied, Bool.not_false] at hpost
          rw [if_neg Bool.false_ne_true, Faulty.meets_bind]
          refine meets_captureGroup hnodup ?_ (manifests_eq_none_of_not_occupied hoccupied) ?_ hfail
          · exact fun role hrole => backups_eq_none_of_not_occupied hoccupied (hroles role hrole) rfl
          · exact fun s' hs' => hpost sequence s' rfl hs'

/-- **A backup set is made whole or not at all**: it records each file as it is, at the first
free sequence of its instant; and no managed file changes, whatever fails. -/
theorem meets_backupFiles (hnodup : roles.Nodup)
    (hroles : ∀ role ∈ roles, role ∈ service.clientFiles client) (hempty : roles = [] → post [] s)
    (hpost : roles ≠ [] → ∀ sequence s', service.freeSequence s client now = some sequence →
      Captured client ⟨now, sequence⟩ roles s s' →
      post (roles.map (recordOf s ⟨now, sequence⟩)) s')
    (hfail : faulty = true → ∀ s' : Files, s'.managed = s.managed → fail (.system .eio) s')
    (hfull : roles ≠ [] → service.freeSequence s client now = none →
      fail (.error ("Unable to create a unique backup set for " ++ client.name ++ ".")) s) :
    Faulty.Meets faulty post fail (service.backupFiles roles now true) s := by
  rw [backupFiles, Faulty.meets_bind, meets_io]
  refine ⟨?_, fun hfaulty => hfail hfaulty s rfl⟩
  rw [Faulty.meets_bind, Faulty.meets_get]
  cases roles with
  | nil => exact hempty rfl
  | cons role roles =>
      have hclient : ∀ role' ∈ role :: roles, role'.client = client :=
        fun role' hrole' => client_of_mem_clientFiles (hroles role' hrole')
      have hany : ¬ (((role :: roles).map fun role => (role, (s.managed role).isSome)).any
          (fun file => decide (file.1.client ≠ role.client)) = true) := by
        simp only [List.any_eq_true, List.mem_map, not_exists, not_and]
        rintro _ ⟨role', hrole', rfl⟩
        simp [hclient role' hrole', hclient role List.mem_cons_self]
      simp only [Bool.not_true, Bool.false_and, Bool.false_eq_true, if_false]
      simp only [List.map_cons] at hany ⊢
      rw [if_neg hany, hclient role List.mem_cons_self]
      unfold freeSequence at hpost hfull
      generalize List.range (maximumBackupSequence + 1) = sequences at hpost hfull ⊢
      exact meets_backupAtFreeSequence hnodup hroles (hpost (List.cons_ne_nil _ _)) hfail
        (hfull (List.cons_ne_nil _ _))

end ClientConfigService

end StonePlus.ClientConfig
