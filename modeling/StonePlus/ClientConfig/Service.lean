import Mathlib.Data.List.Sort
import StonePlus.ClientConfig.Files

/-!
# StonePlus.ClientConfig.Service

Changing a client's configuration and restoring it: `client-config/service.ts`.

A change first backs up every file it is about to write, as one set; it then writes them one
by one, and if that fails it writes back what it had.  Reads that are issued together are one
operation here, since any of them failing fails them all.
-/

namespace StonePlus.ClientConfig

open Lib

/-- What a service is made of: where its files are, and what it leaves to its runtime. -/
structure ClientConfigService where
  /-- `paths.claude.mcp`, which a custom directory does without. -/
  claudeMcp : Bool
  /-- `Buffer.from(content, 'utf8')`. -/
  encode : String → Bytes
  /-- `toString('utf8')`. -/
  decode : Bytes → String
  revisionOf : ClientConfigFileRole → Option String → String
  /-- Where `localeCompare` puts the path of a backup. -/
  collation : BackupRecord → Nat
  /-- What the first bytes of a manifest's text read as. -/
  readCut : BackupSetManifest → Nat → Option BackupSetManifest

structure PlannedFileMutation where
  role : ClientConfigFileRole
  content : String
  changed : Bool
deriving DecidableEq, Repr

/-- A backup set, as it is chosen: by its id, or by the instant it was made at. -/
inductive Selector where
  | groupId (id : GroupId)
  | createdAt (createdAt : Nat)
deriving DecidableEq, Repr

structure ApplyClientConfigResult where
  client : SupportedClient
  changedFiles : List ClientConfigFileRole
  postWriteRevisions : ClientConfigFileRole → Option String
  backups : List BackupRecord
  removedBackups : List BackupRecord
  retentionWarning : Option String

structure RestoreBackupSetResult where
  client : SupportedClient
  groupId : GroupId
  createdAt : Nat
  restoredFiles : List ClientConfigFileRole
  deletedFiles : List ClientConfigFileRole
  sourceBackups : List BackupRecord
  safetyBackupSet : List BackupRecord

def SupportedClient.name : SupportedClient → String
  | .claude => "claude"
  | .codex => "codex"
  | .gemini => "gemini"
  | .grokbuild => "grokbuild"
  | .deepseekHarness => "deepseek-harness"

def ClientConfigFileRole.name : ClientConfigFileRole → String
  | .claudeSettings => "claude-settings"
  | .claudeMcp => "claude-mcp"
  | .codexConfig => "codex-config"
  | .codexAuth => "codex-auth"
  | .codexModelCatalog => "codex-model-catalog"
  | .codexAgents => "codex-agents"
  | .codexRules => "codex-rules"
  | .geminiSettings => "gemini-settings"
  | .geminiEnv => "gemini-env"
  | .grokConfig => "grok-config"
  | .deepseekHarnessEnv => "deepseek-harness-env"

def GroupId.text (id : GroupId) : String := toString id.createdAt ++ ":" ++ toString id.sequence

def maximumBackupSequence : Nat := 999

/-! ## Listing -/

/-- The order of `listBackups`: by instant, by sequence, then by path, the later first. -/
def BackupRecord.listedBefore (collation : BackupRecord → Nat) (left right : BackupRecord) : Prop :=
  right.groupId.createdAt < left.groupId.createdAt ∨
    right.groupId.createdAt = left.groupId.createdAt ∧
      (right.groupId.sequence < left.groupId.sequence ∨
        right.groupId.sequence = left.groupId.sequence ∧ collation right ≤ collation left)

instance (collation : BackupRecord → Nat) : DecidableRel (BackupRecord.listedBefore collation) :=
  fun left right => by
    unfold BackupRecord.listedBefore
    infer_instance

/-- The ids of the groups of a list of backups, in the order of their first members. -/
def groupIds : List BackupRecord → List GroupId
  | [] => []
  | backup :: rest => backup.groupId :: (groupIds rest).filter (· ≠ backup.groupId)

/-- The first role that a list holds twice, as the scan that keeps the roles seen finds it. -/
def duplicateRole (seen : List ClientConfigFileRole) :
    List ClientConfigFileRole → Option ClientConfigFileRole
  | [] => none
  | role :: rest => if role ∈ seen then some role else duplicateRole (role :: seen) rest

/-- The backup of a file among some. -/
def backupOf (backups : List BackupRecord) (role : ClientConfigFileRole) : Option BackupRecord :=
  backups.find? (·.role = role)

/-- A check that throws. -/
def check : Except Failure Unit → FileOp Unit
  | .ok () => .finish ()
  | .error e => .throw e

namespace ClientConfigService

variable (service : ClientConfigService)

def clientFiles : SupportedClient → List ClientConfigFileRole
  | .claude => .claudeSettings :: if service.claudeMcp then [.claudeMcp] else []
  | .codex => [.codexConfig, .codexAuth, .codexModelCatalog, .codexAgents, .codexRules]
  | .gemini => [.geminiSettings, .geminiEnv]
  | .grokbuild => [.grokConfig]
  | .deepseekHarness => [.deepseekHarnessEnv]

def backupsForFile (s : Files) (role : ClientConfigFileRole) : List BackupRecord :=
  s.backups.keys.filter (·.role = role)

/-- The backups of a client, the latest first. -/
def listing (s : Files) (client : SupportedClient) : List BackupRecord :=
  ((service.clientFiles client).flatMap (backupsForFile s)).insertionSort
    (BackupRecord.listedBefore service.collation)

def listBackups (client : SupportedClient) : FileOp (List BackupRecord) := do
  io -- readdir and stat
  let s ← Faulty.get
  return service.listing s client

/-! ## Backing up -/

/-- Whether some file of a set of this name is there. -/
def occupied (s : Files) (client : SupportedClient) (groupId : GroupId) : Bool :=
  (service.clientFiles client).any (fun role =>
    s.backups.has ⟨role, true, groupId⟩ || s.backups.has ⟨role, false, groupId⟩) ||
  (s.manifests client groupId).isSome

/-- Remove what was created of a set. -/
def discard (createdPaths : List BackupRecord) : FileOp Unit :=
  Faulty.forEach createdPaths fun backup => (removeBackup backup true).ignoreErrors

def captureFile (backup : BackupRecord) : FileOp Unit :=
  if backup.existed then copyExclusive backup.role backup else createExclusiveTombstone backup

/-- Capture the files one by one; `none` if a name was taken meanwhile. -/
def captureFiles (groupId : GroupId) : List (ClientConfigFileRole × Bool) → List BackupRecord →
    FileOp (Option (List BackupRecord))
  | [], created => return some created
  | (role, existed) :: rest, created => do
    let backup : BackupRecord := ⟨role, existed, groupId⟩
    let collided ← Faulty.orElse
      (do
        captureFile backup
        return false)
      fun error => do
        if error = .system .eexist then
          return true
        else
          discard created
          .throw error
    if collided then
      discard created
      return none
    else
      io.orElse fun error => do -- stat of the backup
        discard (created ++ [backup])
        .throw error
      captureFiles groupId rest (created ++ [backup])

def manifestOf (client : SupportedClient) (groupId : GroupId) (records : List BackupRecord) :
    BackupSetManifest :=
  { client, groupId, createdAt := groupId.createdAt
    members := records.map fun record => ⟨record.role, record.existed, record⟩ }

/-- Capture the files under a free name, with the manifest of the set. -/
def captureGroup (client : SupportedClient) (groupId : GroupId)
    (files : List (ClientConfigFileRole × Bool)) : FileOp (Option (List BackupRecord)) := do
  match ← captureFiles groupId files [] with
  | none => return none
  | some records =>
    let collided ← Faulty.orElse
      (do
        createExclusiveManifest service.readCut (manifestOf client groupId records)
        return false)
      fun error => do
        if error = .system .eexist then
          return true
        else
          discard records
          .throw error
    if collided then
      discard records
      return none
    else
      return some records

/-- Try one sequence after another. -/
def backupAtFreeSequence (client : SupportedClient) (createdAt : Nat)
    (files : List (ClientConfigFileRole × Bool)) : List Nat → FileOp (List BackupRecord)
  | [] => .throw (.error ("Unable to create a unique backup set for " ++ client.name ++ "."))
  | sequence :: rest => do
    io -- stat of every name of the set
    let s ← Faulty.get
    if service.occupied s client ⟨createdAt, sequence⟩ then
      backupAtFreeSequence client createdAt files rest
    else
      match ← service.captureGroup client ⟨createdAt, sequence⟩ files with
      | some records => return records
      | none => backupAtFreeSequence client createdAt files rest

def backupFiles (requestedFiles : List ClientConfigFileRole) (operationDate : Nat)
    (includeAllMissing : Bool) : FileOp (List BackupRecord) := do
  io -- stat of every file
  let s ← Faulty.get
  let filesToCapture := requestedFiles.map fun role => (role, (s.managed role).isSome)
  if !includeAllMissing && !filesToCapture.any (·.2) then
    return []
  else
    match filesToCapture with
    | [] => return []
    | first :: _ =>
      if filesToCapture.any (·.1.client ≠ first.1.client) then
        .throw (.error
          "A backup set cannot contain configuration files from multiple clients.")
      else
        service.backupAtFreeSequence first.1.client operationDate filesToCapture
          (List.range (maximumBackupSequence + 1))

/-! ## Writing and writing back -/

/-- Throw unless a file is still as it was backed up. -/
def assertMatchesBackup (role : ClientConfigFileRole) (backup : Option BackupRecord) :
    FileOp Unit := do
  let changed : Failure :=
    .validation "Client configuration changed while Stone+ was preparing the update."
  io -- readFile
  let current := (← Faulty.get).managed role
  match backup with
  | none => Faulty.ensure (current = none) changed
  | some backup =>
    if backup.existed then
      io -- readFile of the backup
      match (← Faulty.get).backups.get? backup with
      | none => .throw (.system .enoent)
      | some expected => Faulty.ensure (current = some expected) changed
    else
      Faulty.ensure (current = none) changed

/-- Write a file back, unless it is not what was written; `true` if that failed. `expected`
is what was written, `none` for a file that is not planned. -/
def rollbackFile (backups : List BackupRecord)
    (expected : ClientConfigFileRole → Option (Option Bytes)) (role : ClientConfigFileRole) :
    FileOp Bool :=
  Faulty.orElse
    (do
      io -- readFile
      let current := (← Faulty.get).managed role
      if expected role ≠ some current then
        return true
      else
        match (backupOf backups role).filter (·.existed) with
        | some backup =>
          io -- readFile of the backup
          match (← Faulty.get).backups.get? backup with
          | none => .throw (.system .enoent)
          | some content => do
            atomicWriteFile role content
            return false
        | none => do
          removeFile role
          return false)
    fun _ => return true

/-- Write back files in turn; the files that were not. -/
def rollbackFiles (backups : List BackupRecord)
    (expected : ClientConfigFileRole → Option (Option Bytes)) :
    List ClientConfigFileRole → List ClientConfigFileRole → FileOp (List ClientConfigFileRole)
  | [], failures => return failures
  | role :: rest, failures => do
    let failed ← rollbackFile backups expected role
    rollbackFiles backups expected rest (if failed then failures ++ [role] else failures)

/-- The last file written is written back first. -/
def rollback (written : List ClientConfigFileRole) (backups : List BackupRecord)
    (expected : ClientConfigFileRole → Option (Option Bytes)) :
    FileOp (List ClientConfigFileRole) :=
  rollbackFiles backups expected written.reverse []

/-- Roll back and throw. -/
def rollbackAndThrow (backups : List BackupRecord)
    (expected : ClientConfigFileRole → Option (Option Bytes))
    (incomplete : Failure → List ClientConfigFileRole → Failure)
    (written : List ClientConfigFileRole) (error : Failure) : FileOp Unit := do
  let rollbackFailures ← rollback written backups expected
  if rollbackFailures = [] then .throw error else .throw (incomplete error rollbackFailures)

/-- Write files in turn.  A file counts as written before it is verified. -/
def writeEach (write verify : ClientConfigFileRole → FileOp Unit)
    (failed : List ClientConfigFileRole → Failure → FileOp Unit) :
    List ClientConfigFileRole → List ClientConfigFileRole → FileOp Unit
  | [], _ => .finish ()
  | role :: rest, written => do
    (write role).orElse (failed written)
    (verify role).orElse (failed (written ++ [role]))
    writeEach write verify failed rest (written ++ [role])

/-! ## Pruning -/

def validateBackupRetention (retention : Int) : Except Failure Unit :=
  if retention < 1 ∨ 100 < retention then
    .error (.validation "Backup retention must be between 1 and 100 backup groups")
  else
    .ok ()

/-- Snapshots before tombstones. -/
def deletionOrder (group : List BackupRecord) : List BackupRecord :=
  group.filter (·.existed) ++ group.filter (!·.existed)

def removeGroup (client : SupportedClient) (backups : List BackupRecord) (groupId : GroupId) :
    FileOp Unit := do
  removeManifest client groupId
  Faulty.forEach (deletionOrder (backups.filter (·.groupId = groupId))) fun backup =>
    removeBackup backup false

/-- Remove every group but the latest `retention`; a retention that is not an integer is
refused as one out of range is. -/
def pruneBackups (client : SupportedClient) (retention : Int) : FileOp (List BackupRecord) := do
  check (validateBackupRetention retention)
  let backups ← service.listBackups client
  let dropped := (groupIds backups).drop retention.toNat
  Faulty.forEach dropped (removeGroup client backups)
  return dropped.flatMap fun groupId => deletionOrder (backups.filter (·.groupId = groupId))

/-! ## Applying a plan -/

def assertExpectedFiles (expected : ClientConfigFileRole → Option String)
    (files : List PlannedFileMutation) : FileOp Unit :=
  Faulty.forEach files fun file => do
    io -- readFile
    let current := ((← Faulty.get).managed file.role).map service.decode
    Faulty.ensure (current = expected file.role)
      (.validation "Client configuration changed outside Stone+. Reload it before saving.")

/-- What a plan puts into a file. -/
def plannedContent (files : List PlannedFileMutation) (role : ClientConfigFileRole) :
    Option Bytes :=
  (files.find? (·.role = role)).map fun file => service.encode file.content

/-- Write a planned file, if it is still as it was backed up. -/
def writePlanned (files : List PlannedFileMutation) (backups : List BackupRecord)
    (role : ClientConfigFileRole) : FileOp Unit := do
  assertMatchesBackup role (backupOf backups role)
  atomicWriteFile role ((service.plannedContent files role).getD [])

def verifyPlanned (files : List PlannedFileMutation) (role : ClientConfigFileRole) :
    FileOp Unit := do
  io -- readFile
  Faulty.ensure ((← Faulty.get).managed role = service.plannedContent files role)
    (.validation "Client configuration could not be verified after writing.")

/-- The prune that may follow a change; its failure is only a warning. -/
def pruneAfterApply (client : SupportedClient) :
    Option Int → FileOp (List BackupRecord × Option String)
  | none => .finish ([], none)
  | some retention =>
    Faulty.orElse
      (do
        let removed ← service.pruneBackups client retention
        return (removed, none))
      fun _ => .finish ([], some
        "Client configuration was applied, but old backups could not be pruned.")

def applyPlan (client : SupportedClient) (plan : List PlannedFileMutation)
    (backupRetention : Option Int) (expected : ClientConfigFileRole → Option String)
    (now : Nat) : FileOp ApplyClientConfigResult := do
  let changes := plan.filter (·.changed)
  service.assertExpectedFiles expected changes
  let backups ← service.backupFiles (changes.map (·.role)) now true
  writeEach (service.writePlanned changes backups) (service.verifyPlanned changes)
    (rollbackAndThrow backups (fun role => (service.plannedContent plan role).map some)
      .clientConfigRollback)
    (changes.map (·.role)) []
  let (removedBackups, retentionWarning) ← service.pruneAfterApply client backupRetention
  return {
    client
    changedFiles := changes.map (·.role)
    postWriteRevisions := fun role =>
      (changes.find? (·.role = role)).map fun file => service.revisionOf role (some file.content)
    backups, removedBackups, retentionWarning }

/-! ## Restoring a set -/

def selectGroup (client : SupportedClient) (backups : List BackupRecord) :
    Selector → Except Failure GroupId
  | .groupId id => .ok id
  | .createdAt createdAt =>
    match groupIds (backups.filter (·.groupId.createdAt = createdAt)) with
    | [] => .error (.error
        ("No " ++ client.name ++ " backup set exists at " ++ toString createdAt ++ "."))
    | [id] => .ok id
    | _ => .error (.error ("Multiple " ++ client.name ++ " backup sets exist at " ++
        toString createdAt ++ "; use the exact group id."))

/-- The group to restore and its backups. -/
def selectBackups (client : SupportedClient) (backups : List BackupRecord)
    (selector : Selector) : Except Failure (GroupId × List BackupRecord) :=
  if backups = [] then
    .error (.error ("No backups are available for " ++ client.name ++ "."))
  else
    match selectGroup client backups selector with
    | .error e => .error e
    | .ok id =>
      let sourceBackups := backups.filter (·.groupId = id)
      if sourceBackups = [] then
        .error (.error
          ("Backup set " ++ id.text ++ " is not managed for " ++ client.name ++ "."))
      else
        match duplicateRole [] (sourceBackups.map (·.role)) with
        | some role => .error (.error
            ("Backup set " ++ id.text ++ " contains duplicate " ++ role.name ++ " files."))
        | none =>
          if ((service.clientFiles client).filter
              (· ∈ sourceBackups.map (·.role))).length ≠ sourceBackups.length then
            .error (.error ("Backup set " ++ id.text ++
              " contains an unsupported client configuration file."))
          else
            .ok (id, sourceBackups)

/-- Whether a set is what its manifest says. -/
def exactMembers (client : SupportedClient) (groupId : GroupId)
    (sourceBackups : List BackupRecord) (manifest : BackupSetManifest) : Prop :=
  manifest.client = client ∧ manifest.groupId = groupId ∧
    some manifest.createdAt = (sourceBackups.head?).map (·.groupId.createdAt) ∧
    manifest.members.length = sourceBackups.length ∧
    (∀ member ∈ manifest.members, member.role ∈ service.clientFiles client) ∧
    ∀ backup ∈ sourceBackups, ∃ member ∈ manifest.members, member.role = backup.role ∧
      member.existed = backup.existed ∧ member.backupName = backup

instance (client : SupportedClient) (groupId : GroupId) (sourceBackups : List BackupRecord)
    (manifest : BackupSetManifest) :
    Decidable (service.exactMembers client groupId sourceBackups manifest) := by
  unfold exactMembers
  infer_instance

/-- Whether a set without a manifest that holds a tombstone has every file of the client. -/
def completeSet (client : SupportedClient) (sourceBackups : List BackupRecord) : Prop :=
  sourceBackups.length = (service.clientFiles client).length ∧
    ∀ role ∈ service.clientFiles client, role ∈ sourceBackups.map (·.role)

instance (client : SupportedClient) (sourceBackups : List BackupRecord) :
    Decidable (service.completeSet client sourceBackups) := by
  unfold completeSet
  infer_instance

/-- What is checked of a set; `manifest` is as its file reads. -/
def restorable (client : SupportedClient) (groupId : GroupId)
    (sourceBackups : List BackupRecord) :
    Option (Option BackupSetManifest) → Except Failure Unit
  | some none => .error (.error
      ("Backup set " ++ groupId.text ++ " has an invalid manifest and cannot be restored."))
  | some (some manifest) =>
    if (duplicateRole [] (manifest.members.map (·.role))).isSome then
      .error (.error
        ("Backup set " ++ groupId.text ++ " has an invalid manifest and cannot be restored."))
    else if service.exactMembers client groupId sourceBackups manifest then
      .ok ()
    else
      .error (.error ("Backup set " ++ groupId.text ++
        " is incomplete or does not match its manifest; no files were changed."))
  | none =>
    if sourceBackups.any (!·.existed) && !decide (service.completeSet client sourceBackups) then
      .error (.error ("Backup set " ++ groupId.text ++
        " is an incomplete deletion snapshot; no files were changed."))
    else
      .ok ()

def assertRestorableBackupGroup (client : SupportedClient) (groupId : GroupId)
    (sourceBackups : List BackupRecord) : FileOp Unit := do
  io -- readFile of the manifest
  let s ← Faulty.get
  check (service.restorable client groupId sourceBackups (s.manifests client groupId))

/-- The read of a backup, which there is unless it is a tombstone. -/
def readSnapshot (snapshot : Option BackupRecord) : FileOp Unit :=
  if snapshot.isSome then io else .finish ()

/-- Throw unless the files are those a repair left. -/
def assertRevisions (safetyBackups : List BackupRecord)
    (restoreFiles : List ClientConfigFileRole) :
    Option (ClientConfigFileRole → Option String) → FileOp Unit
  | none => .finish ()
  | some expectedRevisions =>
    Faulty.forEach restoreFiles fun role => do
      let snapshot := (backupOf safetyBackups role).filter (·.existed)
      readSnapshot snapshot
      let s ← Faulty.get
      let revision := service.revisionOf role ((snapshot.bind s.backups.get?).map service.decode)
      Faulty.ensure (expectedRevisions role = some revision ∧ revision ≠ "")
        (.validation ("Automatic rollback refused: " ++ role.name ++
          " changed after connection repair. Newer configuration was preserved."))

/-- Put back a file, if it is still as it was backed up. -/
def restoreFile (sourceContents : ClientConfigFileRole → Option Bytes)
    (safetyBackups : List BackupRecord) (role : ClientConfigFileRole) : FileOp Unit := do
  assertMatchesBackup role (backupOf safetyBackups role)
  match sourceContents role with
  | some content => atomicWriteFile role content
  | none => removeFile role

def restoreBackupSet (client : SupportedClient) (selector : Selector)
    (expectedRevisions : Option (ClientConfigFileRole → Option String)) (now : Nat) :
    FileOp RestoreBackupSetResult := do
  let backups ← service.listBackups client
  match service.selectBackups client backups selector with
  | .error e => .throw e
  | .ok (selectedGroupId, sourceBackups) =>
    let eligibleFiles := service.clientFiles client
    let restoreFiles := eligibleFiles.filter (· ∈ sourceBackups.map (·.role))
    service.assertRestorableBackupGroup client selectedGroupId sourceBackups
    io -- readFile of every source
    let s ← Faulty.get
    let sourceContents (role : ClientConfigFileRole) : Option Bytes :=
      ((backupOf sourceBackups role).filter (·.existed)).bind s.backups.get?
    let safetyBackups ← service.backupFiles eligibleFiles now true
    service.assertRevisions safetyBackups restoreFiles expectedRevisions
    writeEach (restoreFile sourceContents safetyBackups) (fun _ => pure ())
      (rollbackAndThrow safetyBackups
        (fun role => if role ∈ restoreFiles then some (sourceContents role) else none)
        .rollbackIncomplete)
      restoreFiles []
    return {
      client
      groupId := selectedGroupId
      createdAt := selectedGroupId.createdAt
      restoredFiles := restoreFiles.filter fun role =>
        ((backupOf sourceBackups role).filter (·.existed)).isSome
      deletedFiles := restoreFiles.filter fun role =>
        ((backupOf sourceBackups role).filter (·.existed)).isNone &&
          ((backupOf safetyBackups role).filter (·.existed)).isSome
      sourceBackups
      safetyBackupSet := safetyBackups }

end ClientConfigService

end StonePlus.ClientConfig
