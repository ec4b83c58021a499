import StonePlus.Js.Map
import StonePlus.Lib.Faulty

/-!
# StonePlus.ClientConfig.Files

The files of a client: those its configuration is kept in, their backups, and the
manifests of the backup sets.

Every operation may fail.  A managed file is replaced by a rename, so it holds its old
bytes or its new ones; a backup and a manifest are written in place under a name that was
free, so a failure may leave a part of them.  Temporary files are not among the files
here: an operation on one may only fail.

A backup's name tells the file it is of, whether that file existed, and the instant and
sequence of its set; so the model names a backup by these.
-/

namespace StonePlus.ClientConfig

open Lib

inductive SupportedClient where
  | claude | codex | gemini | grokbuild | deepseekHarness
deriving DecidableEq, Repr

inductive ClientConfigFileRole where
  | claudeSettings | claudeMcp
  | codexConfig | codexAuth | codexModelCatalog | codexAgents | codexRules
  | geminiSettings | geminiEnv
  | grokConfig
  | deepseekHarnessEnv
deriving DecidableEq, Repr

/-- The client a managed file belongs to. -/
def ClientConfigFileRole.client : ClientConfigFileRole → SupportedClient
  | .claudeSettings | .claudeMcp => .claude
  | .codexConfig | .codexAuth | .codexModelCatalog | .codexAgents | .codexRules => .codex
  | .geminiSettings | .geminiEnv => .gemini
  | .grokConfig => .grokbuild
  | .deepseekHarnessEnv => .deepseekHarness

abbrev Bytes := List UInt8

/-- The id of a backup set, `createdAt:sequence`. -/
structure GroupId where
  createdAt : Nat
  sequence : Nat
deriving DecidableEq, Repr

/-- A backup, or, if the file did not exist, the tombstone that says so. -/
structure BackupRecord where
  role : ClientConfigFileRole
  existed : Bool
  groupId : GroupId
deriving DecidableEq, Repr

structure BackupSetManifestMember where
  role : ClientConfigFileRole
  existed : Bool
  backupName : BackupRecord
deriving DecidableEq, Repr

structure BackupSetManifest where
  client : SupportedClient
  groupId : GroupId
  createdAt : Nat
  members : List BackupSetManifestMember
deriving DecidableEq, Repr

/-- The files, each with its bytes.  Of a manifest's file only what it reads as matters:
`none` is a text that is no manifest. -/
structure Files where
  managed : ClientConfigFileRole → Option Bytes
  backups : JsMap BackupRecord Bytes
  manifests : SupportedClient → GroupId → Option (Option BackupSetManifest)

/-- The `code` of a system error. -/
inductive ErrorCode where
  | eexist | enoent | eio
deriving DecidableEq, Repr

/-- What is thrown.  The last two carry the failure that made a rollback necessary and
the files it did not bring back. -/
inductive Failure where
  | system (code : ErrorCode)
  | error (message : String)
  | validation (message : String)
  | clientConfigRollback (cause : Failure) (files : List ClientConfigFileRole)
  | rollbackIncomplete (cause : Failure) (files : List ClientConfigFileRole)
deriving DecidableEq, Repr

/-- Whether a failure says that its rollback was incomplete. -/
def Failure.reportsIncompleteRollback : Failure → Bool
  | .clientConfigRollback .. | .rollbackIncomplete .. => true
  | _ => false

abbrev FileOp := Faulty Files Failure

namespace Files

/-- The files once a managed file holds `content`, or is gone. -/
def write (s : Files) (role : ClientConfigFileRole) (content : Option Bytes) : Files :=
  { s with managed := Function.update s.managed role content }

def setBackup (s : Files) (backup : BackupRecord) (content : Bytes) : Files :=
  { s with backups := s.backups.set backup content }

def removeBackup (s : Files) (backup : BackupRecord) : Files :=
  { s with backups := s.backups.delete backup }

def setManifest (s : Files) (client : SupportedClient) (groupId : GroupId)
    (manifest : Option (Option BackupSetManifest)) : Files :=
  { s with manifests := fun c g =>
      if c = client ∧ g = groupId then manifest else s.manifests c g }

@[simp] theorem managed_setBackup (s : Files) (backup : BackupRecord) (content : Bytes) :
    (s.setBackup backup content).managed = s.managed := rfl

@[simp] theorem managed_removeBackup (s : Files) (backup : BackupRecord) :
    (s.removeBackup backup).managed = s.managed := rfl

@[simp] theorem managed_setManifest (s : Files) (client : SupportedClient) (groupId : GroupId)
    (manifest : Option (Option BackupSetManifest)) :
    (s.setManifest client groupId manifest).managed = s.managed := rfl

@[simp] theorem manifests_setBackup (s : Files) (backup : BackupRecord) (content : Bytes) :
    (s.setBackup backup content).manifests = s.manifests := rfl

@[simp] theorem manifests_removeBackup (s : Files) (backup : BackupRecord) :
    (s.removeBackup backup).manifests = s.manifests := rfl

@[simp] theorem backups_setManifest (s : Files) (client : SupportedClient) (groupId : GroupId)
    (manifest : Option (Option BackupSetManifest)) :
    (s.setManifest client groupId manifest).backups = s.backups := rfl

/-- A file that has just been opened is empty until its content is written. -/
@[simp] theorem setBackup_setBackup (s : Files) (backup : BackupRecord) (old new : Bytes) :
    (s.setBackup backup old).setBackup backup new = s.setBackup backup new := by
  simp [setBackup]

@[simp] theorem setManifest_setManifest (s : Files) (client : SupportedClient)
    (groupId : GroupId) (old new : Option (Option BackupSetManifest)) :
    (s.setManifest client groupId old).setManifest client groupId new =
      s.setManifest client groupId new := by
  simp only [setManifest]
  congr 1
  funext c g
  split <;> rfl

end Files

/-! ## Operations -/

/-- An operation that leaves the files as they are: a read, or one on a temporary file. -/
def io : FileOp Unit := Faulty.attempt (.system .eio)

/-- `rm(file.path, { force: true })`. -/
def removeFile (role : ClientConfigFileRole) : FileOp Unit :=
  Faulty.perform (fun s => .ok (s.write role none)) (fun _ s => s) (.system .eio)

/-- `rm` of a backup: if not forced, it must be there. -/
def removeBackup (backup : BackupRecord) (force : Bool) : FileOp Unit :=
  Faulty.perform
    (fun s => if force || s.backups.has backup then .ok (s.removeBackup backup)
      else .error (.system .enoent))
    (fun _ s => s) (.system .eio)

def removeManifest (client : SupportedClient) (groupId : GroupId) : FileOp Unit :=
  Faulty.perform (fun s => .ok (s.setManifest client groupId none)) (fun _ s => s) (.system .eio)

def atomicWriteFile (role : ClientConfigFileRole) (content : Bytes) : FileOp Unit := do
  io -- mkdir
  io -- stat
  io -- open of the temporary file
  Faulty.orElse
    (do
      io -- writeFile
      io -- sync
      io -- close
      io -- chmod
      Faulty.perform (fun s => .ok (s.write role (some content))) (fun _ s => s) (.system .eio))
    fun error => do
      io.ignoreErrors -- close
      io.ignoreErrors -- rm of the temporary file
      .throw error

/-- `open(path, 'wx')`, then what fills the file, which is removed if that fails. -/
def exclusively (openNew fill remove : FileOp Unit) : FileOp Unit := do
  openNew
  fill.orElse fun error => do
    io.ignoreErrors -- close
    remove.ignoreErrors
    .throw error

/-- `open(backupPath, 'wx')`. -/
def openBackup (backup : BackupRecord) : FileOp Unit :=
  Faulty.perform
    (fun s => if s.backups.has backup then .error (.system .eexist) else .ok (s.setBackup backup []))
    (fun _ s => s) (.system .eio)

def copyExclusive (role : ClientConfigFileRole) (backup : BackupRecord) : FileOp Unit := do
  io -- readFile
  let s ← Faulty.get
  match s.managed role with
  | none => .throw (.system .enoent)
  | some content =>
    exclusively (openBackup backup)
      (do
        Faulty.perform (fun s => .ok (s.setBackup backup content))
          (fun written s => s.setBackup backup (content.take written)) (.system .eio)
        io -- sync
        io -- close
        io) -- chmod
      (removeBackup backup true)

def createExclusiveTombstone (backup : BackupRecord) : FileOp Unit := do
  io -- mkdir
  exclusively (openBackup backup)
    (do
      io -- sync
      io) -- close
    (removeBackup backup true)

/-- `readCut manifest n` is what the first `n` bytes of a manifest's file read as. -/
def createExclusiveManifest (readCut : BackupSetManifest → Nat → Option BackupSetManifest)
    (manifest : BackupSetManifest) : FileOp Unit := do
  let set (content : Option BackupSetManifest) (s : Files) :=
    s.setManifest manifest.client manifest.groupId (some content)
  io -- mkdir
  exclusively
    (Faulty.perform
      (fun s => if (s.manifests manifest.client manifest.groupId).isSome then
          .error (.system .eexist)
        else .ok (set (readCut manifest 0) s))
      (fun _ s => s) (.system .eio))
    (do
      Faulty.perform (fun s => .ok (set (some manifest) s))
        (fun written s => set (readCut manifest written) s) (.system .eio)
      io -- sync
      io) -- close
    (removeManifest manifest.client manifest.groupId)

section Rules

variable {faulty : Bool} {post : Unit → Files → Prop} {fail : Failure → Files → Prop} {s : Files}

@[simp] theorem meets_io :
    Faulty.Meets faulty post fail io s ↔
      post () s ∧ (faulty = true → fail (.system .eio) s) := by
  simp [io]

@[simp] theorem meets_removeFile : Faulty.Meets faulty post fail (removeFile role) s ↔
      post () (s.write role none) ∧ (faulty = true → fail (.system .eio) s) := by
  simp [removeFile]

/-- A write either takes effect or leaves the files as they are. -/
theorem meets_atomicWriteFile (hpost : post () (s.write role (some content)))
    (hfail : faulty = true → fail (.system .eio) s) :
    Faulty.Meets faulty post fail (atomicWriteFile role content) s := by
  simp only [atomicWriteFile, Faulty.meets_bind, Faulty.meets_orElse, Faulty.meets_ignoreErrors,
    Faulty.meets_throw, meets_io, Faulty.meets_perform]
  grind

/-- What is opened and then not filled is removed, or stays in part. -/
theorem meets_exclusively {openNew fill remove : FileOp Unit} :
    Faulty.Meets faulty post fail (exclusively openNew fill remove) s ↔
      Faulty.Meets faulty
        (fun _ s => Faulty.Meets faulty post
          (fun e s => Faulty.Meets faulty (fun _ s => fail e s) (fun _ s => fail e s) remove s) fill s)
        fail openNew s := by
  have hboth (p : Prop) : (p ∧ (faulty = true → p)) ↔ p := ⟨And.left, fun h => ⟨h, fun _ => h⟩⟩
  simp only [exclusively, Faulty.meets_bind, Faulty.meets_orElse, Faulty.meets_ignoreErrors,
    Faulty.meets_throw, meets_io, hboth]

/-- Under a free name a backup is made whole, and no failure touches a managed file. -/
theorem meets_copyExclusive (hcontent : s.managed role = some content)
    (hfree : s.backups.get? backup = none) (hpost : post () (s.setBackup backup content))
    (hfail : faulty = true → ∀ s' : Files, s'.managed = s.managed → fail (.system .eio) s') :
    Faulty.Meets faulty post fail (copyExclusive role backup) s := by
  have hhas : s.backups.has backup = false := by simp [JsMap.has, hfree]
  simp only [copyExclusive, Faulty.meets_bind, meets_io, Faulty.meets_get]
  refine ⟨?_, fun hfaulty => hfail hfaulty s rfl⟩
  simp only [hcontent, meets_exclusively, openBackup, removeBackup, Faulty.meets_perform,
    Faulty.meets_bind, meets_io, hhas]
  simp
  grind [Files.managed_setBackup, Files.managed_removeBackup]

theorem meets_createExclusiveTombstone (hfree : s.backups.get? backup = none)
    (hpost : post () (s.setBackup backup []))
    (hfail : faulty = true → ∀ s' : Files, s'.managed = s.managed → fail (.system .eio) s') :
    Faulty.Meets faulty post fail (createExclusiveTombstone backup) s := by
  have hhas : s.backups.has backup = false := by simp [JsMap.has, hfree]
  simp only [createExclusiveTombstone, Faulty.meets_bind, meets_io]
  refine ⟨?_, fun hfaulty => hfail hfaulty s rfl⟩
  simp only [meets_exclusively, openBackup, removeBackup, Faulty.meets_perform,
    Faulty.meets_bind, meets_io, hhas]
  simp
  grind [Files.managed_setBackup, Files.managed_removeBackup]

theorem meets_createExclusiveManifest
    (hfree : s.manifests manifest.client manifest.groupId = none)
    (hpost : post () (s.setManifest manifest.client manifest.groupId (some (some manifest))))
    (hfail : faulty = true → ∀ s' : Files, s'.managed = s.managed → fail (.system .eio) s') :
    Faulty.Meets faulty post fail (createExclusiveManifest readCut manifest) s := by
  simp only [createExclusiveManifest, Faulty.meets_bind, meets_io]
  refine ⟨?_, fun hfaulty => hfail hfaulty s rfl⟩
  simp only [meets_exclusively, removeManifest, Faulty.meets_perform, Faulty.meets_bind, meets_io,
    hfree]
  simp
  grind [Files.managed_setManifest]

end Rules

end StonePlus.ClientConfig
