import StonePlus.Credentials.Journal
import StonePlus.Js.TextDecoder

/-!
# StonePlus.Backup.PortableReplace

`atomicReplace` of `backup/portable-backup.ts`, by which a new backup takes the place of an old
one, and `recoverPortableBackupReplacements`, which ends a replacement that was cut short.

Every operation on the file system is one atomic, durable step.  The journals of other
destinations name other files and are left out.
-/

namespace StonePlus.Backup

open Lib Lib.Durable
open Credentials (stringField)

namespace PortableReplace

/-! ## The header -/

def headerBytes : Nat := 512

/-- `STONEPB1`. -/
def magic : Bytes := [0x53, 0x54, 0x4F, 0x4E, 0x45, 0x50, 0x42, 0x31]

/-- `toString('ascii')`, which drops the high bit. -/
def asciiUnits (bytes : Bytes) : Bytes := bytes.map (· &&& 0x7F)

/-- `toString('utf8')`, which keeps a byte order mark. -/
def utf8Text (bytes : Bytes) : JsString :=
  let (text, decoder) := TextDecoder.decode { bomSeen := true } bytes
  text ++ decoder.flush

def isPortableHeader : Json → Bool
  | .object header =>
    stringField header "format" = some (js "stone-portable-backup") &&
      (Json.property? header (js "version") == some (.number (.ofNat 1)) ||
        Json.property? header (js "version") == some (.number (.ofNat 2))) &&
      stringField header "cipher" = some (js "aes-256-gcm") &&
      stringField header "kdf" = some (js "scrypt") &&
      (stringField header "salt").isSome &&
      (stringField header "iv").isSome &&
      (stringField header "tag").isSome &&
      (match Json.property? header (js "createdAt") with
        | some (.number n) => n.isSafeInteger
        | _ => false)
  | _ => false

/-- The JSON text of a header: it stands between the first line and the first octet 0. -/
def headerText? (header : Bytes) : Option JsString :=
  match header.dropWhile (· ≠ 0x0A) with
  | [] => none
  | _ :: rest =>
    if asciiUnits (header.takeWhile (· ≠ 0x0A)) = magic then
      some (utf8Text (rest.takeWhile (· ≠ 0)))
    else none

/-- `isPortableBackup` of the bytes of a file: `readHeader` does not throw. -/
def isPortableBackup (bytes : Bytes) : Bool :=
  headerBytes ≤ bytes.length &&
    ((headerText? (bytes.take headerBytes)).bind Json.parse).any isPortableHeader

/-! ## Files -/

/-- The files of one replacement. -/
inductive ReplacePath
  | destination
  | temporary
  | rollback
  | journalTemporary
  | journal
  deriving DecidableEq

/-- What a journal says beyond the paths of its replacement. -/
structure PortableReplaceJournal where
  originalSize : Nat
  deriving DecidableEq

/-- What a file holds. -/
inductive Content
  | data (bytes : Bytes)
  | journal (journal : PortableReplaceJournal)
  deriving DecidableEq

def Content.isPortableBackup : Content → Bool
  | .data bytes => PortableReplace.isPortableBackup bytes
  | .journal _ => false

/-- Whether the file has the size of the original. -/
def Content.hasSize (size : Nat) : Content → Bool
  | .data bytes => bytes.length = size
  | .journal _ => false

/-- What every file holds that exists. -/
abbrev Files := ReplacePath → Option Content

structure ReplaceError where
  message : String
  deriving DecidableEq

/-- An operation on the file system.  Flushing a file or a directory changes nothing that is
modelled here and is left out. -/
inductive FileOp
  | copyFileExcl (origin target : ReplacePath)
  | writeFileExcl (path : ReplacePath) (content : Content)
  | rename (origin target : ReplacePath)
  | rm (path : ReplacePath)
  | rmForce (path : ReplacePath)
  deriving DecidableEq

def missing : ReplaceError := ⟨"ENOENT: no such file or directory"⟩

def exists_ : ReplaceError := ⟨"EEXIST: file already exists"⟩

/-- What an operation does; one that fails does nothing. -/
def FileOp.apply : FileOp → Files → Except ReplaceError Files
  | .copyFileExcl origin target, files =>
    match files origin, files target with
    | none, _ => .error missing
    | some _, some _ => .error exists_
    | some content, none => .ok (Function.update files target (some content))
  | .writeFileExcl path content, files =>
    if (files path).isSome then .error exists_
    else .ok (Function.update files path (some content))
  | .rename origin target, files =>
    match files origin with
    | none => .error missing
    | some content =>
      .ok (Function.update (Function.update files target (some content)) origin none)
  | .rm path, files =>
    if (files path).isNone then .error missing else .ok (Function.update files path none)
  | .rmForce path, files => .ok (Function.update files path none)

/-- A program over the file system. -/
abbrev FileProgram := Durable FileOp Files ReplaceError

/-! ## Recovery -/

def cleanupReplacement : FileProgram Unit := do
  perform (.rmForce .temporary)
  perform (.rmForce .rollback)
  perform (.rmForce .journal)

def recoverReplacement (journal : PortableReplaceJournal) : FileProgram Unit := do
  let files ← get
  -- the temporary file still exists, so the candidate was not installed
  if (files .destination).isSome && (files .temporary).isSome then cleanupReplacement
  else if (files .destination).any Content.isPortableBackup && (files .temporary).isNone then
    cleanupReplacement
  else do
    ensure ((files .rollback).any (Content.hasSize journal.originalSize) = true)
      ⟨"Portable backup rollback is missing or damaged"⟩
    whenever (files .destination).isSome (perform (.rm .destination))
    perform (.rename .rollback .destination)
    perform (.rmForce .temporary)
    perform (.rmForce .journal)

structure PortableReplacementRecoveryResult where
  recovered : Nat
  failures : List ReplaceError
  deriving DecidableEq

/-- `parseReplacementJournal` and the recovery of the journal. -/
def recoverJournal : Content → FileProgram Unit
  | .journal journal => recoverReplacement journal
  | .data _ => .throw ⟨"Portable replacement journal is invalid JSON"⟩

/-- A journal that is recovered is counted. -/
def recoverOne (content : Content) : FileProgram PortableReplacementRecoveryResult := do
  recoverJournal content
  pure ⟨1, []⟩

def recoverPortableBackupReplacements : FileProgram PortableReplacementRecoveryResult := do
  let files ← get
  match files .journal with
  | none => pure ⟨0, []⟩
  | some content => (recoverOne content).orElse fun e => pure ⟨0, [e]⟩

/-! ## Replacement -/

/-- The journal is written under a temporary name and renamed. -/
def moveJournalIn (journal : PortableReplaceJournal) : FileProgram Unit := do
  perform (.writeFileExcl .journalTemporary (.journal journal))
  perform (.rename .journalTemporary .journal)

def writeReplacementJournal (journal : PortableReplaceJournal) : FileProgram Unit :=
  (moveJournalIn journal).orElse fun e => do
    ignoreErrors (perform (.rmForce .journalTemporary))
    .throw e

def copyOriginal (journal : PortableReplaceJournal) : FileProgram Unit := do
  perform (.copyFileExcl .destination .rollback)
  writeReplacementJournal journal

/-- The original is copied and the journal is written. -/
def prepareReplacement (journal : PortableReplaceJournal) : FileProgram Unit :=
  (copyOriginal journal).orElse fun e => do
    perform (.rmForce .rollback)
    .throw e

/-- The candidate is renamed onto the original.  Where that is `refused`, the original is removed
first, if it has not changed. -/
def renameOver (refused : Bool) (originalSize : Nat) : FileProgram Unit :=
  if refused then do
    let files ← get
    ensure ((files .destination).any (Content.hasSize originalSize) = true)
      ⟨"Portable backup destination changed while it was being replaced"⟩
    perform (.rm .destination)
    perform (.rename .temporary .destination)
  else perform (.rename .temporary .destination)

/-- `inspectPortableBackup` of the destination. -/
def inspectDestination : FileProgram Unit := do
  let files ← get
  ensure ((files .destination).any Content.isPortableBackup = true)
    ⟨"File is not a Stone+ portable backup"⟩

def installCandidate (refused : Bool) (originalSize : Nat) : FileProgram Unit := do
  renameOver refused originalSize
  inspectDestination

/-- The original is put back after the error `e`. -/
def rollBack (journal : PortableReplaceJournal) (e : ReplaceError) : FileProgram Unit := do
  (recoverReplacement journal).orElse fun recoveryError =>
    .throw ⟨"Portable backup replacement failed (" ++ e.message ++
      "); rollback also failed. " ++ recoveryError.message⟩
  .throw e

def installReplacement (refused : Bool) (journal : PortableReplaceJournal) : FileProgram Unit := do
  (installCandidate refused journal.originalSize).orElse (rollBack journal)
  cleanupReplacement.orElse fun e =>
    .throw ⟨"Portable backup was written, but replacement cleanup failed. " ++ e.message⟩

def atomicReplace (refused : Bool) : FileProgram Unit := do
  let prior ← recoverPortableBackupReplacements
  ensure (prior.failures = []) ⟨"A previous portable backup replacement still requires recovery"⟩
  let files ← get
  match files .destination with
  | none => perform (.rename .temporary .destination)
  | some (.journal _) => .throw ⟨"Portable backup path is not a regular file"⟩
  | some (.data original) => do
    let journal : PortableReplaceJournal := ⟨original.length⟩
    prepareReplacement journal
    installReplacement refused journal

end PortableReplace

end StonePlus.Backup
