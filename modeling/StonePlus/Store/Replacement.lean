import StonePlus.Js.Json
import StonePlus.Lib.Crash
import Mathlib.Logic.Function.Basic

/-!
# StonePlus.Store.Replacement

How the database file is replaced, and how a replacement that was cut short is
recovered: `replaceDatabaseFile` and `recoverDatabaseReplacement` of
`store/sqlite-state-store.ts`.

Every operation on the file system is one atomic, durable step.  SQLite and
SHA-256 are parameters: whether a file is an intact database, what a checkpoint
of the write-ahead log makes of a file, and the hash of a file.
-/

namespace StonePlus.Store

open Lib Lib.Durable

structure StoreError where
  message : String
  deriving DecidableEq

/-! ## Names and hashes -/

/-- A pattern of one class for each code unit, between `^` and `$`. -/
def matchesClasses : List (UInt16 → Bool) → JsString → Bool
  | [], [] => true
  | p :: ps, c :: cs => p c && matchesClasses ps cs
  | _, _ => false

/-- `[0-9a-f]` with the flag `i`. -/
def isHexUnit (c : UInt16) : Bool :=
  (0x30 ≤ c && c ≤ 0x39) || (0x41 ≤ c && c ≤ 0x46) || (0x61 ≤ c && c ≤ 0x66)

def hexUnits (n : Nat) : List (UInt16 → Bool) := List.replicate n isHexUnit

def isCanonicalReplacementId (id : JsString) : Bool :=
  let dash : List (UInt16 → Bool) := [(· == 0x2D)]
  let version : List (UInt16 → Bool) := [fun c => 0x31 ≤ c && c ≤ 0x35]
  let variant : List (UInt16 → Bool) := [fun c => (js "89abAB").contains c]
  matchesClasses (hexUnits 8 ++ dash ++ hexUnits 4 ++ dash ++ version ++ hexUnits 3 ++ dash ++ variant ++
    hexUnits 3 ++ dash ++ hexUnits 12) id

def isSha256 (value : JsString) : Bool := matchesClasses (hexUnits 64) value

/-- What `randomUUID` gives. -/
abbrev ReplacementId := { id : JsString // isCanonicalReplacementId id = true }

/-- What `digest('hex')` of SHA-256 gives. -/
abbrev Sha256 := { hex : JsString // isSha256 hex = true }

/-- Not a safe integer from 0 on. -/
def isInvalidTimestamp (n : JsNumber) : Bool := !n.isSafeInteger || n < JsNumber.ofInt 0

theorem isInvalidTimestamp_zero : isInvalidTimestamp (.ofNat 0) = false := by decide

/-- What `Date.now` gives. -/
abbrev Timestamp := { n : JsNumber // isInvalidTimestamp n = false }

/-! ## The journal -/

structure DatabaseReplacementJournal where
  id : ReplacementId
  hadPrevious : Bool
  candidateSha256 : Sha256
  previousSha256 : Option Sha256
  createdAt : Timestamp
  previous_known : previousSha256.isSome = hadPrevious

/-- The journal as it is written. -/
def DatabaseReplacementJournal.toJson (journal : DatabaseReplacementJournal) : Json :=
  .object <|
    [(js "version", .number (.ofNat 1)), (js "id", .string journal.id),
      (js "hadPrevious", .bool journal.hadPrevious),
      (js "candidateSha256", .string journal.candidateSha256)] ++
    (journal.previousSha256.toList.map fun sha => (js "previousSha256", .string sha)) ++
    [(js "createdAt", .number journal.createdAt)]

/-- A string with a property. -/
def checkedString (p : JsString → Bool) : Option Json → Option { s : JsString // p s = true }
  | some (.string s) => if h : p s = true then some ⟨s, h⟩ else none
  | _ => none

/-- `previousSha256` is there exactly if there was a previous database. -/
def checkedPrevious (hadPrevious : Bool) (value : Option Json) :
    Option { sha : Option Sha256 // sha.isSome = hadPrevious } :=
  match hadPrevious with
  | true => (checkedString isSha256 value).map fun sha => ⟨some sha, rfl⟩
  | false => if value.isNone then some ⟨none, rfl⟩ else none

def checkedTimestamp : Option Json → Option Timestamp
  | some (.number n) => if h : isInvalidTimestamp n = false then some ⟨n, h⟩ else none
  | _ => none

theorem checkedTimestamp_of (n : Timestamp) : checkedTimestamp (some (.number n)) = some n := by
  obtain ⟨n, hn⟩ := n
  exact dif_pos hn

/-- The checks of `parseDatabaseReplacementJournal`. -/
def checkedJournal (entries : List (JsString × Json)) : Option DatabaseReplacementJournal := do
  let version ← Json.property? entries (js "version")
  guard (version == .number (.ofNat 1))
  let id ← checkedString isCanonicalReplacementId (Json.property? entries (js "id"))
  let .bool hadPrevious ← Json.property? entries (js "hadPrevious") | none
  let candidateSha256 ← checkedString isSha256 (Json.property? entries (js "candidateSha256"))
  let previousSha256 ← checkedPrevious hadPrevious (Json.property? entries (js "previousSha256"))
  let createdAt ← checkedTimestamp (Json.property? entries (js "createdAt"))
  pure ⟨id, hadPrevious, candidateSha256, previousSha256, createdAt, previousSha256.2⟩

def parseDatabaseReplacementJournal (value : Json) : Except StoreError DatabaseReplacementJournal :=
  match value with
  | .object entries =>
    match checkedJournal entries with
    | some journal => .ok journal
    | none => .error ⟨"SQLite replacement journal is invalid"⟩
  | _ => .error ⟨"SQLite replacement journal is invalid"⟩

/-! ## Files -/

/-- The files next to the database file. -/
inductive DatabasePath
  | source
  | live
  | wal
  | shm
  | journal
  | journalTemporary (id : ReplacementId)
  | candidate (id : ReplacementId)
  | previous (id : ReplacementId)
  deriving DecidableEq

/-- What a file holds. -/
inductive Content
  | database (bytes : Bytes)
  | json (value : Json)

/-- What every file holds that exists. -/
abbrev Files := DatabasePath → Option Content

/-- What is asked of SQLite and of the hash. -/
structure Sqlite where
  /-- Whether `PRAGMA integrity_check` says `ok`. -/
  intact : Bytes → Bool
  /-- The database file after `PRAGMA wal_checkpoint(TRUNCATE)` with this log. -/
  checkpoint : Bytes → Option Content → Bytes
  /-- A checkpoint leaves an intact database intact. -/
  intact_checkpoint : ∀ bytes wal, intact bytes = true → intact (checkpoint bytes wal) = true
  sha256 : Bytes → Sha256

/-- An operation on the file system. -/
inductive FileOp
  | copyFileExcl (origin destination : DatabasePath)
  | chmod (path : DatabasePath)
  | syncFile (path : DatabasePath)
  | checkpointDatabase
  | writeFileExcl (path : DatabasePath) (content : Json)
  | rename (origin destination : DatabasePath)
  | rm (path : DatabasePath)
  | rmForce (path : DatabasePath)
  | syncDirectory

def missing : StoreError := ⟨"ENOENT: no such file or directory"⟩

variable (sqlite : Sqlite)

/-- What an operation does; one that fails does nothing. -/
def FileOp.apply : FileOp → Files → Except StoreError Files
  | .copyFileExcl origin destination, files =>
    match files origin, files destination with
    | none, _ => .error missing
    | some _, some _ => .error ⟨"EEXIST: file already exists"⟩
    | some content, none => .ok (Function.update files destination (some content))
  | .chmod path, files | .syncFile path, files => if (files path).isNone then .error missing else .ok files
  | .checkpointDatabase, files =>
    match files .live with
    | some (.database bytes) =>
      let checkpointed := Content.database (sqlite.checkpoint bytes (files .wal))
      .ok (Function.update (Function.update (Function.update files .live (some checkpointed)) .wal none)
        .shm none)
    | _ => .error ⟨"file is not a database"⟩
  | .writeFileExcl path content, files =>
    if (files path).isSome then .error ⟨"EEXIST: file already exists"⟩
    else .ok (Function.update files path (some (.json content)))
  | .rename origin destination, files =>
    match files origin with
    | none => .error missing
    | some content => .ok (Function.update (Function.update files destination (some content)) origin none)
  | .rm path, files => if (files path).isNone then .error missing else .ok (Function.update files path none)
  | .rmForce path, files => .ok (Function.update files path none)
  | .syncDirectory, files => .ok files

/-- A program over the file system. -/
abbrev FileProgram := Durable FileOp Files StoreError

def Content.isIntact : Content → Bool
  | .database bytes => sqlite.intact bytes
  | .json _ => false

def assertDatabaseIntegrity (path : DatabasePath) : FileProgram Unit := do
  let files ← get
  ensure ((files path).any (Content.isIntact sqlite) = true) ⟨"unknown integrity error"⟩

/-- The hash of a file that is an intact database. -/
def validSha256 : Option Content → Option Sha256
  | some (.database bytes) => if sqlite.intact bytes then some (sqlite.sha256 bytes) else none
  | _ => none

/-- `sha256File` of a database file. -/
def sha256File (path : DatabasePath) : FileProgram Sha256 := do
  let files ← get
  match files path with
  | some (.database bytes) => pure (sqlite.sha256 bytes)
  | _ => .throw missing

/-! ## Recovery -/

inductive DatabaseReplacementRecovery
  | none
  | installed
  | rolledBack
  deriving DecidableEq

def cleanupDatabaseReplacement (id : ReplacementId) : FileProgram Unit := do
  perform (.rmForce (.candidate id))
  perform (.rmForce (.previous id))
  perform (.rmForce .journal)
  perform .syncDirectory

/-- `chmod` on the platforms that have it. -/
def chmodUnlessWin32 (win32 : Bool) (path : DatabasePath) : FileProgram Unit :=
  whenever (!win32) (perform (.chmod path))

/-- The previous database is moved back. -/
def rollBack (id : ReplacementId) (liveExists : Bool) : FileProgram DatabaseReplacementRecovery := do
  whenever liveExists (perform (.rm .live))
  perform (.rename (.previous id) .live)
  perform .syncDirectory
  assertDatabaseIntegrity sqlite .live
  cleanupDatabaseReplacement id
  pure .rolledBack

/-- The candidate is installed where there was no database. -/
def installFirst (win32 : Bool) (id : ReplacementId) : FileProgram DatabaseReplacementRecovery := do
  perform (.rename (.candidate id) .live)
  chmodUnlessWin32 win32 .live
  perform .syncDirectory
  assertDatabaseIntegrity sqlite .live
  cleanupDatabaseReplacement id
  pure .installed

/-- What a recovery does with the files it finds. -/
inductive RecoveryAction
  | cleanUp (recovery : DatabaseReplacementRecovery)
  | rollBack (liveExists : Bool)
  | installFirst
  deriving DecidableEq

/-- The cases of `recoverDatabaseReplacement`. -/
def recoveryAction (journal : DatabaseReplacementJournal) (files : Files) :
    Except StoreError RecoveryAction :=
  let live := files .live
  let candidate := files (.candidate journal.id)
  let previous := files (.previous journal.id)
  let liveValid := live.any (Content.isIntact sqlite)
  let candidateValid := candidate.any (Content.isIntact sqlite)
  let previousValid := previous.any (Content.isIntact sqlite)
  let liveIsCandidate := decide (validSha256 sqlite live = some journal.candidateSha256)
  let liveIsPrevious :=
    journal.hadPrevious && decide (validSha256 sqlite live = journal.previousSha256)
  let candidateMatches := decide (validSha256 sqlite candidate = some journal.candidateSha256)
  let previousMatches :=
    journal.hadPrevious && decide (validSha256 sqlite previous = journal.previousSha256)
  -- the candidate was never installed
  if liveValid && candidate.isSome then
    if !candidateMatches || !liveIsPrevious then
      .error ⟨"SQLite replacement files do not match the durable journal"⟩
    else .ok (.cleanUp .rolledBack)
  -- the rename of the candidate has consumed it
  else if liveValid && candidate.isNone then
    if liveIsPrevious then .ok (.cleanUp .rolledBack)
    else if !liveIsCandidate then
      .error ⟨"SQLite installed database does not match the durable journal"⟩
    else .ok (.cleanUp .installed)
  else if journal.hadPrevious && previousValid && previousMatches then .ok (.rollBack live.isSome)
  else if !journal.hadPrevious && live.isNone && candidateValid && candidateMatches then
    .ok .installFirst
  else .error ⟨"SQLite replacement journal cannot be recovered without discarding an unverified " ++
    "database generation"⟩

/-- `recoverDatabaseReplacement` with the journal that was read. -/
def recoverJournaled (win32 : Bool) (journal : DatabaseReplacementJournal) :
    FileProgram DatabaseReplacementRecovery := do
  let files ← get
  match recoveryAction sqlite journal files with
  | .error e => .throw e
  | .ok (.cleanUp recovery) => do
    cleanupDatabaseReplacement journal.id
    pure recovery
  | .ok (.rollBack liveExists) => rollBack sqlite journal.id liveExists
  | .ok .installFirst => installFirst sqlite win32 journal.id

/-- `readReplacementJournalFile`, parsed. -/
def readReplacementJournal : Content → FileProgram DatabaseReplacementJournal
  | .json value =>
    match parseDatabaseReplacementJournal value with
    | .ok journal => pure journal
    | .error e => .throw e
  | .database _ => .throw ⟨"SQLite replacement journal is invalid JSON"⟩

def recoverDatabaseReplacement (win32 : Bool) : FileProgram DatabaseReplacementRecovery := do
  let files ← get
  match files .journal with
  | none => pure .none
  | some content => do
    let journal ← readReplacementJournal content
    recoverJournaled sqlite win32 journal

/-! ## Replacement -/

/-- The journal is written under a temporary name and renamed. -/
def moveJournalIn (temporary : ReplacementId) (journal : DatabaseReplacementJournal) :
    FileProgram Unit := do
  perform (.writeFileExcl (.journalTemporary temporary) journal.toJson)
  perform (.syncFile (.journalTemporary temporary))
  perform (.rename (.journalTemporary temporary) .journal)
  perform .syncDirectory

def writeDatabaseReplacementJournal (temporary : ReplacementId) (journal : DatabaseReplacementJournal) :
    FileProgram Unit :=
  (moveJournalIn temporary journal).orElse fun e => do
    ignoreErrors (perform (.rmForce (.journalTemporary temporary)))
    .throw e

/-- The hash of the previous database. -/
def previousSha256Of (hadPrevious : Bool) :
    FileProgram { sha : Option Sha256 // sha.isSome = hadPrevious } :=
  match hadPrevious with
  | true => do
    let sha ← sha256File sqlite .live
    pure ⟨some sha, rfl⟩
  | false => pure ⟨none, rfl⟩

/-- The files are hashed and the journal written. -/
def journalHashes (id temporary : ReplacementId) (createdAt : Timestamp) (hadPrevious : Bool) :
    FileProgram Bool := do
  whenever hadPrevious (perform .checkpointDatabase)
  let candidateSha256 ← sha256File sqlite (.candidate id)
  let previousSha256 ← previousSha256Of sqlite hadPrevious
  writeDatabaseReplacementJournal temporary
    ⟨id, hadPrevious, candidateSha256, previousSha256, createdAt, previousSha256.2⟩
  pure hadPrevious

/-- What is done with the copied candidate until the journal is written. -/
def journalReplacement (win32 : Bool) (id temporary : ReplacementId) (createdAt : Timestamp) :
    FileProgram Bool := do
  chmodUnlessWin32 win32 (.candidate id)
  perform (.syncFile (.candidate id))
  assertDatabaseIntegrity sqlite (.candidate id)
  let files ← get
  journalHashes sqlite id temporary createdAt (files .live).isSome

/-- What is done after the journal is written. -/
def installCandidate (win32 : Bool) (id : ReplacementId) (hadPrevious : Bool) : FileProgram Unit := do
  perform (.rmForce .wal)
  perform (.rmForce .shm)
  perform .syncDirectory
  whenever hadPrevious (perform (.rename .live (.previous id)))
  perform (.rename (.candidate id) .live)
  chmodUnlessWin32 win32 .live
  perform .syncDirectory
  assertDatabaseIntegrity sqlite .live
  cleanupDatabaseReplacement id

def replaceDatabaseFile (win32 : Bool) (id temporary : ReplacementId) (createdAt : Timestamp) :
    FileProgram Unit := do
  let _ ← recoverDatabaseReplacement sqlite win32
  let files ← get
  ensure ((files .source).isSome = true) ⟨"SQLite replacement source does not exist"⟩
  assertDatabaseIntegrity sqlite .source
  perform (.copyFileExcl .source (.candidate id))
  let hadPrevious ← (journalReplacement sqlite win32 id temporary createdAt).orElse fun e => do
    ignoreErrors (perform (.rmForce (.candidate id)))
    .throw e
  (installCandidate sqlite win32 id hadPrevious).orElse fun e => do
    let recovery ← (recoverDatabaseReplacement sqlite win32).orElse fun recoveryError =>
      .throw ⟨"Unable to replace SQLite database (" ++ e.message ++ "); " ++
        "crash-journal recovery also failed (" ++ recoveryError.message ++ ")"⟩
    ensure (recovery = .installed) e

end StonePlus.Store
