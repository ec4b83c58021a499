import StonePlus.Js.Json
import StonePlus.Js.TextDecoder
import StonePlus.Js.TextEncoder
import StonePlus.Lib.Segments

/-!
# StonePlus.Codex.SessionIndex

`codex/session-index-cleanup-service.ts`: the entries of Codex's session index that no
conversation belongs to are listed, and those the user confirms are removed.

What the file system and the databases hold is an input, and so is how the operations on them end.
-/

namespace StonePlus.Codex

open Lib

/-! ## What is on disk -/

/-- Why a file could not be read: `EACCES`, `EPERM` or `EBUSY`, or another error. -/
inductive ReadError
  | locked
  | failed
  deriving DecidableEq

structure RolloutFile where
  name : JsString
  content : Bytes
  /-- Why it cannot be read now. -/
  error : Option ReadError := none

/-- A value in a database; only texts are told apart. -/
inductive SqlValue
  | text (value : JsString)
  | other
  deriving DecidableEq

structure Column where
  name : JsString
  values : List SqlValue

structure Table where
  name : JsString
  columns : List Column

abbrev ReferenceDatabase := List Table

structure CodexHome where
  /-- The files under `sessions` and `archived_sessions`, unless a directory cannot be read. -/
  files : Option (List RolloutFile)
  /-- The databases, `none` for one that cannot be queried, unless a directory cannot be read. -/
  databases : Option (List (Option ReferenceDatabase))
  /-- `session_index.jsonl`: unreadable, absent or its octets. -/
  index : Except Unit (Option Bytes)

structure ScanLimits where
  maxRolloutFiles : Nat := 100000
  maxReferenceDatabases : Nat := 256

def rolloutScanBytes : Nat := 1024 * 1024

def threadReferenceColumns : List (JsString × JsString) :=
  [("threads", "id"), ("local_thread_catalog", "thread_id"), ("automation_runs", "thread_id"),
    ("inbox_items", "thread_id"), ("sessions", "id"), ("messages", "session_id"),
    ("thread_dynamic_tools", "thread_id"), ("thread_goals", "thread_id"),
    ("thread_spawn_edges", "parent_thread_id"), ("thread_spawn_edges", "child_thread_id"),
    ("stage1_outputs", "thread_id"), ("agent_job_items", "assigned_thread_id")].map
      fun (table, column) => (js table, js column)

inductive CleanupError
  | invalidPreview
  | aborted
  | running
  | desktopRunning
  | lockHeld
  | scanFailed
  | unreadableIndex
  | invalidUtf8
  | missingIndex
  | changedSincePreview
  | notCandidates
  | backupFailed
  | recheckFailed
  | changedAgain
  | writeFailed
  deriving DecidableEq

/-! ## Lines and entries -/

/-- A segment of a text without and with its line end. -/
def splitEnding (segment : JsString) : JsString × JsString :=
  if [0x0D, 0x0A] <:+ segment then (segment.take (segment.length - 2), [0x0D, 0x0A])
  else if [0x0A] <:+ segment then (segment.take (segment.length - 1), [0x0A])
  else (segment, [])

/-- `forEachLine`: what is visited. -/
def forEachLine (text : JsString) : List (JsString × JsString) :=
  (segments 0x0A text).map splitEnding

structure SessionIndexCleanupCandidate where
  id : JsString
  threadName : JsString
  updatedAt : JsString
  deriving DecidableEq

/-- A string property of a value. -/
def stringProperty? (value : Json) (key : String) : Option JsString :=
  match value.get? (js key) with
  | some (.string s) => some s
  | _ => none

def knownSessionIndexCandidate (line : JsString) : Option SessionIndexCleanupCandidate :=
  match Json.parse line with
  | some (.object entries) =>
    if (entries.map Prod.fst).isPerm [js "id", js "thread_name", js "updated_at"] then
      let id := ((stringProperty? (.object entries) "id").getD []).trim
      let updatedAt := ((stringProperty? (.object entries) "updated_at").getD []).trim
      match stringProperty? (.object entries) "thread_name" with
      | some threadName =>
        if id = [] ∨ updatedAt = [] then none else some { id, threadName, updatedAt }
      | none => none
    else none
  | _ => none

/-- The lines that stay, and how many go. -/
def filterSessionIndex (text : JsString) (selectedIds : List JsString) : JsString × Nat :=
  (forEachLine text).foldl (fun (nextText, removedEntries) (line, ending) =>
    match knownSessionIndexCandidate line with
    | some candidate =>
      if candidate.id ∈ selectedIds then (nextText, removedEntries + 1)
      else (nextText ++ (line ++ ending), removedEntries)
    | none => (nextText ++ (line ++ ending), removedEntries)) ([], 0)

/-! ## The conversations that are there -/

def isHexDigit (c : UInt16) : Bool :=
  Json.isDigit c || (0x41 ≤ c && c ≤ 0x46) || (0x61 ≤ c && c ≤ 0x66)

/-- `[0-9a-f]{8}-[0-9a-f]{4}-[0-9a-f]{4}-[0-9a-f]{4}-[0-9a-f]{12}`, letters of either case. -/
def isUuid (s : JsString) : Bool :=
  (s.splitOn 0x2D).map List.length = [8, 4, 4, 4, 12] && (s.splitOn 0x2D).all (·.all isHexDigit)

def rolloutThreadIdFromFilename (path : JsString) : Option JsString :=
  let name := ((path.map fun c => if c = 0x5C then 0x2F else c).splitOn 0x2F).getLast?.getD []
  let stem := name.take (name.length - 6)
  let id := stem.drop (stem.length - 36)
  if toLowerCase (name.drop (name.length - 6)) = js ".jsonl" ∧ isUuid id then some id else none

/-- `buffer.toString('utf8')`. -/
def bufferText (bytes : Bytes) : JsString :=
  let (text, decoder) := TextDecoder.decode { bomSeen := true } bytes
  text ++ decoder.flush

/-- The thread id of a record of type `session_meta`. -/
def sessionMetaId (line : JsString) : Option JsString :=
  (Json.parse line).bind fun record =>
    if record.get? (js "type") = some (.string (js "session_meta")) then
      (record.get? (js "payload")).bind fun payload =>
        let id := ((stringProperty? payload "id").getD []).trim
        if id = [] then none else some id
    else none

/-- The thread ids of the lines a scan looks at. -/
def metaIds (text : JsString) : List JsString :=
  (forEachLine text).filterMap fun (line, _) =>
    if js "\"session_meta\"" <:+: line then sessionMetaId line else none

/-- One rollout file of `collectLiveThreadIds`. -/
def scanRollout (file : RolloutFile) : Except CleanupError (List JsString) :=
  let filenameId := rolloutThreadIdFromFilename file.name
  match file.error with
  | some error =>
    if filenameId.isSome ∧ error = .locked then .ok filenameId.toList else .error .scanFailed
  | none =>
    let ids := metaIds (bufferText (file.content.take rolloutScanBytes))
    if filenameId = none ∧ rolloutScanBytes < file.content.length ∧ ids = [] then
      .error .scanFailed
    else .ok (filenameId.toList ++ ids)

/-- The thread ids of one of the reference columns. -/
def columnIds (database : ReferenceDatabase) (column : JsString × JsString) : List JsString :=
  match database.find? (·.name = column.1) with
  | some table =>
    match table.columns.find? (·.name = column.2) with
    | some column =>
      column.values.filterMap fun
        | .text value => if value.trim = [] then none else some value.trim
        | .other => none
    | none => []
  | none => []

def databaseIds (database : ReferenceDatabase) : List JsString :=
  threadReferenceColumns.flatMap (columnIds database)

def isRolloutName (name : JsString) : Bool := js "rollout-" <+: name && js ".jsonl" <:+ name

def findRolloutFiles (limits : ScanLimits) (home : CodexHome) :
    Except CleanupError (List RolloutFile) :=
  match home.files with
  | some files =>
    let files := files.filter (isRolloutName ·.name)
    if limits.maxRolloutFiles < files.length then .error .scanFailed else .ok files
  | none => .error .scanFailed

def findThreadReferenceDatabases (limits : ScanLimits) (home : CodexHome) :
    Except CleanupError (List (Option ReferenceDatabase)) :=
  match home.databases with
  | some databases =>
    if limits.maxReferenceDatabases < databases.length then .error .scanFailed else .ok databases
  | none => .error .scanFailed

def collectLiveThreadIds (limits : ScanLimits) (home : CodexHome) :
    Except CleanupError (List JsString) := do
  let files ← findRolloutFiles limits home
  let rolloutIds ← files.mapM scanRollout
  let databases ← findThreadReferenceDatabases limits home
  let databaseIds ← databases.mapM fun
    | some database => .ok (databaseIds database)
    | none => .error .scanFailed
  return rolloutIds.flatten ++ databaseIds.flatten

/-! ## The plan -/

structure SessionIndexPlan where
  originalBytes : Bytes
  originalText : JsString
  candidates : List SessionIndexCleanupCandidate

/-- The entries of no conversation, the first of each id. -/
def ghosts (liveThreadIds : List JsString) (text : JsString) : List SessionIndexCleanupCandidate :=
  (forEachLine text).foldl (fun candidates (line, _) =>
    match knownSessionIndexCandidate line with
    | some candidate =>
      if candidate.id ∈ liveThreadIds ∨ candidate.id ∈ candidates.map (·.id) then candidates
      else candidates ++ [candidate]
    | none => candidates) []

def buildPlan (limits : ScanLimits) (home : CodexHome) :
    Except CleanupError (Option SessionIndexPlan) := do
  let liveThreadIds ← collectLiveThreadIds limits home
  match home.index with
  | .error _ => .error .unreadableIndex
  | .ok none => .ok none
  | .ok (some originalBytes) =>
    match Utf8Decoder.decode originalBytes with
    | none => .error .invalidUtf8
    | some originalText =>
      .ok (some { originalBytes, originalText, candidates := ghosts liveThreadIds originalText })

/-- The candidates of `preview`. -/
def previewCandidates (limits : ScanLimits) (home : CodexHome) :
    Except CleanupError (List SessionIndexCleanupCandidate) :=
  (buildPlan limits home).map fun plan => (plan.map (·.candidates)).getD []

/-! ## The clean-up -/

/-- How what `apply` waits for ends. -/
structure Checks where
  /-- Whether the signal is aborted at the start, before the plan is complete, and after that. -/
  abortedAtStart : Bool
  abortedInScan : Bool
  abortedAfter : Bool
  active : Bool
  desktopStopped : Bool
  lockAcquired : Bool
  backupWritten : Bool
  /-- The octets of the index when it is read again, twice. -/
  currentBytes : Option Bytes
  finalBytes : Option Bytes
  desktopStillStopped : Bool
  indexWritten : Bool

/-- `/^[a-f0-9]{64}$/`. -/
def isDigest (s : JsString) : Bool :=
  s.length = 64 && s.all fun c => Json.isDigit c || (0x61 ≤ c && c ≤ 0x66)

def ensure (condition : Bool) (error : CleanupError) : Except CleanupError Unit :=
  if condition then .ok () else .error error

/-- The octets that were read, which must be those of the plan. -/
def recheck (plan : SessionIndexPlan) : Option Bytes → Except CleanupError Unit
  | none => .error .recheckFailed
  | some bytes => ensure (bytes = plan.originalBytes) .changedAgain

/-- `confirmedThreadIds.map((id) => id.trim()).filter(Boolean)`. -/
def selectedIds (confirmedThreadIds : List JsString) : List JsString :=
  (confirmedThreadIds.map JsString.trim).filter (· ≠ [])

/-- `apply` up to the write: how many entries go, and the octets to write, if any. -/
def approve (sha256 : Bytes → JsString) (limits : ScanLimits) (checks : Checks)
    (expectedSnapshotSha256 : JsString) (confirmedThreadIds : List JsString) (home : CodexHome) :
    Except CleanupError (Nat × Option Bytes) := do
  ensure (isDigest expectedSnapshotSha256) .invalidPreview
  ensure (!checks.abortedAtStart) .aborted
  ensure (!checks.active) .running
  ensure checks.desktopStopped .desktopRunning
  ensure checks.lockAcquired .lockHeld
  ensure (!checks.abortedInScan) .aborted
  match ← buildPlan limits home with
  | none => .error .missingIndex
  | some plan =>
    ensure (sha256 plan.originalBytes = expectedSnapshotSha256) .changedSincePreview
    let selectedIds := selectedIds confirmedThreadIds
    ensure (selectedIds.all (· ∈ plan.candidates.map (·.id))) .notCandidates
    let (nextText, removedEntries) := filterSessionIndex plan.originalText selectedIds
    if removedEntries = 0 then return (0, none)
    else
      ensure (!checks.abortedAfter) .aborted
      ensure checks.backupWritten .backupFailed
      recheck plan checks.currentBytes
      ensure checks.desktopStillStopped .desktopRunning
      recheck plan checks.finalBytes
      ensure checks.indexWritten .writeFailed
      return (removedEntries, some (bufferFrom nextText))

/-- `CodexSessionIndexCleanupService.apply`: its result and the state it leaves. -/
def apply (sha256 : Bytes → JsString) (limits : ScanLimits) (checks : Checks)
    (expectedSnapshotSha256 : JsString) (confirmedThreadIds : List JsString) (home : CodexHome) :
    Except CleanupError Nat × CodexHome :=
  match approve sha256 limits checks expectedSnapshotSha256 confirmedThreadIds home with
  | .error error => (.error error, home)
  | .ok (prunedEntries, none) => (.ok prunedEntries, home)
  | .ok (prunedEntries, some bytes) => (.ok prunedEntries, { home with index := .ok (some bytes) })

end StonePlus.Codex
