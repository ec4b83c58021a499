import StonePlus.Js.Map
import StonePlus.Js.Str
import StonePlus.Lib.Run
import Mathlib.Data.List.Sort
import Mathlib.Data.Rat.Floor
import Mathlib.Logic.Function.Basic

/-!
# StonePlus.RequestLogs.Store

The table `request_logs` of `store/sqlite-state-store.ts`: its rows with their
ordinals, and the statements the store runs on it.

A table is a set of rows; the list that holds them here has no order of its
own, so everything that reads rows in order sorts them by their ordinals.
-/

namespace StonePlus.RequestLogs

/-- A request log: its id, and the rest of what `JSON.stringify` writes of it. -/
structure Log (P : Type) where
  id : JsString
  payload : P
  deriving DecidableEq

/-! ## Limits -/

/-- A number, as far as `Math.min`, `>`, `splice` and `OFFSET` can tell. -/
inductive RowLimit
  | nan
  | infinity (negative : Bool)
  | finite (value : ℚ)
  deriving DecidableEq

namespace RowLimit

/-- `Math.min` of two numbers. -/
def min : RowLimit → RowLimit → RowLimit
  | .nan, _ | _, .nan => .nan
  | .infinity true, _ | _, .infinity true => .infinity true
  | .infinity false, b => b
  | a, .infinity false => a
  | .finite p, .finite q => .finite (if p ≤ q then p else q)

/-- `count > limit`. -/
def isExceededBy (limit : RowLimit) (count : Nat) : Bool :=
  match limit with
  | .nan | .infinity false => false
  | .infinity true => true
  | .finite q => q < count

/-- What `OFFSET` makes of a bound number; `none` for a datatype mismatch. -/
def offset? : RowLimit → Option Nat
  | .nan | .infinity _ => none
  | .finite q => if q.den = 1 ∧ -2 ^ 63 ≤ q.num ∧ q.num < 2 ^ 63 then some q.num.toNat else none

/-- Where `splice(limit)` starts to remove in an array. -/
def spliceStart (limit : RowLimit) (length : Nat) : Nat :=
  match limit with
  | .nan | .infinity true => 0
  | .infinity false => length
  | .finite q =>
    let start : Int := if 0 ≤ q then ⌊q⌋ else ⌈q⌉
    if start < 0 then (length + start).toNat else Min.min start.toNat length

/-- A limit that is not negative. -/
def IsCount : RowLimit → Prop
  | .nan | .infinity true => False
  | .infinity false => True
  | .finite q => 0 ≤ q

instance : DecidablePred IsCount
  | .nan | .infinity true => .isFalse id
  | .infinity false => .isTrue trivial
  | .finite q => inferInstanceAs (Decidable (0 ≤ q))

end RowLimit

/-! ## Rows -/

structure Row (P : Type) where
  id : JsString
  ordinal : Int
  payload : P

variable {P : Type}

def Row.log (row : Row P) : Log P := ⟨row.id, row.payload⟩

/-- `ORDER BY ordinal`. -/
def inOrder (table : List (Row P)) : List (Row P) :=
  table.insertionSort fun a b => a.ordinal ≤ b.ordinal

/-- `COALESCE((SELECT MIN(ordinal) - 1 FROM request_logs), 0)`. -/
def nextOrdinal (table : List (Row P)) : Int :=
  match (table.map Row.ordinal).min? with
  | some ordinal => ordinal - 1
  | none => 0

/-- `UPDATE request_logs SET payload = ? WHERE id = ?`. -/
def updateRow (table : List (Row P)) (log : Log P) : List (Row P) :=
  table.map fun row => if row.id = log.id then { row with payload := log.payload } else row

/-- `INSERT INTO request_logs … ON CONFLICT(id) DO UPDATE SET payload = excluded.payload`. -/
def upsertRow (table : List (Row P)) (log : Log P) : List (Row P) :=
  if table.any fun row => row.id = log.id then updateRow table log
  else ⟨log.id, nextOrdinal table, log.payload⟩ :: table

/-- `DELETE … WHERE id IN (SELECT id … ORDER BY ordinal LIMIT -1 OFFSET ?)`. -/
def deleteBeyond (table : List (Row P)) (offset : Nat) : List (Row P) :=
  let dropped := ((inOrder table).drop offset).map Row.id
  table.filter fun row => row.id ∉ dropped

/-- `replaceJsonRows`; `none` if two rows have one id. -/
def replaceJsonRows (logs : List (Log P)) : Option (List (Row P)) :=
  if (logs.map Log.id).Nodup then
    some (logs.mapIdx fun index log => ⟨log.id, index, log.payload⟩)
  else none

end StonePlus.RequestLogs

/-!
## The store

The request logs of `SqliteStateStore`: the table, the array and the index in
memory, the appends that wait for a flush, and the chain of writes.

The array and the index share the objects they hold, so that an update in place
is one.  Every write of
the chain is one step, which commits or fails as a whole; anything may be
called between two steps.  The ledger of token costs is a parameter.
-/

namespace StonePlus.RequestLogs

/-- How the ledger is kept: `applyLifetimeTokenCostReplacements`, which is given
the version of a log that it counts already and the one it is to count. -/
abbrev Accounting (P L : Type) := L → List (Option (Log P) × Log P) → L

/-- An append that waits for a flush, and the calls it answers. -/
structure PendingLog (P : Type) where
  log : Log P
  maximumRows : RowLimit
  /-- The call that gave the log. -/
  version : Nat
  completions : List Nat

/-- A write that is called for. -/
inductive Write (P : Type)
  | clearRequestLogs (trackedIds : List JsString)
  | replaceLifetimeRequestLogContribution (next : Log P) (previous : Option (Log P))
  | updateRequestLogs (transform : Log P → Option (Log P))
  /-- `mutate` with the section `requestLogs`: what its mutator and the
  normalizer make of the logs, if they do not throw. -/
  | mutate (mutator : List (Log P) → Option (List (Log P)))
  /-- A write of other tables. -/
  | other

/-- A write of the chain. -/
inductive Operation (P : Type)
  | flush
  | write (write : Write P)

/-- How a promise of the store is settled. -/
inductive Settlement (P : Type)
  | resolved
  | cleared (trackedLogs : List (Log P))
  | rejected

/-- What memory holds of the table: an object is a reference into `objects`. -/
structure Memory (P : Type) where
  objects : Nat → Option (Log P)
  nextObject : Nat
  requestLogs : List Nat
  requestLogsById : JsString → Option Nat

structure Store (P L : Type) where
  table : List (Row P)
  memory : Memory P
  ledger : L
  pendingRequestLogs : JsMap JsString (PendingLog P)
  requestLogFlushScheduled : Bool
  /-- The writes that have not run yet, each with its promise. -/
  chain : List (Nat × Operation P)
  nextPromise : Nat
  settled : Nat → Option (Settlement P)
  /-- The calls of `appendRequestLog`. -/
  appended : Nat → Option (Log P)
  /-- The calls whose log a committed flush has written. -/
  written : List Nat
  /-- The limit of the last flush, unless a mutation has replaced the logs since. -/
  retainedRows : Option RowLimit

variable {P L : Type}

/-- The logs of the array. -/
def Memory.logs (m : Memory P) : List (Log P) := m.requestLogs.filterMap m.objects

/-- `requestLogsById.get(id)`. -/
def Memory.logById (m : Memory P) (id : JsString) : Option (Log P) :=
  (m.requestLogsById id).bind m.objects

/-- `rebuildRequestLogLookup` for an array of new objects, the first of them `first`. -/
def Memory.ofLogs (objects : Nat → Option (Log P)) (first : Nat) (logs : List (Log P)) : Memory P where
  objects reference := if reference < first then objects reference else logs[reference - first]?
  nextObject := first + logs.length
  requestLogs := List.range' first logs.length
  requestLogsById id := (logs.findIdx? fun log => log.id = id).map (first + ·)

/-- A store that has read its table. -/
def Store.load (table : List (Row P)) (ledger : L) : Store P L where
  table := table
  memory := .ofLogs (fun _ => none) 0 ((inOrder table).map Row.log)
  ledger := ledger
  pendingRequestLogs := ∅
  requestLogFlushScheduled := false
  chain := []
  nextPromise := 0
  settled _ := none
  appended _ := none
  written := []
  retainedRows := none

/-! ## Calls -/

def Store.enqueue (s : Store P L) (operation : Operation P) : Store P L :=
  { s with
    chain := s.chain ++ [(s.nextPromise, operation)]
    nextPromise := s.nextPromise + 1 }

def scheduleRequestLogFlush (s : Store P L) : Store P L :=
  if s.requestLogFlushScheduled then s
  else { s.enqueue .flush with requestLogFlushScheduled := true }

def appendRequestLog (s : Store P L) (log : Log P) (maximumRows : RowLimit) : Store P L :=
  let call := s.nextPromise
  let entry : PendingLog P :=
    match s.pendingRequestLogs.get? log.id with
    | some pending =>
        { log
          maximumRows := pending.maximumRows.min maximumRows
          version := call
          completions := pending.completions ++ [call] }
    | none => ⟨log, maximumRows, call, [call]⟩
  scheduleRequestLogFlush { s with
    pendingRequestLogs := s.pendingRequestLogs.set log.id entry
    nextPromise := call + 1
    appended := Function.update s.appended call (some log) }

/-- The `finally` of a flush that has run. -/
def rearmFlush (s : Store P L) : Store P L :=
  if s.requestLogFlushScheduled ∧ s.chain.all fun entry => !entry.2 matches .flush then
    let s := { s with requestLogFlushScheduled := false }
    if s.pendingRequestLogs.size > 0 then scheduleRequestLogFlush s else s
  else s

/-! ## Writes -/

def Store.settle (s : Store P L) (promises : List Nat) (settlement : Settlement P) : Store P L :=
  { s with settled := fun promise =>
      if promise ∈ promises then some settlement else s.settled promise }

/-- The transaction of a flush: `none` if a statement fails. -/
def flushTable (table : List (Row P)) (memory : Memory P) (logs : List (Log P))
    (retainedRows : RowLimit) : Option (List (Row P)) :=
  let insertedCount := (logs.filter fun log => (memory.requestLogsById log.id).isNone).length
  if retainedRows.isExceededBy (memory.requestLogs.length + insertedCount) then
    retainedRows.offset?.map (deleteBeyond (logs.foldl upsertRow table))
  else some (logs.foldl upsertRow table)

/-- One log of a batch in memory: an update in place, or a new object. -/
def absorb (m : Memory P) (inserted : List Nat) (log : Log P) : Memory P × List Nat :=
  match m.requestLogsById log.id with
  | some existing => ({ m with objects := Function.update m.objects existing (some log) }, inserted)
  | none =>
      ({ m with
          objects := Function.update m.objects m.nextObject (some log)
          nextObject := m.nextObject + 1
          requestLogsById := Function.update m.requestLogsById log.id (some m.nextObject) },
        m.nextObject :: inserted)

def absorbAll (m : Memory P) (inserted : List Nat) : List (Log P) → Memory P × List Nat
  | [] => (m, inserted)
  | log :: logs =>
      let absorbed := absorb m inserted log
      absorbAll absorbed.1 absorbed.2 logs

/-- A removed object leaves the index. -/
def forget (m : Memory P) (removed : Nat) : Memory P :=
  match m.objects removed with
  | none => m
  | some log =>
    if m.requestLogsById log.id = some removed then
      { m with requestLogsById := Function.update m.requestLogsById log.id none }
    else m

/-- `splice(retainedRows)`. -/
def spliceLogs (m : Memory P) (retainedRows : RowLimit) : Memory P :=
  let start := retainedRows.spliceStart m.requestLogs.length
  let removed := m.requestLogs.drop start
  removed.foldl forget { m with requestLogs := m.requestLogs.take start }

/-- A flush in memory, once its transaction has committed. -/
def flushMemory (m : Memory P) (logs : List (Log P)) (retainedRows : RowLimit) : Memory P :=
  let absorbed := absorbAll m [] logs
  spliceLogs { absorbed.1 with requestLogs := absorbed.2 ++ m.requestLogs } retainedRows

/-- The logs that `updateRequestLogs` replaces: `none` if one changes its id. -/
def replacements (transform : Log P → Option (Log P)) : List (Log P) → Option (List (Log P))
  | [] => some []
  | log :: logs =>
    match transform log with
    | none => replacements transform logs
    | some replacement =>
      if replacement.id = log.id then (replacements transform logs).map (replacement :: ·) else none

/-- `replaceIdentifiedObject` on the object of a log, if there is one. -/
def replaceObject (m : Memory P) (log : Log P) : Memory P :=
  match m.requestLogsById log.id with
  | some existing => { m with objects := Function.update m.objects existing (some log) }
  | none => m

variable (accounting : Accounting P L)

/-- `Math.min` of the limits of a batch. -/
def batchLimit (batch : List (PendingLog P)) : RowLimit :=
  batch.foldl (fun limit entry => limit.min entry.maximumRows) (.infinity false)

/-- A flush whose transaction has committed with this table. -/
def commitFlush (s : Store P L) (batch : List (PendingLog P)) (table : List (Row P)) : Store P L :=
  let logs := batch.map PendingLog.log
  { s with
    table
    memory := flushMemory s.memory logs (batchLimit batch)
    ledger := accounting s.ledger (logs.map fun log : Log P => (s.memory.logById log.id, log))
    written := s.written ++ batch.map PendingLog.version
    retainedRows := some (batchLimit batch) }.settle (batch.flatMap PendingLog.completions) .resolved

/-- A flush runs. -/
def runFlush (s : Store P L) (succeeds : Bool) : Store P L :=
  let batch := s.pendingRequestLogs.values
  let s := { s with pendingRequestLogs := ∅ }
  if batch.isEmpty then s
  else
    match if succeeds then flushTable s.table s.memory (batch.map PendingLog.log) (batchLimit batch)
      else none with
    | some table => commitFlush accounting s batch table
    | none => s.settle (batch.flatMap PendingLog.completions) .rejected

/-- The transaction of `updateRequestLogs` has committed. -/
def commitUpdate (s : Store P L) (replaced : List (Log P)) : Store P L :=
  if replaced.isEmpty then s
  else { s with
    table := replaced.foldl updateRow s.table
    memory := replaced.foldl replaceObject s.memory
    ledger := accounting s.ledger (replaced.map fun log => (s.memory.logById log.id, log)) }

/-- A mutation has replaced the logs. -/
def commitMutation (s : Store P L) (logs : List (Log P)) (table : List (Row P)) : Store P L :=
  let previous (log : Log P) : Option (Log P) :=
    s.memory.logs.reverse.find? fun old => old.id = log.id
  { s with
    table
    memory := .ofLogs s.memory.objects s.memory.nextObject logs
    ledger := accounting s.ledger (logs.map fun log => (previous log, log))
    retainedRows := none }

/-- A write that was called for runs. -/
def runWrite (s : Store P L) (promise : Nat) (succeeds : Bool) : Write P → Store P L
  | .clearRequestLogs trackedIds =>
    if succeeds then
      { s with
        table := []
        memory := { s.memory with
          requestLogs := []
          requestLogsById := fun _ => none } }.settle [promise]
        (.cleared (s.memory.logs.filter fun log => log.id ∈ trackedIds))
    else s.settle [promise] .rejected
  | .replaceLifetimeRequestLogContribution next previous =>
    if succeeds then
      { s with ledger := accounting s.ledger [(previous, next)] }.settle [promise] .resolved
    else s.settle [promise] .rejected
  | .updateRequestLogs transform =>
    match if succeeds then replacements transform s.memory.logs else none with
    | some replaced =>
      if replaced.all fun log => s.table.any fun row => row.id = log.id then
        (commitUpdate accounting s replaced).settle [promise] .resolved
      else s.settle [promise] .rejected
    | none => s.settle [promise] .rejected
  | .mutate mutator =>
    match if succeeds then mutator s.memory.logs else none with
    | some logs =>
      match replaceJsonRows logs with
      | some table => (commitMutation accounting s logs table).settle [promise] .resolved
      | none => s.settle [promise] .rejected
    | none => s.settle [promise] .rejected
  | .other => s.settle [promise] (if succeeds then .resolved else .rejected)

/-- The first write of the chain runs. -/
def runFirst (s : Store P L) (succeeds : Bool) : Store P L :=
  match s.chain with
  | [] => s
  | (_, .flush) :: chain => runFlush accounting { s with chain } succeeds
  | (promise, .write write) :: chain => runWrite accounting { s with chain } promise succeeds write

inductive Event (P : Type)
  | appendRequestLog (log : Log P) (maximumRows : RowLimit)
  /-- Any other write is called. -/
  | call (write : Write P)
  | run (succeeds : Bool)
  | rearm

def step (s : Store P L) : Event P → Store P L
  | .appendRequestLog log maximumRows => appendRequestLog s log maximumRows
  | .call write => s.enqueue (.write write)
  | .run succeeds => runFirst accounting s succeeds
  | .rearm => rearmFlush s

end StonePlus.RequestLogs
