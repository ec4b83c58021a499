import StonePlus.Js.Str
import StonePlus.Lib.Run
import Mathlib.Algebra.Order.Ring.Rat
import Mathlib.Data.Rat.Floor
import Mathlib.Logic.Function.Basic

/-!
# StonePlus.Tasks.Runner

Durable tasks: `PersistentTask` and what `tasks/persistent-task-runner.ts` does
with one row.

A finite number is the rational it denotes; what is undefined, infinite or not
a number is `none`.  Quotients and products are rounded by a `Rounding`, of
which only monotonicity and the exactness of 0, 1 and 100 is used.
-/

namespace StonePlus.Tasks

inductive PersistentTaskStatus
  | running
  | paused
  | cancelled
  | completed
  | failed
  deriving DecidableEq

def isTerminal (status : PersistentTaskStatus) : Bool :=
  status = .cancelled || status = .completed || status = .failed

/-- A status that a task keeps for good. -/
def isFinal (status : PersistentTaskStatus) : Bool := status = .completed || status = .cancelled

structure PersistentTaskProgress (V : Type) where
  completed : ℚ
  total : ℚ
  percent : ℚ
  message : Option JsString
  details : Option V
  deriving DecidableEq

/-- A row of the table of tasks; `V` are the values of payloads, results and
details. -/
structure PersistentTask (V : Type) where
  id : JsString
  kind : JsString
  status : PersistentTaskStatus
  payload : V
  progress : PersistentTaskProgress V
  result : Option V
  error : Option JsString
  resumable : Bool
  attempt : Nat
  createdAt : ℚ
  updatedAt : ℚ
  startedAt : Option ℚ
  finishedAt : Option ℚ
  deriving DecidableEq

structure PersistentTaskCreateInput (V : Type) where
  kind : JsString
  payload : V
  resumable : Option Bool
  total : Option ℚ

/-- A partial progress. -/
structure ProgressPatch (V : Type) where
  completed : Option ℚ
  total : Option ℚ
  percent : Option ℚ
  message : Option JsString
  details : Option V

/-! ## Numbers -/

/-- How quotients and products are rounded to a double. -/
structure Rounding where
  round : ℚ → ℚ
  mono : Monotone round
  round_zero : round 0 = 0
  round_one : round 1 = 1
  round_hundred : round 100 = 100

def finiteCount (value : Option ℚ) (fallback : ℚ) : ℚ :=
  match value with
  | some value => if 0 ≤ value then ⌊value⌋ else max 0 ⌊fallback⌋
  | none => max 0 ⌊fallback⌋

/-- `Math.round`. -/
def mathRound (x : ℚ) : ℚ := ⌊x + 1 / 2⌋

variable {V : Type} (rounding : Rounding)

/-- The progress after a checkpoint. -/
def patchProgress (current : PersistentTaskProgress V) (patch : ProgressPatch V) :
    PersistentTaskProgress V :=
  let total := finiteCount patch.total current.total
  let completed := max 0 (min total (finiteCount patch.completed current.completed))
  let percent := match patch.percent with
    | some percent => max 0 (min 100 percent)
    | none => mathRound (rounding.round (rounding.round (completed / max 1 total) * 100))
  { completed
    total
    percent
    message := patch.message.or current.message
    details := patch.details.or current.details }

/-! ## Kinds -/

/-- `[a-z0-9]` with the flag `i`. -/
def isAlphanumeric (c : UInt16) : Bool :=
  (0x30 ≤ c && c ≤ 0x39) || (0x41 ≤ c && c ≤ 0x5A) || (0x61 ≤ c && c ≤ 0x7A)

/-- `/^[a-z0-9][a-z0-9._-]*$/i`. -/
def isKind : JsString → Bool
  | [] => false
  | c :: cs => isAlphanumeric c && cs.all fun c => isAlphanumeric c || (js "._-").contains c

/-- `requiredKind`; `none` is the error. -/
def requiredKind (kind : JsString) : Option JsString :=
  let normalized := kind.trim
  if normalized = [] ∨ 80 < normalized.length ∨ !isKind normalized then none else some normalized

/-! ## Progress is in bounds -/

/-- Progress that can be shown. -/
structure PersistentTaskProgress.InBounds (progress : PersistentTaskProgress V) : Prop where
  completed_nonneg : 0 ≤ progress.completed
  completed_le : progress.completed ≤ progress.total
  percent_nonneg : 0 ≤ progress.percent
  percent_le : progress.percent ≤ 100

theorem finiteCount_nonneg (value : Option ℚ) (fallback : ℚ) : 0 ≤ finiteCount value fallback := by
  unfold finiteCount
  split
  · next value =>
    split
    · next h => exact_mod_cast Int.floor_nonneg.mpr h
    · exact le_max_left _ _
  · exact le_max_left _ _

variable {rounding}

/-- Rounding stays between the numbers it leaves alone. -/
theorem Rounding.round_mem (rounding : Rounding) (h : 0 ≤ x) (h' : x ≤ 1) :
    0 ≤ rounding.round x ∧ rounding.round x ≤ 1 := by
  constructor
  · rw [← rounding.round_zero]
    exact rounding.mono h
  · rw [← rounding.round_one]
    exact rounding.mono h'

theorem Rounding.round_percent_mem (rounding : Rounding) (h : 0 ≤ x) (h' : x ≤ 100) :
    0 ≤ rounding.round x ∧ rounding.round x ≤ 100 := by
  constructor
  · rw [← rounding.round_zero]
    exact rounding.mono h
  · rw [← rounding.round_hundred]
    exact rounding.mono h'

theorem mathRound_mem (h : 0 ≤ x) (h' : x ≤ 100) : 0 ≤ mathRound x ∧ mathRound x ≤ 100 := by
  unfold mathRound
  constructor
  · have hfloor : 0 ≤ ⌊x + 1 / 2⌋ := Int.floor_nonneg.mpr (by linarith)
    exact_mod_cast hfloor
  · have hfloor : ⌊x + 1 / 2⌋ < 101 := Int.floor_lt.mpr (by push_cast; linarith)
    have hle : ⌊x + 1 / 2⌋ ≤ 100 := by omega
    exact_mod_cast hle

/-- The percentage that a checkpoint computes. -/
theorem computedPercent_mem (h : 0 ≤ completed) (h' : completed ≤ total) :
    0 ≤ mathRound (rounding.round (rounding.round (completed / max 1 total) * 100)) ∧
      mathRound (rounding.round (rounding.round (completed / max 1 total) * 100)) ≤ 100 := by
  have hpos : (0 : ℚ) < max 1 total := lt_of_lt_of_le one_pos (le_max_left _ _)
  have hratio : 0 ≤ completed / max 1 total := div_nonneg h hpos.le
  have hratio' : completed / max 1 total ≤ 1 :=
    (div_le_one hpos).mpr (h'.trans (le_max_right _ _))
  obtain ⟨hround, hround'⟩ := rounding.round_mem hratio hratio'
  have hscaled : rounding.round (completed / max 1 total) * 100 ≤ 100 := by linarith
  obtain ⟨hpercent, hpercent'⟩ :=
    rounding.round_percent_mem (mul_nonneg hround (by norm_num)) hscaled
  exact mathRound_mem hpercent hpercent'

/-- A checkpoint keeps the progress in bounds, whatever it says. -/
theorem patchProgress_inBounds (current : PersistentTaskProgress V) (patch : ProgressPatch V) :
    (patchProgress rounding current patch).InBounds := by
  have htotal := finiteCount_nonneg patch.total current.total
  have hcompleted : 0 ≤ max 0 (min (finiteCount patch.total current.total)
      (finiteCount patch.completed current.completed)) := le_max_left _ _
  have hle : max 0 (min (finiteCount patch.total current.total)
      (finiteCount patch.completed current.completed)) ≤ finiteCount patch.total current.total :=
    max_le htotal (min_le_left _ _)
  refine ⟨hcompleted, hle, ?_, ?_⟩
  · unfold patchProgress
    dsimp only
    split
    · exact le_max_left _ _
    · exact (computedPercent_mem hcompleted hle).1
  · unfold patchProgress
    dsimp only
    split
    · exact max_le (by norm_num) (min_le_left _ _)
    · exact (computedPercent_mem hcompleted hle).2

end StonePlus.Tasks

/-!
## The runner

`PersistentTaskRunner` of `tasks/persistent-task-runner.ts`.

Transitions of one task run one after another, each from the row it reads to
the row it writes; a write to the store is atomic, and anything may happen while
one is awaited.  A recovery writes rows without waiting for the transitions.
Handlers are arbitrary: they write checkpoints and settle whenever they like.
-/

namespace StonePlus.Tasks

abbrev TaskId := JsString

/-- What a transition is to do. -/
inductive Operation (V : Type)
  | create (input : PersistentTaskCreateInput V)
  | pause
  | resume
  | cancel
  | checkpoint (execution : Nat) (patch : ProgressPatch V)
  | complete (execution : Nat) (result : V)
  | fail (execution : Nat) (interrupted : Bool) (error : JsString)

/-- How far a transition is: a row may still have to be written, and a handler
may have to be called after that. -/
inductive Stage (V : Type)
  | waiting
  | writing (row : PersistentTask V) (starts : Bool)
  | written (row : PersistentTask V) (starts : Bool)

structure Transition (V : Type) where
  ticket : Nat
  operation : Operation V
  stage : Stage V

inductive ExecutionStage
  | running
  | settling
  | finalizing
  | ended
  deriving DecidableEq

/-- One call of a handler. -/
structure Execution where
  task : TaskId
  aborted : Bool
  stage : ExecutionStage

inductive RecoveryStage (V : Type)
  | idle
  | writing (row : PersistentTask V) (resumes : Bool)
  | resuming (task : TaskId) (ticket : Nat)
  | ended

/-- One call of `recover`: the rows it has yet to look at. -/
structure Recovery (V : Type) where
  remaining : List (PersistentTask V)
  stage : RecoveryStage V

structure Runner (V : Type) where
  rows : TaskId → Option (PersistentTask V)
  handlers : List JsString
  active : TaskId → Option Nat
  chains : TaskId → List (Transition V)
  executions : List Execution
  recoveries : List (Recovery V)
  recoveryComplete : Bool
  /-- The executions that a cancellation has yet to abort. -/
  aborts : List Nat
  ticket : Nat
  /-- How often a handler has been called for the row. -/
  started : TaskId → Nat

/-- What the runner is given: rounding, and `sanitizeTaskError`. -/
structure Environment where
  rounding : Rounding
  sanitizeTaskError : JsString → JsString

def recoveryPendingError : JsString :=
  js "Task was interrupted and is waiting for its handler to resume."

variable {V : Type}

/-! ## What a transition does with the row it reads -/

/-- A transition throws, returns without writing, or writes a row and then
perhaps calls the handler. -/
inductive Plan (V : Type)
  | throws
  | returns
  | writes (row : PersistentTask V) (starts : Bool)

def createRow (id : TaskId) (now : ℚ) (input : PersistentTaskCreateInput V) (kind : JsString) :
    PersistentTask V :=
  { id
    kind
    status := .paused
    payload := input.payload
    progress := ⟨0, finiteCount input.total 1, 0, none, none⟩
    result := none
    error := none
    resumable := input.resumable.getD true
    attempt := 0
    createdAt := now
    updatedAt := now
    startedAt := none
    finishedAt := none }

def planCreate (s : Runner V) (id : TaskId) (now : ℚ) (input : PersistentTaskCreateInput V) : Plan V :=
  if (s.rows id).isSome then .throws
  else
    match requiredKind input.kind with
    | none => .throws
    | some kind => .writes (createRow id now input kind) false

def planPause (now : ℚ) (task : PersistentTask V) : Plan V :=
  if isTerminal task.status || task.status = .paused then .returns
  else .writes { task with status := .paused, updatedAt := now } false

/-- The row of a new attempt. -/
def startedRow (now : ℚ) (task : PersistentTask V) : PersistentTask V :=
  { task with
    status := .running
    error := none
    result := none
    attempt := task.attempt + 1
    startedAt := some now
    finishedAt := none
    updatedAt := now }

def planResume (s : Runner V) (id : TaskId) (now : ℚ) (task : PersistentTask V) : Plan V :=
  if isFinal task.status then .returns
  else if (s.active id).isSome then
    if task.status ≠ .paused then .returns
    else .writes { task with status := .running, error := none, updatedAt := now } false
  else if task.kind ∉ s.handlers then .throws
  else .writes (startedRow now task) true

def planCancel (now : ℚ) (task : PersistentTask V) : Plan V :=
  if isTerminal task.status then .returns
  else .writes { task with status := .cancelled, updatedAt := now, finishedAt := some now } false

def planCheckpoint (env : Environment) (now : ℚ) (aborted : Bool) (patch : ProgressPatch V)
    (task : PersistentTask V) : Plan V :=
  if aborted then .throws
  else if isTerminal task.status then .throws
  else
    .writes { task with
      progress := patchProgress env.rounding task.progress patch
      updatedAt := now } false

def planComplete (now : ℚ) (result : V) (task : PersistentTask V) : Plan V :=
  if isTerminal task.status then .returns
  else
    .writes { task with
      status := .completed
      progress := { task.progress with
        completed := task.progress.total
        percent := 100 }
      result := some result
      error := none
      updatedAt := now
      finishedAt := some now } false

def planFail (env : Environment) (now : ℚ) (interrupted : Bool) (error : JsString)
    (task : PersistentTask V) : Plan V :=
  if isTerminal task.status then .returns
  else if interrupted then .returns
  else
    .writes { task with
      status := .failed
      error := some (env.sanitizeTaskError error)
      updatedAt := now
      finishedAt := some now } false

/-- `requiredTask`, then a plan. -/
def withTask (s : Runner V) (id : TaskId) (plan : PersistentTask V → Plan V) : Plan V :=
  match s.rows id with
  | none => .throws
  | some task => plan task

def Runner.isAborted (s : Runner V) (execution : Nat) : Bool :=
  (s.executions[execution]?).any (·.aborted)

def plan (env : Environment) (s : Runner V) (id : TaskId) (now : ℚ) : Operation V → Plan V
  | .create input => planCreate s id now input
  | .pause => withTask s id (planPause now)
  | .resume => withTask s id (planResume s id now)
  | .cancel => withTask s id (planCancel now)
  | .checkpoint execution patch =>
      withTask s id (planCheckpoint env now (s.isAborted execution) patch)
  | .complete _ result => withTask s id (planComplete now result)
  | .fail _ interrupted error => withTask s id (planFail env now interrupted error)

/-! ## Chains -/

/-- `transition`: a new transition of a task waits for those before it. -/
def enqueue (s : Runner V) (id : TaskId) (operation : Operation V) : Runner V :=
  { s with
    chains := Function.update s.chains id (s.chains id ++ [⟨s.ticket, operation, .waiting⟩])
    ticket := s.ticket + 1 }

def enqueueAll (s : Runner V) (ids : List TaskId) (operation : Operation V) : Runner V :=
  ids.foldl (fun s id => enqueue s id operation) s

/-- The first transition of a task is over. -/
def dequeue (s : Runner V) (id : TaskId) : Runner V :=
  { s with chains := Function.update s.chains id (s.chains id).tail }

/-- The first transition of a task reaches a stage. -/
def setStage (s : Runner V) (id : TaskId) (transition : Transition V) (stage : Stage V) : Runner V :=
  { s with
    chains := Function.update s.chains id ({ transition with stage } :: (s.chains id).tail) }

/-- An execution goes on from one stage to the next. -/
def Execution.goOn (stage stage' : ExecutionStage) (e : Execution) : Execution :=
  if e.stage = stage then { e with stage := stage' } else e

def advance (s : Runner V) (execution : Nat) (stage stage' : ExecutionStage) : Runner V :=
  { s with executions := s.executions.modify execution (Execution.goOn stage stage') }

/-- A recovery that awaits a transition that throws throws too. -/
def Recovery.afterThrow (ticket : Nat) (recovery : Recovery V) : Recovery V :=
  match recovery.stage with
  | .resuming _ awaited => if awaited = ticket then { recovery with stage := .ended } else recovery
  | _ => recovery

/-- A transition ends without an error. -/
def returned (s : Runner V) (id : TaskId) (transition : Transition V) : Runner V :=
  match transition.operation with
  | .complete execution _ => advance (dequeue s id) execution .settling .finalizing
  | .fail execution _ _ => advance (dequeue s id) execution .settling .finalizing
  | _ => dequeue s id

/-- A transition throws.  A completion that throws fails the task. -/
def thrown (s : Runner V) (id : TaskId) (transition : Transition V) (error : JsString) : Runner V :=
  match transition.operation with
  | .complete execution _ => enqueue (dequeue s id) id (.fail execution false error)
  | .fail execution _ _ => advance (dequeue s id) execution .settling .finalizing
  | _ =>
      { dequeue s id with recoveries := s.recoveries.map (Recovery.afterThrow transition.ticket) }

/-- The first transition of a task reads the row. -/
def begin (env : Environment) (s : Runner V) (id : TaskId) (now : ℚ) : Runner V :=
  match s.chains id with
  | ⟨ticket, operation, .waiting⟩ :: _ =>
    match plan env s id now operation with
    | .throws =>
        thrown s id ⟨ticket, operation, .waiting⟩ (js "Persistent task not found.")
    | .returns => returned s id ⟨ticket, operation, .waiting⟩
    | .writes row starts => setStage s id ⟨ticket, operation, .waiting⟩ (.writing row starts)
  | _ => s

/-- Whether an operation makes a new row. -/
def Operation.creates : Operation V → Bool
  | .create _ => true
  | _ => false

/-- The store writes the row of a transition. -/
def write (s : Runner V) (id : TaskId) : Runner V :=
  match s.chains id with
  | ⟨ticket, operation, .writing row starts⟩ :: _ =>
    { setStage s id ⟨ticket, operation, .writing row starts⟩ (.written row starts) with
      rows := Function.update s.rows id (some row)
      started := if operation.creates then Function.update s.started id 0 else s.started }
  | _ => s

/-- The store rejects the write of a transition. -/
def writeFails (s : Runner V) (id : TaskId) (error : JsString) : Runner V :=
  match s.chains id with
  | ⟨ticket, operation, .writing row starts⟩ :: _ =>
      thrown s id ⟨ticket, operation, .writing row starts⟩ error
  | _ => s

/-- `execute`: the handler of a task is called. -/
def execute (s : Runner V) (id : TaskId) : Runner V :=
  { s with
    executions := s.executions ++ [⟨id, false, .running⟩]
    active := Function.update s.active id (some s.executions.length)
    started := Function.update s.started id (s.started id + 1) }

/-- What a cancellation captures to abort later. -/
def capture (s : Runner V) (id : TaskId) : Operation V → Runner V
  | .cancel => { s with aborts := s.aborts ++ (s.active id).toList }
  | _ => s

/-- A transition goes on after its write. -/
def finish (s : Runner V) (id : TaskId) : Runner V :=
  match s.chains id with
  | ⟨ticket, operation, .written row starts⟩ :: _ =>
    let s := capture s id operation
    let s := if starts then execute s id else s
    returned s id ⟨ticket, operation, .written row starts⟩
  | _ => s

/-! ## Handlers -/

/-- How a handler settles. -/
inductive Outcome (V : Type)
  | completes (result : V)
  | fails (interrupted : Bool) (error : JsString)

/-- A handler writes a checkpoint; it keeps its context for good. -/
def checkpoint (s : Runner V) (execution : Nat) (patch : ProgressPatch V) : Runner V :=
  match s.executions[execution]? with
  | some e => enqueue s e.task (.checkpoint execution patch)
  | none => s

/-- A handler settles. -/
def settle (s : Runner V) (execution : Nat) (outcome : Outcome V) : Runner V :=
  match s.executions[execution]? with
  | some ⟨task, _, .running⟩ =>
    enqueue (advance s execution .running .settling) task <|
      match outcome with
      | .completes result => .complete execution result
      | .fails interrupted error => .fail execution interrupted error
  | _ => s

/-- The execution is forgotten, as the last thing it does. -/
def finalize (s : Runner V) (execution : Nat) : Runner V :=
  match s.executions[execution]? with
  | some ⟨task, _, .finalizing⟩ =>
    let s := advance s execution .finalizing .ended
    if s.active task = some execution then { s with active := Function.update s.active task none }
    else s
  | _ => s

def abort (s : Runner V) (execution : Nat) : Runner V :=
  { s with executions := s.executions.modify execution fun e => { e with aborted := true } }

/-- A cancellation aborts what it has captured. -/
def abortCancelled (s : Runner V) : Runner V :=
  match s.aborts with
  | execution :: rest => abort { s with aborts := rest } execution
  | [] => s

/-- `interruptAllForShutdown`: every active execution is aborted. -/
def interruptAllForShutdown (s : Runner V) : Runner V :=
  { s with executions := s.executions.mapIdx fun index e =>
      if s.active e.task = some index then { e with aborted := true } else e }

/-! ## Recovery -/

/-- A listing of the store: some of its rows, each as it is now. -/
def IsListing (s : Runner V) (listing : List (PersistentTask V)) : Prop :=
  ∀ task ∈ listing, s.rows task.id = some task

/-- `recover` lists the rows. -/
def recover (s : Runner V) (listing : List (PersistentTask V)) : Runner V :=
  { s with recoveries := s.recoveries ++ [⟨listing, .idle⟩] }

/-- The row that a recovery writes over a running one. -/
def recoveredRow (s : Runner V) (now : ℚ) (task : PersistentTask V) : PersistentTask V × Bool :=
  if task.resumable ∧ task.kind ∈ s.handlers then
    ({ task with
      status := .paused
      error := some recoveryPendingError
      updatedAt := now }, true)
  else if task.resumable then
    ({ task with
      status := .paused
      error := some recoveryPendingError
      updatedAt := now }, false)
  else
    ({ task with
      status := .failed
      error := some (js "Task was interrupted by application restart.")
      updatedAt := now
      finishedAt := some now }, false)

/-- Whether a recovery goes on: the transition it awaits is over. -/
def Recovery.isReady (s : Runner V) (recovery : Recovery V) : Bool :=
  match recovery.stage with
  | .idle => true
  | .resuming task ticket => (s.chains task).all fun t => t.ticket ≠ ticket
  | .writing _ _ => false
  | .ended => false

def setRecovery (s : Runner V) (index : Nat) (recovery : Recovery V) : Runner V :=
  { s with recoveries := s.recoveries.set index recovery }

/-- A recovery looks at its next row. -/
def recoverNext (s : Runner V) (index : Nat) (now : ℚ) : Runner V :=
  match s.recoveries[index]? with
  | none => s
  | some recovery =>
    if !recovery.isReady s then s
    else
      match recovery.remaining with
      | [] => { setRecovery s index ⟨[], .ended⟩ with recoveryComplete := true }
      | task :: rest =>
        if task.status ≠ .running then setRecovery s index ⟨rest, .idle⟩
        else
          let (row, resumes) := recoveredRow s now task
          setRecovery s index ⟨rest, .writing row resumes⟩

/-- The store writes the row of a recovery, which then perhaps resumes it. -/
def recoverWrite (s : Runner V) (index : Nat) : Runner V :=
  match s.recoveries[index]? with
  | some ⟨rest, .writing row resumes⟩ =>
    let s := { s with rows := Function.update s.rows row.id (some row) }
    if resumes then enqueue (setRecovery s index ⟨rest, .resuming row.id s.ticket⟩) row.id .resume
    else setRecovery s index ⟨rest, .idle⟩
  | _ => s

/-- The store rejects the write of a recovery. -/
def recoverWriteFails (s : Runner V) (index : Nat) : Runner V :=
  match s.recoveries[index]? with
  | some ⟨rest, .writing _ _⟩ => setRecovery s index ⟨rest, .ended⟩
  | _ => s

/-- `register`: rows that wait for the handler are resumed. -/
def register (s : Runner V) (kind : JsString) (listing : List (PersistentTask V)) : Runner V :=
  match requiredKind kind with
  | none => s
  | some normalized =>
    if normalized ∈ s.handlers then s
    else
      let registered := { s with handlers := normalized :: s.handlers }
      if s.recoveryComplete then
        let waiting := listing.filter fun task => task.kind = normalized ∧ task.status = .paused ∧
          task.error = some recoveryPendingError
        enqueueAll registered (waiting.map (·.id)) .resume
      else registered

def unregister (s : Runner V) (kind : JsString) : Runner V :=
  { s with handlers := s.handlers.filter (· ≠ kind) }

def deletePersistentTask (s : Runner V) (id : TaskId) : Runner V :=
  { s with rows := Function.update s.rows id none }

/-! ## Steps -/

/-- What can happen next. -/
inductive Event (V : Type)
  | create (id : TaskId) (input : PersistentTaskCreateInput V)
  | pause (id : TaskId)
  | resume (id : TaskId)
  | cancel (id : TaskId)
  | checkpoint (execution : Nat) (patch : ProgressPatch V)
  | settle (execution : Nat) (outcome : Outcome V)
  | begin (id : TaskId) (now : ℚ)
  | write (id : TaskId)
  | writeFails (id : TaskId) (error : JsString)
  | finish (id : TaskId)
  | finalize (execution : Nat)
  | abortCancelled
  | interruptAllForShutdown
  | recover (listing : List (PersistentTask V))
  | recoverNext (index : Nat) (now : ℚ)
  | recoverWrite (index : Nat)
  | recoverWriteFails (index : Nat)
  | register (kind : JsString) (listing : List (PersistentTask V))
  | unregister (kind : JsString)
  | deletePersistentTask (id : TaskId)

def step (env : Environment) (s : Runner V) : Event V → Runner V
  | .create id input => enqueue s id (.create input)
  | .pause id => enqueue s id .pause
  | .resume id => enqueue s id .resume
  | .cancel id => enqueue s id .cancel
  | .checkpoint execution patch => checkpoint s execution patch
  | .settle execution outcome => settle s execution outcome
  | .begin id now => begin env s id now
  | .write id => write s id
  | .writeFails id error => writeFails s id error
  | .finish id => finish s id
  | .finalize execution => finalize s execution
  | .abortCancelled => abortCancelled s
  | .interruptAllForShutdown => interruptAllForShutdown s
  | .recover listing => recover s listing
  | .recoverNext index now => recoverNext s index now
  | .recoverWrite index => recoverWrite s index
  | .recoverWriteFails index => recoverWriteFails s index
  | .register kind listing => register s kind listing
  | .unregister kind => unregister s kind
  | .deletePersistentTask id => deletePersistentTask s id

instance [DecidableEq V] (s : Runner V) (listing : List (PersistentTask V)) :
    Decidable (IsListing s listing) :=
  inferInstanceAs (Decidable (∀ task ∈ listing, _))

/-- A listing is one of the store. -/
def Possible (s : Runner V) : Event V → Prop
  | .recover listing => IsListing s listing
  | .register _ listing => IsListing s listing
  | _ => True

instance [DecidableEq V] (s : Runner V) : (event : Event V) → Decidable (Possible s event)
  | .recover listing => inferInstanceAs (Decidable (IsListing s listing))
  | .register _ listing => inferInstanceAs (Decidable (IsListing s listing))
  | .create _ _ | .pause _ | .resume _ | .cancel _ | .checkpoint _ _ | .settle _ _ | .begin _ _
  | .write _ | .writeFails _ _ | .finish _ | .finalize _ | .abortCancelled
  | .interruptAllForShutdown | .recoverNext _ _ | .recoverWrite _ | .recoverWriteFails _
  | .unregister _ | .deletePersistentTask _ => .isTrue trivial

end StonePlus.Tasks
