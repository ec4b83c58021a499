import StonePlus.Js.Str
import StonePlus.Lib.Run

/-!
# StonePlus.Codex.MaintenanceLock

`codex/session-maintenance-lock.ts`: any number of processes that acquire the
lock directory, hold it, release it and die.

Every operation on the file system is one step, and steps of different calls
interleave.  A directory has a number, which no call knows: it tells the
directory that a call has judged from the one that is there when it acts.
-/

namespace StonePlus.Codex

abbrev Pid := Nat

structure LockOwner where
  pid : Pid
  token : JsString
  deriving DecidableEq

/-- `STALE_LOCK_FALLBACK_MS`. -/
def staleLockFallbackMs : Int := 15 * 60000

/-- A lock directory.  An owner file without a readable pid is none. -/
structure Directory where
  number : Nat
  mtimeMs : Int
  /-- `stone-owner.json`. -/
  stoneOwner : Option LockOwner
  /-- The pid of `owner.json`, which other programs write. -/
  compatibleOwner : Option Pid
  deriving DecidableEq

/-- The owner files, in the order they are read. -/
inductive OwnerFile
  | stone
  | compatible
  deriving DecidableEq

/-- What a call does next.  `found` and `judged` are the directories in which a
call has found a dead owner, or which it has found to be too old. -/
inductive Stage
  | making (attempt : Nat)
  | writing (directory : Nat) (since : Int)
  | abandoning (directory : Nat) (since : Int)
  | holding (directory : Nat)
  | releasing (directory : Nat)
  | removing (directory : Nat)
  | reading (attempt : Nat) (file : OwnerFile) (found : Option Nat)
  | probing (attempt : Nat) (file : OwnerFile) (found : Option Nat) (pid : Pid) (seen : Nat)
  | checkingAge (attempt : Nat)
  | detaching (attempt : Nat) (judged : Option Nat)
  | discarding (attempt : Nat)
  | ended
  deriving DecidableEq

/-- A call of `acquireCodexSessionMaintenanceLock`, and the lock it returns. -/
structure Call where
  pid : Pid
  token : JsString
  now : Int
  stage : Stage
  alive : Bool
  deriving DecidableEq

structure System where
  lock : Option Directory
  nextDirectory : Nat
  clock : Int
  calls : List Call
  deriving DecidableEq

/-! ## Steps of a call -/

def setStage (s : System) (index : Nat) (stage : Stage) : System :=
  { s with calls := s.calls.modify index fun call => { call with stage } }

/-- The next round of the loop. -/
def nextAttempt (attempt : Nat) : Stage :=
  if attempt + 1 < 4 then .making (attempt + 1) else .ended

def Directory.pid (directory : Directory) : OwnerFile → Option Pid
  | .stone => directory.stoneOwner.map LockOwner.pid
  | .compatible => directory.compatibleOwner

/-- The next owner file, or what follows from those that were read. -/
def nextFile (attempt : Nat) (found : Option Nat) : OwnerFile → Stage
  | .stone => .reading attempt .compatible found
  | .compatible =>
    match found with
    | some directory => .detaching attempt (some directory)
    | none => .checkingAge attempt

/-- A call takes its next step.  `result` is whether the operation succeeds, and
for a probe whether the process is alive. -/
def runCall (s : System) (index : Nat) (call : Call) (result : Bool) : System :=
  match call.stage with
  | .making attempt =>
    if !result then setStage s index .ended
    else
      match s.lock with
      | none =>
        setStage
          { s with
            lock := some ⟨s.nextDirectory, s.clock, none, none⟩
            nextDirectory := s.nextDirectory + 1 }
          index (.writing s.nextDirectory s.clock)
      | some _ => setStage s index (.reading attempt .stone none)
  | .writing directory since =>
    match s.lock with
    | some there =>
      if result then
        setStage
          { s with
            lock := some { there with
              stoneOwner := some ⟨call.pid, call.token⟩
              mtimeMs := s.clock } }
          index (.holding directory)
      else setStage s index (.abandoning directory since)
    | none => setStage s index (.abandoning directory since)
  | .abandoning _ _ =>
    setStage (if result then { s with lock := none } else s) index .ended
  | .releasing directory =>
    if (s.lock.bind Directory.stoneOwner) = some ⟨call.pid, call.token⟩ then
      setStage s index (.removing directory)
    else setStage s index .ended
  | .removing _ =>
    setStage (if result then { s with lock := none } else s) index .ended
  | .reading attempt file found =>
    match s.lock with
    | some there =>
      match there.pid file with
      | some pid => setStage s index (.probing attempt file found pid there.number)
      | none => setStage s index (nextFile attempt found file)
    | none => setStage s index (nextFile attempt found file)
  | .probing attempt file _ _ seen =>
    if result then setStage s index .ended
    else setStage s index (nextFile attempt (some seen) file)
  | .checkingAge attempt =>
    match s.lock with
    | some there =>
      if staleLockFallbackMs < call.now - there.mtimeMs then
        setStage s index (.detaching attempt (some there.number))
      else setStage s index .ended
    | none => setStage s index (.detaching attempt none)
  | .detaching attempt _ =>
    match s.lock with
    | none => setStage s index (nextAttempt attempt)
    | some _ =>
      if result then setStage { s with lock := none } index (.discarding attempt)
      else setStage s index .ended
  | .discarding attempt => setStage s index (nextAttempt attempt)
  | .holding _ | .ended => s

/-! ## The system -/

inductive Event
  /-- A process calls `acquireCodexSessionMaintenanceLock`. -/
  | acquire (pid : Pid) (token : JsString) (now : Int)
  | run (index : Nat) (result : Bool)
  /-- The holder of the lock releases it. -/
  | release (index : Nat)
  /-- A process dies. -/
  | die (pid : Pid)
  | tick (time : Int)

def release (s : System) (index : Nat) (call : Call) : System :=
  match call.stage with
  | .holding directory => setStage s index (.releasing directory)
  | _ => s

/-- The call, if its process is alive. -/
def System.call? (s : System) (index : Nat) : Option Call := (s.calls[index]?).filter Call.alive

def step (s : System) : Event → System
  | .acquire pid token now => { s with calls := s.calls ++ [⟨pid, token, now, .making 0, true⟩] }
  | .run index result =>
    match s.call? index with
    | some call => runCall s index call result
    | none => s
  | .release index =>
    match s.call? index with
    | some call => release s index call
    | none => s
  | .die pid =>
    { s with calls := s.calls.map fun call => if call.pid = pid then { call with alive := false } else call }
  | .tick time => { s with clock := time }

/-! ## What can happen -/

/-- A probe finds the process of a call that has not died. -/
def ProbesTruly (s : System) (result : Bool) : Stage → Prop
  | .probing _ _ _ pid _ => (∃ call ∈ s.calls, call.alive = true ∧ call.pid = pid) → result = true
  | _ => True

/-- When a call has made the directory and has not written its owner file yet,
nor removed the directory after that has failed. -/
def Stage.since? : Stage → Option Int
  | .writing _ since | .abandoning _ since => some since
  | _ => none

/-- The time that a call spends between making the directory and writing its
owner file is within the age at which a directory is stale. -/
def Prompt (time : Int) (call : Call) : Prop :=
  call.alive = true → ∀ since ∈ call.stage.since?, time ≤ since + staleLockFallbackMs

def Possible (s : System) : Event → Prop
  | .acquire _ _ now => now ≤ s.clock
  | .run index result => ∀ call ∈ s.call? index, ProbesTruly s result call.stage
  | .tick time => s.clock ≤ time ∧ ∀ call ∈ s.calls, Prompt time call
  | .release _ | .die _ => True

/-- A directory that is about to be detached is the one that was judged. -/
def Judged (s : System) : Stage → Prop
  | .detaching _ judged => ∀ there ∈ s.lock, judged = some there.number
  | _ => True

/-- The directory that a call detaches is the one it has judged. -/
def DetachesJudged (s : System) : Event → Prop
  | .run index _ => ∀ call ∈ s.call? index, Judged s call.stage
  | _ => True

/-- A system in which nobody has called for the lock; a directory may be left
from before. -/
structure Initial (s : System) : Prop where
  calls : s.calls = []
  number : ∀ there ∈ s.lock, there.number < s.nextDirectory

/-- No two calls of processes that are alive hold the lock. -/
def Exclusive (s : System) : Prop :=
  ∀ i j call call' directory directory', s.call? i = some call → s.call? j = some call' →
    call.stage = .holding directory → call'.stage = .holding directory' → i = j

end StonePlus.Codex
