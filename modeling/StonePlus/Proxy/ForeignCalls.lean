import StonePlus.Proxy.SystemProxyLease

/-!
# StonePlus.Proxy.ForeignCalls

What a call that is rejected does to a lease that is active: all rejections but that of a target
that cannot be normalized go through `fail`, which takes the lease out of the active state.
-/

namespace StonePlus.Proxy

variable {N : Type}

/-- The lease is active, and no operation is running. -/
structure IsActive (p : Process N) (target : LeaseTarget) (record : RecoveryRecord N) : Prop where
  status : p.status = .active
  target : p.target = some target
  record : p.record = some record
  awaiting : p.awaiting = none

/-- The call is not the owner's: another target or another lease is meant, or none. -/
def IsForeign (target : LeaseTarget) (record : RecoveryRecord N) : Operation → Prop
  | .acquire target' => target' ≠ some target
  | .recoverStaleLease => True
  | .verifyActive target' expectedLeaseId =>
    target' ≠ some target ∨ expectedLeaseId ≠ record.leaseId
  | .release | .verifyFromMonitor .. => False

/-- The target of the call cannot be normalized. -/
def Operation.isUnreadable : Operation → Bool
  | .acquire none | .verifyActive none _ => true
  | _ => false

/-- `verifyActive` with a lease that is still applied. -/
def verifyApplied [DecidableEq N] (verifies : Bool) (s : System N) (target : LeaseTarget)
    (expectedLeaseId : JsString) : System N :=
  let s := withProcess s (verifyActiveExclusive verifies · target (some expectedLeaseId))
  match s.process.awaiting with
  | some awaiting => settle verifies s awaiting (.verdict true)
  | none => s

/-- The lease and its monitor are as they were, so that its owner can verify it. -/
structure LeavesLease [DecidableEq N] (verifies : Bool) (s s' : System N) (target : LeaseTarget)
    (record : RecoveryRecord N) : Prop where
  verifies : (verifyApplied verifies s' target record.leaseId).process.status = .active
  status : s'.process.status = s.process.status
  target : s'.process.target = s.process.target
  record : s'.process.record = s.process.record
  monitor : s'.process.activeLeaseMonitor = s.process.activeLeaseMonitor ∧
    s'.process.activeLeaseMonitorEpoch = s.process.activeLeaseMonitorEpoch

variable {verifies : Bool} {s : System N} {p : Process N} {target : LeaseTarget}
  {record : RecoveryRecord N} {operation : Operation}

theorem status_verifyApplied [DecidableEq N] (h : IsActive s.process target record) :
    (verifyApplied verifies s target record.leaseId).process.status = .active := by
  have hverify : verifyActiveExclusive verifies s.process target (some record.leaseId) =
      if verifies then await s.process (.verifyApplied record) else finish s.process := by
    simp [verifyActiveExclusive, h.status, h.target, h.record]
  cases verifies with
  | true => simp [verifyApplied, withProcess, hverify, await, settle, finish, h.status]
  | false => simp [verifyApplied, withProcess, hverify, finish, h.status]

theorem start_foreign (h : IsActive p target record) (hforeign : IsForeign target record operation) :
    start verifies p operation =
      if operation.isUnreadable then finish p
      else fail p (match operation with
        | .verifyActive .. => .applyFailed
        | _ => .leaseAlreadyActive) := by
  cases operation with
  | acquire target' =>
    cases target' with
    | none => rfl
    | some target' =>
      have hother : target ≠ target' := by
        rintro rfl
        exact hforeign rfl
      simp [start, h.status, h.target, h.record, hother, Operation.isUnreadable]
  | release => exact hforeign.elim
  | recoverStaleLease => simp [start, h.status, Operation.isUnreadable]
  | verifyActive target' expectedLeaseId =>
    cases target' with
    | none => rfl
    | some target' =>
      have hother : target = target' → record.leaseId ≠ expectedLeaseId := by
        rintro rfl heq
        rcases hforeign with hne | hne
        · exact hne rfl
        · exact hne heq.symm
      have hrejects : p.target ≠ some target' ∨ record.leaseId ≠ expectedLeaseId := by
        rw [h.target]
        by_cases htarget : target = target'
        · exact .inr (hother htarget)
        · exact .inl (by simpa using htarget)
      simp [start, verifyActiveExclusive, h.record, hrejects, Operation.isUnreadable]
  | verifyFromMonitor => exact hforeign.elim

/-- In every state that is reached, a foreign call that starts while the lease is active leaves it
alone if and only if its target cannot be normalized. -/
theorem leavesLease_iff [DecidableEq N] (verifies : Bool) (events : List (Event N)) (target : LeaseTarget)
    (record : RecoveryRecord N) (operation : Operation) (queue : List Operation) :
    let s := Lib.run (step verifies) System.initial events
    IsActive s.process target record → s.process.queue = operation :: queue →
      IsForeign target record operation →
        (LeavesLease verifies s (step verifies s .startNext) target record ↔
          operation.isUnreadable = true) := by
  intro s hactive hqueue hforeign
  have hactive' : IsActive { s.process with queue := queue } target record :=
    ⟨hactive.status, hactive.target, hactive.record, hactive.awaiting⟩
  have hstart : step verifies s .startNext =
      { s with process := start verifies { s.process with queue := queue } operation } := by
    simp [step, startNext, hactive.awaiting, hqueue]
  rw [hstart, start_foreign hactive' hforeign]
  constructor
  · intro h
    by_contra hreadable
    have hstatus := h.status
    rw [if_neg hreadable, hactive.status] at hstatus
    contradiction
  · intro hunreadable
    rw [if_pos hunreadable]
    exact ⟨status_verifyApplied ⟨hactive.status, hactive.target, hactive.record, rfl⟩,
      rfl, rfl, rfl, rfl, rfl⟩

/-- The run that takes a lease and starts its monitor. -/
def takeLease : List (Event Nat) :=
  [.call (.acquire (some ⟨js "http://127.0.0.1:7890", []⟩)), .startNext, .settle .loaded,
    .settle (.snapshot 3), .settle (.mixed 4 (js "lease") 1), .settle .saved, .settle .done,
    .settle (.verdict true), .startMonitoring]

def takenTarget : LeaseTarget := ⟨js "http://127.0.0.1:7890", []⟩

def takenRecord : RecoveryRecord Nat := ⟨js "lease", 1, js "http://127.0.0.1:7890", 3, 4⟩

/-- A call for a target that cannot be normalized. -/
theorem leavesLease_iff_unreadable :
    let events := takeLease ++ [.call (.acquire none)]
    let s := Lib.run (step true) System.initial events
    (IsActive s.process takenTarget takenRecord ∧ s.process.queue = [.acquire none] ∧
      IsForeign takenTarget takenRecord (.acquire none)) ∧
      (LeavesLease true s (step true s .startNext) takenTarget takenRecord ↔
        (Operation.acquire none).isUnreadable = true) := by
  intro events s
  have hactive : IsActive s.process takenTarget takenRecord :=
    ⟨by decide +kernel, by decide +kernel, by decide +kernel, by decide +kernel⟩
  have hqueue : s.process.queue = [.acquire none] := rfl
  have hforeign : IsForeign takenTarget takenRecord (.acquire none) := by simp [IsForeign]
  exact ⟨⟨hactive, hqueue, hforeign⟩,
    leavesLease_iff true events takenTarget takenRecord (.acquire none) [] hactive hqueue hforeign⟩

/-- `recoverStaleLease` is rejected because the lease is active, and then it is not any more. -/
theorem leavesLease_fails :
    let s := Lib.run (step true) System.initial (takeLease ++ [.call .recoverStaleLease])
    IsActive s.process takenTarget takenRecord ∧
      ¬ LeavesLease true s (step true s .startNext) takenTarget takenRecord := by
  intro s
  refine ⟨⟨by decide +kernel, by decide +kernel, by decide +kernel, by decide +kernel⟩, fun h => ?_⟩
  have hstatus := h.status
  revert hstatus
  decide +kernel

end StonePlus.Proxy
