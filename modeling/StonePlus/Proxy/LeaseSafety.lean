import StonePlus.Proxy.SystemProxyLease

/-!
# StonePlus.Proxy.LeaseSafety

A lease of the system's proxy settings can be undone at any time: while it is
applied, the journal holds its record.
-/

namespace StonePlus.Proxy

variable {N : Type}

/-- What holds of the leases in every state. -/
structure Recoverable (s : System N) : Prop where
  /-- The journal has the record of a lease that is applied, with the settings
  that were captured last. -/
  journaled : ∀ record ∈ s.outstanding,
    s.journal = some record ∧ s.lastCaptured = some record.original
  /-- Settings are captured while no lease is applied. -/
  captured : ∀ target, s.process.awaiting = some (.captureSnapshot target) → s.outstanding = []
  /-- A lease that is being restored is the last one that was journaled. -/
  restores : ∀ record next, s.process.awaiting = some (.compareAndApplySnapshot record next) →
    s.lastJournaled = some record

/-! ## The invariant -/

/-- What holds while a call is awaited. -/
def AwaitingOk (s : System N) : Awaiting N → Prop
  | .load _ => s.process.record = none
  | .compareAndApplySnapshot record _ => s.process.record = some record
  | .clear record _ _ => s.process.record = some record ∧ s.outstanding = []
  | .captureSnapshot _ => s.process.record = none ∧ s.outstanding = []
  | .createMixedProxySnapshot _ original =>
    s.process.record = none ∧ s.outstanding = [] ∧ s.lastCaptured = some original
  | .save record =>
    s.process.record = none ∧ s.outstanding = [] ∧ s.lastCaptured = some record.original
  | .applySnapshot _ | .confirmApplied _ | .verifyApplied _ | .monitorApplied _ _ _ => True

structure Inv (s : System N) : Prop where
  journaled : ∀ record ∈ s.outstanding,
    s.journal = some record ∧ s.lastCaptured = some record.original
  journal : ∀ record, s.journal = some record → s.lastJournaled = some record
  record : ∀ record, s.process.record = some record →
    s.lastJournaled = some record ∧ ∀ other ∈ s.outstanding, other = record
  awaiting : ∀ awaiting, s.process.awaiting = some awaiting → AwaitingOk s awaiting

theorem Inv.recoverable (h : Inv s) : Recoverable s := by
  refine ⟨h.journaled, ?_, ?_⟩
  · intro target hawaiting
    exact (h.awaiting _ hawaiting).2
  · intro record next hawaiting
    exact (h.record record (h.awaiting _ hawaiting)).1

/-- Without a record in the journal, no lease is applied. -/
theorem Inv.outstanding_of_no_journal (h : Inv s) (hjournal : s.journal = none) :
    s.outstanding = [] := by
  refine List.eq_nil_iff_forall_not_mem.mpr ?_
  intro record hrecord
  have := (h.journaled record hrecord).1
  rw [hjournal] at this
  cases this

/-! ## The process -/

variable {f : Process N → Process N}

/-- The process may go on as it likes with the record it has, or none. -/
theorem Inv.withProcess (h : Inv s)
    (hrecord : ∀ record, (f s.process).record = some record →
      s.lastJournaled = some record ∧ ∀ other ∈ s.outstanding, other = record)
    (hawaiting : ∀ awaiting, (f s.process).awaiting = some awaiting →
      AwaitingOk (withProcess s f) awaiting) : Inv (withProcess s f) :=
  ⟨h.journaled, h.journal, hrecord, hawaiting⟩

/-- The operation is over, and the record is kept or dropped. -/
theorem Inv.over (h : Inv s)
    (hrecord : (f s.process).record = s.process.record ∨ (f s.process).record = none)
    (hawaiting : (f s.process).awaiting = none) : Inv (Proxy.withProcess s f) := by
  refine h.withProcess ?_ ?_
  · intro record hsome
    rcases hrecord with hsame | hnone
    · exact h.record record (hsame ▸ hsome)
    · rw [hnone] at hsome
      cases hsome
  · intro awaiting hsome
    rw [hawaiting] at hsome
    cases hsome

theorem Inv.fail (h : Inv s) (code : LeaseErrorCode) : Inv (Proxy.withProcess s (fail · code)) :=
  h.over (.inl rfl) rfl

theorem Inv.finish (h : Inv s) : Inv (Proxy.withProcess s finish) :=
  h.over (.inl rfl) rfl

/-- The process only changes its status, its monitor or its queue. -/
theorem Inv.of_same (h : Inv s) (hrecord : (f s.process).record = s.process.record)
    (hawaiting : (f s.process).awaiting = s.process.awaiting) : Inv (Proxy.withProcess s f) := by
  refine h.withProcess ?_ ?_
  · intro record hsome
    exact h.record record (hrecord ▸ hsome)
  · intro awaiting hsome
    rw [hawaiting] at hsome
    have hok := h.awaiting awaiting hsome
    unfold AwaitingOk at hok ⊢
    simp only [Proxy.withProcess, hrecord]
    exact hok

/-! ## Parts of the operations -/

theorem awaiting_restoreFound (p : Process N) (record : RecoveryRecord N) (next : Continuation) :
    (restoreFound p record next).awaiting = some (.compareAndApplySnapshot record next) ∧
      (restoreFound p record next).record = some record := by
  cases next <;> exact ⟨rfl, rfl⟩

variable {record : RecoveryRecord N}

/-- A record is restored that is the last one that was journaled. -/
theorem Inv.restoreFound {s : System N} (h : Inv s) {next : Continuation}
    (hjournaled : s.lastJournaled = some record)
    (hother : ∀ other ∈ s.outstanding, other = record) :
    Inv (Proxy.withProcess s (restoreFound · record next)) := by
  obtain ⟨hawaiting, hrecord⟩ := awaiting_restoreFound s.process record next
  refine h.withProcess ?_ ?_
  · intro record' hsome
    rw [hrecord, Option.some.injEq] at hsome
    subst hsome
    exact ⟨hjournaled, hother⟩
  · intro awaiting hsome
    rw [hawaiting, Option.some.injEq] at hsome
    subst hsome
    exact hrecord

/-- An acquisition begins when no lease is applied. -/
theorem Inv.startAcquiring (h : Inv s) (hnone : s.outstanding = [])
    (hrecord : (f s.process).record = none)
    (hawaiting : (f s.process).awaiting = some (.captureSnapshot target)) :
    Inv (Proxy.withProcess s f) := by
  refine h.withProcess ?_ ?_
  · intro record hsome
    rw [hrecord] at hsome
    cases hsome
  · intro awaiting hsome
    rw [hawaiting, Option.some.injEq] at hsome
    subst hsome
    exact ⟨hrecord, hnone⟩

/-- A call that says nothing of any lease. -/
theorem Inv.await_reading (h : Inv s) {awaiting : Awaiting N}
    (hok : ∀ s' : System N, s'.process.record = s.process.record → AwaitingOk s' awaiting) :
    Inv (Proxy.withProcess s (await · awaiting)) := by
  refine h.withProcess (fun record hsome => h.record record hsome) ?_
  intro awaiting' hsome
  cases hsome
  exact hok _ rfl

theorem Inv.findRecord {s : System N} (h : Inv s) (next : Continuation) :
    Inv (Proxy.withProcess s (findRecord · next)) := by
  cases hrecord : s.process.record with
  | some record =>
      obtain ⟨hjournaled, hother⟩ := h.record record hrecord
      have hrestore : Inv (Proxy.withProcess s (Proxy.restoreFound · record next)) :=
        h.restoreFound hjournaled hother
      simpa [Proxy.withProcess, Proxy.findRecord, hrecord] using hrestore
  | none =>
      have hload : Inv (Proxy.withProcess s (await · (.load next))) :=
        h.await_reading fun s' hsame => hsame.trans hrecord
      simpa [Proxy.withProcess, Proxy.findRecord, hrecord] using hload

theorem Inv.verifyActiveExclusive (h : Inv s) (verifies : Bool) (target : LeaseTarget)
    (expectedLeaseId : Option JsString) :
    Inv (Proxy.withProcess s (verifyActiveExclusive verifies · target expectedLeaseId)) := by
  unfold Proxy.verifyActiveExclusive
  cases hrecord : s.process.record with
  | none => simpa [Proxy.withProcess, hrecord] using h.fail .applyFailed
  | some record =>
      simp only [Proxy.withProcess, hrecord]
      split
      · exact h.fail .applyFailed
      · split
        · exact h.await_reading fun _ _ => trivial
        · exact h.finish

theorem Inv.start (h : Inv s) (verifies : Bool) (operation : Operation) :
    Inv (Proxy.withProcess s (start verifies · operation)) := by
  cases operation with
  | acquire target =>
      cases target with
      | none => exact h.finish
      | some target =>
          unfold Proxy.withProcess
          simp only [Proxy.start]
          split
          · split
            · exact h.verifyActiveExclusive verifies target none
            · exact h.fail .leaseAlreadyActive
          · exact h.findRecord (.acquiring target)
  | release => exact h.findRecord .releasing
  | recoverStaleLease =>
      unfold Proxy.withProcess
      simp only [Proxy.start]
      split
      · exact h.fail .leaseAlreadyActive
      · have hstopped : Inv (Proxy.withProcess s stopActiveLeaseMonitor) := h.of_same rfl rfl
        exact hstopped.findRecord .recovering
  | verifyActive target expectedLeaseId =>
      cases target with
      | none => exact h.finish
      | some target => exact h.verifyActiveExclusive verifies target (some expectedLeaseId)
  | verifyFromMonitor leaseId epoch =>
      cases hrecord : s.process.record with
      | none => simpa [Proxy.withProcess, Proxy.start, hrecord] using h.finish
      | some record =>
          simp only [Proxy.withProcess, Proxy.start, hrecord]
          split
          · exact h.await_reading fun _ _ => trivial
          · exact h.finish

/-! ## Steps -/

section

variable [DecidableEq N] {s : System N}

/-- A record is looked for in the journal. -/
theorem Inv.load (h : Inv s) (verifies : Bool) {next : Continuation}
    (hawaiting : s.process.awaiting = some (.load next)) (reply : Reply N) :
    Inv (settle verifies s (.load next) reply) := by
  have hrecord : s.process.record = none := h.awaiting _ hawaiting
  cases reply with
  | loaded =>
      simp only [settle]
      cases hjournal : s.journal with
      | some record =>
          refine h.restoreFound (h.journal record hjournal) ?_
          intro other hother
          have := (h.journaled other hother).1
          rw [hjournal, Option.some.injEq] at this
          exact this.symm
      | none =>
          have hnone := h.outstanding_of_no_journal hjournal
          cases next with
          | acquiring target => exact h.startAcquiring hnone hrecord rfl
          | releasing => exact h.over (.inr rfl) rfl
          | recovering => exact h.over (.inr rfl) rfl
  | _ => exact h.fail .journalFailed

/-- The lease is restored. -/
theorem Inv.compareAndApplySnapshot (h : Inv s) (verifies : Bool)
    (hawaiting : s.process.awaiting = some (.compareAndApplySnapshot record next))
    (reply : Reply N) : Inv (settle verifies s (.compareAndApplySnapshot record next) reply) := by
  have hrecord : s.process.record = some record := h.awaiting _ hawaiting
  cases reply with
  | compared result =>
      have hnone : s.outstanding.filter (· ≠ record) = [] := by
        refine List.filter_eq_nil_iff.mpr ?_
        intro other hother
        simpa using (h.record record hrecord).2 other hother
      simp only [settle, hnone]
      refine ⟨by simp, h.journal, ?_, ?_⟩
      · intro record' hsome
        exact ⟨(h.record record' hsome).1, by simp⟩
      · intro awaiting hsome
        cases hsome
        exact ⟨hrecord, rfl⟩
  | _ => exact h.fail .restoreFailed

omit [DecidableEq N] in
/-- The journal is cleared of a lease that is not applied any more. -/
theorem Inv.clearJournal (h : Inv s) (hnone : s.outstanding = []) :
    Inv { s with journal := none } := by
  refine ⟨by simp [hnone], by simp, h.record, ?_⟩
  intro awaiting hsome
  have hok := h.awaiting awaiting hsome
  unfold AwaitingOk at hok ⊢
  exact hok

theorem Inv.clear (h : Inv s) (verifies : Bool)
    (hawaiting : s.process.awaiting = some (.clear record result next)) (reply : Reply N) :
    Inv (settle verifies s (.clear record result next) reply) := by
  obtain ⟨hrecord, hnone⟩ : s.process.record = some record ∧ s.outstanding = [] :=
    h.awaiting _ hawaiting
  cases reply with
  | cleared =>
      cases next with
      | acquiring target =>
          exact (h.clearJournal hnone).startAcquiring (f := (restored · (.acquiring target))) hnone rfl
            rfl
      | releasing => exact (h.clearJournal hnone).over (f := (restored · .releasing)) (.inr rfl) rfl
      | recovering => exact (h.clearJournal hnone).over (f := (restored · .recovering)) (.inr rfl) rfl
  | failed written =>
      cases written with
      | true => exact (h.clearJournal hnone).fail .restoreFailed
      | false => exact h.fail .restoreFailed
  | _ => exact h.fail .restoreFailed

theorem Inv.captureSnapshot (h : Inv s) (verifies : Bool)
    (hawaiting : s.process.awaiting = some (.captureSnapshot target)) (reply : Reply N) :
    Inv (settle verifies s (.captureSnapshot target) reply) := by
  obtain ⟨hrecord, hnone⟩ : s.process.record = none ∧ s.outstanding = [] := h.awaiting _ hawaiting
  cases reply with
  | snapshot original =>
      refine ⟨by simp [settle, Proxy.withProcess, hnone], h.journal, h.record, ?_⟩
      intro awaiting hsome
      cases hsome
      exact ⟨hrecord, hnone, rfl⟩
  | _ => exact h.fail .snapshotFailed

theorem Inv.createMixedProxySnapshot (h : Inv s) (verifies : Bool)
    (hawaiting : s.process.awaiting = some (.createMixedProxySnapshot target original))
    (reply : Reply N) :
    Inv (settle verifies s (.createMixedProxySnapshot target original) reply) := by
  have hok : AwaitingOk s (.createMixedProxySnapshot target original) := h.awaiting _ hawaiting
  cases reply with
  | mixed applied leaseId createdAt =>
      have hsaving : AwaitingOk s (.save ⟨leaseId, createdAt, target.proxyUrl, original, applied⟩) := hok
      refine ⟨h.journaled, h.journal, h.record, ?_⟩
      intro awaiting hsome
      cases hsome
      exact hsaving
  | _ => exact h.fail .snapshotFailed

/-- A record reaches the journal before it is applied. -/
theorem Inv.save (h : Inv s) (verifies : Bool)
    (hawaiting : s.process.awaiting = some (.save record)) (reply : Reply N) :
    Inv (settle verifies s (.save record) reply) := by
  obtain ⟨hrecord, hnone, hcaptured⟩ :
      s.process.record = none ∧ s.outstanding = [] ∧ s.lastCaptured = some record.original :=
    h.awaiting _ hawaiting
  cases reply with
  | saved =>
      simp only [settle]
      split
      · exact h.fail .journalFailed
      · refine ⟨?_, fun _ hsome => hsome, ?_, ?_⟩
        · intro other hother
          simp only [hnone, List.mem_singleton] at hother
          subst hother
          exact ⟨rfl, hcaptured⟩
        · intro record' hsome
          cases hsome
          exact ⟨rfl, by simp [hnone]⟩
        · intro awaiting hsome
          cases hsome
          trivial
  | failed written =>
      simp only [settle]
      split
      · have hfailed := h.fail .journalFailed
        refine ⟨by simp [Proxy.withProcess, hnone], fun _ hsome => hsome, ?_, hfailed.awaiting⟩
        intro record' hsome
        have : s.process.record = some record' := hsome
        rw [hrecord] at this
        cases this
      · exact h.fail .journalFailed
  | _ => exact h.fail .journalFailed

theorem Inv.settle (h : Inv s) (verifies : Bool) {awaiting : Awaiting N}
    (hawaiting : s.process.awaiting = some awaiting) (reply : Reply N) :
    Inv (settle verifies s awaiting reply) := by
  have hactive : Inv (Proxy.withProcess s fun p => Proxy.finish { p with status := .active }) :=
    h.over (.inl rfl) rfl
  cases awaiting with
  | load next => exact h.load verifies hawaiting reply
  | compareAndApplySnapshot record next => exact h.compareAndApplySnapshot verifies hawaiting reply
  | clear record result next => exact h.clear verifies hawaiting reply
  | captureSnapshot target => exact h.captureSnapshot verifies hawaiting reply
  | createMixedProxySnapshot target original =>
      exact h.createMixedProxySnapshot verifies hawaiting reply
  | save record => exact h.save verifies hawaiting reply
  | applySnapshot record =>
      cases reply with
      | done =>
          simp only [Proxy.settle]
          split
          · exact h.await_reading fun _ _ => trivial
          · exact hactive
      | _ => exact h.fail .applyFailed
  | confirmApplied record =>
      cases reply with
      | verdict applied =>
          cases applied with
          | true => exact hactive
          | false => exact h.fail .applyFailed
      | _ => exact h.fail .applyFailed
  | verifyApplied record =>
      cases reply with
      | verdict applied =>
          cases applied with
          | true => exact h.finish
          | false => exact h.fail .applyFailed
      | _ => exact h.fail .applyFailed
  | monitorApplied record leaseId epoch =>
      simp only [Proxy.settle]
      split
      · exact h.finish
      · split
        · refine h.over (.inl ?_) rfl
          unfold Proxy.finish startActiveLeaseMonitor stopActiveLeaseMonitor
          split <;> rfl
        · exact h.fail .applyFailed

theorem Inv.step (h : Inv s) (verifies : Bool) (event : Event N) : Inv (step verifies s event) := by
  cases event with
  | call operation =>
      cases operation <;> exact h.of_same (f := (call · _)) rfl rfl
  | startMonitoring =>
      have hsame : (startMonitoring verifies s.process).record = s.process.record ∧
          (startMonitoring verifies s.process).awaiting = s.process.awaiting := by
        unfold Proxy.startMonitoring startActiveLeaseMonitor stopActiveLeaseMonitor
        split
        · split <;> exact ⟨rfl, rfl⟩
        · exact ⟨rfl, rfl⟩
      exact h.of_same hsame.1 hsame.2
  | monitorFires =>
      have hsame : (monitorFires s.process).record = s.process.record ∧
          (monitorFires s.process).awaiting = s.process.awaiting := by
        unfold Proxy.monitorFires
        split <;> exact ⟨rfl, rfl⟩
      exact h.of_same hsame.1 hsame.2
  | startNext =>
      simp only [Proxy.step, startNext]
      split
      · next operation queue hawaiting hqueue =>
        have hpopped : Inv (Proxy.withProcess s fun p => { p with queue }) := h.of_same rfl rfl
        exact hpopped.start verifies operation
      · exact h
  | settle reply =>
      simp only [Proxy.step]
      cases hawaiting : s.process.awaiting with
      | none => exact h
      | some awaiting => exact h.settle verifies hawaiting reply
  | crash => exact h.over (f := fun _ => .fresh) (.inr rfl) rfl

end

theorem inv_initial : Inv (System.initial : System N) := by
  refine ⟨?_, ?_, ?_, ?_⟩
  · intro record hrecord
    cases hrecord
  · intro record hjournal
    cases hjournal
  · intro record hrecord
    cases hrecord
  · intro awaiting hawaiting
    cases hawaiting

/-- In every run, whatever fails and whenever the process dies, a lease that is
applied can be recovered from the journal. -/
theorem lease_is_recoverable [DecidableEq N] (verifies : Bool) (events : List (Event N)) :
    Recoverable (Lib.run (step verifies) System.initial events) :=
  (Lib.invariant_run Inv (fun _ event h => h.step verifies event) inv_initial events).recoverable

/-- A lease is taken, and the process dies while it is applied. -/
example :
    let record : RecoveryRecord Nat := ⟨js "lease", 1, js "http://127.0.0.1:7890", 3, 4⟩
    let events := [.call (.acquire (some ⟨js "http://127.0.0.1:7890", []⟩)), .startNext, .settle .loaded,
      .settle (.snapshot 3), .settle (.mixed 4 (js "lease") 1), .settle .saved, .crash]
    (Lib.run (step true) System.initial events).outstanding = [record] ∧
      (Lib.run (step true) System.initial events).journal = some record := by
  decide

end StonePlus.Proxy
