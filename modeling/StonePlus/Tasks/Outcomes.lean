import StonePlus.Tasks.Lifecycle

/-!
# StonePlus.Tasks.Outcomes

Whose outcome a task gets: a history of the task runner that counts the tasks
created under each id and notes for which of them every handler is called.

A handler is known to the runner by the id of its task alone.  It keeps running
after its task is cancelled, cleared and created again, and then its outcome is
written over the new task.
-/

namespace StonePlus.Tasks

variable {V : Type}

/-! ## Histories -/

/-- A call of a handler: the task it is for, and how it comes out. -/
structure Invocation (V : Type) where
  /-- How many tasks had been created under the id. -/
  creation : Nat
  payload : V
  outcome : Option (Outcome V)
  /-- The error that kept the result from being stored. -/
  rejection : Option JsString

structure History (V : Type) where
  runner : Runner V
  created : TaskId → Nat
  invocations : Nat → Option (Invocation V)

/-- What can happen, the clearing of the rows that are over included. -/
inductive Happening (V : Type)
  | event (event : Event V)
  | clearTerminalPersistentTasks

def clearTerminalPersistentTasks (s : Runner V) : Runner V :=
  { s with rows := fun id => (s.rows id).filter fun task => !isTerminal task.status }

def updateInvocation (h : History V) (execution : Nat) (f : Invocation V → Invocation V) :
    History V :=
  { h with
    invocations := Function.update h.invocations execution ((h.invocations execution).map f) }

/-- The error that keeps a result from being stored. -/
def reject (h : History V) (operation : Operation V) (error : JsString) : History V :=
  match operation with
  | .complete execution _ => updateInvocation h execution fun i => { i with rejection := some error }
  | _ => h

/-- What a history notes of an event before it happens. -/
def note (h : History V) : Event V → History V
  | .begin id _ =>
    match h.runner.chains id with
    | ⟨_, operation, .waiting⟩ :: _ =>
      if (h.runner.rows id).isNone then reject h operation (js "Persistent task not found.") else h
    | _ => h
  | .write id =>
    match h.runner.chains id with
    | ⟨_, .create _, .writing _ _⟩ :: _ =>
      { h with created := Function.update h.created id (h.created id + 1) }
    | _ => h
  | .writeFails id error =>
    match h.runner.chains id with
    | ⟨_, operation, .writing _ _⟩ :: _ => reject h operation error
    | _ => h
  | .finish id =>
    match h.runner.chains id with
    | ⟨_, _, .written row true⟩ :: _ =>
      let invocation : Invocation V := ⟨h.created id, row.payload, none, none⟩
      { h with
        invocations := Function.update h.invocations h.runner.executions.length (some invocation) }
    | _ => h
  | .settle execution outcome =>
    match h.runner.executions[execution]? with
    | some ⟨_, _, .running⟩ =>
      updateInvocation h execution fun i => { i with outcome := some outcome }
    | _ => h
  | _ => h

def historyStep (env : Environment) (h : History V) : Happening V → History V
  | .event event => { note h event with runner := step env h.runner event }
  | .clearTerminalPersistentTasks =>
    { h with runner := clearTerminalPersistentTasks h.runner }

/-! ## What a task becomes -/

/-- The call of a handler that an operation is to settle. -/
def Operation.execution? : Operation V → Option Nat
  | .complete execution _ => some execution
  | .fail execution _ _ => some execution
  | _ => none

/-- The call of a handler whose outcome a step writes. -/
def writer (s : Runner V) (id : TaskId) : Happening V → Option Nat
  | .event (.write id') =>
    if id = id' then (s.chains id).head?.bind fun t => t.operation.execution? else none
  | _ => none

/-- A row says how a call of the handler came out. -/
def Invocation.CameTo (env : Environment) (invocation : Invocation V) (row : PersistentTask V) :
    Prop :=
  (row.status = .completed ∧
    ∃ result, invocation.outcome = some (.completes result) ∧ row.result = some result) ∨
  (row.status = .failed ∧
    ∃ error, row.error = some (env.sanitizeTaskError error) ∧
      (invocation.outcome = some (.fails false error) ∨
        (∃ result, invocation.outcome = some (.completes result)) ∧
          invocation.rejection = some error))

/-- The step writes the outcome of a call of the handler that was started for
the task that has the row, with its payload. -/
def OwnOutcome (env : Environment) (h : History V) (happening : Happening V) (id : TaskId)
    (row : PersistentTask V) : Prop :=
  ∃ execution invocation, writer h.runner id happening = some execution ∧
    ((h.runner.executions[execution]?).map Execution.task) = some id ∧
    h.invocations execution = some invocation ∧ invocation.creation = h.created id ∧
    invocation.payload = row.payload ∧ invocation.CameTo env row

/-- The steps of a recovery, which fails tasks on its own. -/
def Event.isRecovery : Event V → Bool
  | .recover _ | .recoverNext _ _ | .recoverWrite _ | .recoverWriteFails _ => true
  | _ => false

/-- A step without recoveries. -/
def Ordinary (h : History V) : Happening V → Prop
  | .event event => Possible h.runner event ∧ event.isRecovery = false
  | .clearTerminalPersistentTasks => True

/-- A call of the handler whose outcome is yet to be written. -/
def ExecutionStage.isOpen : ExecutionStage → Bool
  | .running | .settling => true
  | .finalizing | .ended => false

/-- A task is created when all handlers that were called for its id have come
to an end. -/
def Vacant (h : History V) : Happening V → Prop
  | .event (.write id) =>
    ((h.runner.chains id).head?.any fun t => t.operation.creates) = true →
      (h.runner.executions.all fun x => x.task ≠ id || !x.stage.isOpen) = true
  | _ => True

/-! ## The invariant -/

/-- The row that a transition has read or written; a new one counts when it is
in the store. -/
def Transition.row? (t : Transition V) : Option (PersistentTask V) :=
  match t.stage with
  | .waiting => none
  | .writing row _ => if t.operation.creates then none else some row
  | .written row _ => some row

/-- A row of the task: the stored one, or the one that its transition works on. -/
def InPlay (s : Runner V) (id : TaskId) (row : PersistentTask V) : Prop :=
  s.rows id = some row ∨ (s.chains id).head?.bind Transition.row? = some row

/-- The calls of the handler that the transitions of a task are to settle. -/
def settling (s : Runner V) (id : TaskId) : List Nat :=
  (s.chains id).filterMap fun t => t.operation.execution?

/-- What an operation says of a call of the handler is what the history has. -/
def Reports (invocations : Nat → Option (Invocation V)) : Operation V → Prop
  | .complete execution result =>
    ∃ i, invocations execution = some i ∧ i.outcome = some (.completes result)
  | .fail execution interrupted error =>
    ∃ i, invocations execution = some i ∧
      (i.outcome = some (.fails interrupted error) ∨
        interrupted = false ∧ (∃ result, i.outcome = some (.completes result)) ∧
          i.rejection = some error)
  | _ => True

/-- The row that an operation is about to write. -/
def Yields (env : Environment) (row : PersistentTask V) : Operation V → Prop
  | .complete _ result => row.status = .completed ∧ row.result = some result
  | .fail _ interrupted error =>
    interrupted = false ∧ row.status = .failed ∧ row.error = some (env.sanitizeTaskError error)
  | _ => row.status ≠ .completed ∧ row.status ≠ .failed

structure Recorded (env : Environment) (h : History V) : Prop where
  samePayload : ∀ id row row', InPlay h.runner id row → InPlay h.runner id row' →
    row.payload = row'.payload
  invocation : ∀ e x, h.runner.executions[e]? = some x → x.stage.isOpen = true →
    ∃ i, h.invocations e = some i ∧ i.creation = h.created x.task ∧
      ∀ row, InPlay h.runner x.task row → row.payload = i.payload
  settling : ∀ id e, e ∈ settling h.runner id →
    ∃ x, h.runner.executions[e]? = some x ∧ x.task = id ∧ x.stage = .settling
  once : ∀ id, (Tasks.settling h.runner id).Nodup
  reports : ∀ id, ∀ t ∈ h.runner.chains id, Reports h.invocations t.operation
  yields : ∀ id t rest row starts, h.runner.chains id = t :: rest → t.stage = .writing row starts →
    Yields env row t.operation

/-! ## Chains -/

theorem mem_settling {id : TaskId} :
    e ∈ settling s id ↔ ∃ t ∈ s.chains id, t.operation.execution? = some e := by
  simp [settling]

theorem inPlay_enqueue {id : TaskId} (h : InPlay (enqueue s id operation) id' row) :
    InPlay s id' row := by
  unfold InPlay at h ⊢
  by_cases hid : id' = id
  · subst hid
    cases hchain : s.chains id' with
    | nil => simpa [enqueue, hchain, Transition.row?] using h
    | cons t rest => simpa [enqueue, hchain] using h
  · simpa [enqueue, hid] using h

theorem inPlay_dequeue (hinv : Inv s) {id : TaskId} (h : InPlay (dequeue s id) id' row) :
    InPlay s id' row := by
  by_cases hid : id' = id
  · subst hid
    rcases h with hrow | hhead
    · exact .inl hrow
    · exfalso
      cases hchain : (dequeue s id').chains id' with
      | nil => simp [hchain] at hhead
      | cons t rest =>
          have hwaiting := (hinv.dequeue_waiting hchain).1
          simp [hchain, Transition.row?, hwaiting] at hhead
  · unfold InPlay at h ⊢
    rwa [dequeue_of_ne s hid] at h

theorem settling_enqueue (s : Runner V) (id id' : TaskId) (operation : Operation V) :
    settling (enqueue s id operation) id' =
      settling s id' ++ if id' = id then operation.execution?.toList else [] := by
  by_cases hid : id' = id
  · subst hid
    cases hoperation : operation.execution? <;> simp [settling, enqueue, hoperation]
  · simp [settling, enqueue, hid]

theorem settling_dequeue_sublist (s : Runner V) (id id' : TaskId) :
    List.Sublist (settling (dequeue s id) id') (settling s id') := by
  by_cases hid : id' = id
  · subst hid
    have htail : (dequeue s id').chains id' = (s.chains id').tail := by simp [dequeue]
    unfold settling
    rw [htail]
    exact (List.tail_sublist _).filterMap _
  · unfold settling
    rw [dequeue_of_ne s hid]

section

variable {env : Environment} {h : History V}

/-- An operation comes last in a chain. -/
theorem Recorded.enqueue (hr : Recorded env h) {id : TaskId}
    (hreports : Reports h.invocations operation)
    (hnew : ∀ e, operation.execution? = some e → e ∉ Tasks.settling h.runner id ∧
      ∃ x, h.runner.executions[e]? = some x ∧ x.task = id ∧ x.stage = .settling) :
    Recorded env { h with runner := enqueue h.runner id operation } := by
  constructor
  · intro id' row row' hrow hrow'
    exact hr.samePayload id' row row' (inPlay_enqueue hrow) (inPlay_enqueue hrow')
  · intro e x hx hopen
    obtain ⟨i, hi, hcreation, hpayload⟩ := hr.invocation e x hx hopen
    exact ⟨i, hi, hcreation, fun row hrow => hpayload row (inPlay_enqueue hrow)⟩
  · intro id' e he
    rw [settling_enqueue, List.mem_append] at he
    rcases he with he | he
    · exact hr.settling id' e he
    · split at he
      · next hid =>
        subst hid
        exact (hnew e (by simpa using he)).2
      · cases he
  · intro id'
    rw [settling_enqueue]
    split
    · next hid =>
      subst hid
      cases hoperation : operation.execution? with
      | none => simpa using hr.once id'
      | some e =>
          have habsent := (hnew e hoperation).1
          have honce := hr.once id'
          rw [Option.toList_some, List.nodup_append]
          refine ⟨honce, by simp, ?_⟩
          intro a ha b hb hab
          rw [List.mem_singleton.mp hb] at hab
          subst hab
          exact habsent ha
    · simpa using hr.once id'
  · intro id' t ht
    by_cases hid : id' = id
    · subst hid
      simp only [Tasks.enqueue, Function.update_self, List.mem_append, List.mem_singleton] at ht
      rcases ht with ht | rfl
      · exact hr.reports id' t ht
      · exact hreports
    · exact hr.reports id' t (by simpa [Tasks.enqueue, hid] using ht)
  · intro id' t rest row starts hchain hstage
    by_cases hid : id' = id
    · subst hid
      cases hold : h.runner.chains id' with
      | nil =>
          simp only [Tasks.enqueue, hold, Function.update_self, List.nil_append] at hchain
          cases hchain
          cases hstage
      | cons t' rest' =>
          simp only [Tasks.enqueue, hold, Function.update_self, List.cons_append] at hchain
          cases hchain
          exact hr.yields id' t rest' row starts hold hstage
    · exact hr.yields id' t rest row starts (by simpa [Tasks.enqueue, hid] using hchain) hstage

/-- An operation that settles no call of a handler. -/
theorem Recorded.enqueue_other (hr : Recorded env h) (id : TaskId)
    (hother : operation.execution? = none) :
    Recorded env { h with runner := Tasks.enqueue h.runner id operation } := by
  refine hr.enqueue ?_ ?_
  · cases operation <;> trivial
  · intro e he
    rw [hother] at he
    cases he

theorem Recorded.enqueueAll (hr : Recorded env h) (ids : List TaskId)
    (hother : operation.execution? = none) :
    Recorded env { h with runner := Tasks.enqueueAll h.runner ids operation } := by
  unfold Tasks.enqueueAll
  induction ids generalizing h with
  | nil => exact hr
  | cons id ids ih => exact ih (hr.enqueue_other id hother)

/-- The first transition of a task is over. -/
theorem Recorded.dequeue (hr : Recorded env h) (hinv : Inv h.runner) (id : TaskId) :
    Recorded env { h with runner := dequeue h.runner id } := by
  constructor
  · intro id' row row' hrow hrow'
    exact hr.samePayload id' row row' (inPlay_dequeue hinv hrow) (inPlay_dequeue hinv hrow')
  · intro e x hx hopen
    obtain ⟨i, hi, hcreation, hpayload⟩ := hr.invocation e x hx hopen
    exact ⟨i, hi, hcreation, fun row hrow => hpayload row (inPlay_dequeue hinv hrow)⟩
  · intro id' e he
    exact hr.settling id' e ((settling_dequeue_sublist _ _ _).subset he)
  · intro id'
    exact (settling_dequeue_sublist _ _ _).nodup (hr.once id')
  · intro id' t ht
    by_cases hid : id' = id
    · subst hid
      simp only [Tasks.dequeue, Function.update_self] at ht
      exact hr.reports id' t (List.mem_of_mem_tail ht)
    · exact hr.reports id' t (dequeue_of_ne h.runner hid ▸ ht)
  · intro id' t rest row starts hchain hstage
    by_cases hid : id' = id
    · subst hid
      rw [(hinv.dequeue_waiting hchain).1] at hstage
      cases hstage
    · exact hr.yields id' t rest row starts (dequeue_of_ne h.runner hid ▸ hchain) hstage

/-! ## Executions and rows -/

/-- Executions change without their stages, and rows go. -/
theorem Recorded.of_frame (hr : Recorded env h) (hchains : s.chains = h.runner.chains)
    (hrows : ∀ id row, s.rows id = some row → h.runner.rows id = some row)
    (hexecutions : ∀ e : Nat, (s.executions[e]?).map (fun x => (x.task, x.stage)) =
      (h.runner.executions[e]?).map fun x => (x.task, x.stage)) :
    Recorded env { h with runner := s } := by
  have hplay : ∀ id row, InPlay s id row → InPlay h.runner id row := by
    intro id row hrow
    unfold InPlay at hrow ⊢
    rw [hchains] at hrow
    exact hrow.imp_left (hrows id row)
  have hsettling : ∀ id, Tasks.settling s id = Tasks.settling h.runner id := by
    intro id
    unfold Tasks.settling
    rw [hchains]
  constructor
  · intro id row row' hrow hrow'
    exact hr.samePayload id row row' (hplay id row hrow) (hplay id row' hrow')
  · intro e x hx hopen
    have hsame := hexecutions e
    rw [hx, Option.map_some] at hsame
    obtain ⟨x₀, hx₀, heq⟩ := Option.map_eq_some_iff.mp hsame.symm
    injection heq with htask hstage
    obtain ⟨i, hi, hcreation, hpayload⟩ := hr.invocation e x₀ hx₀ (by rwa [hstage])
    rw [htask] at hcreation hpayload
    exact ⟨i, hi, hcreation, fun row hrow => hpayload row (hplay x.task row hrow)⟩
  · intro id e he
    rw [hsettling] at he
    obtain ⟨x₀, hx₀, htask, hstage⟩ := hr.settling id e he
    have hsame := hexecutions e
    rw [hx₀, Option.map_some] at hsame
    obtain ⟨x, hx, heq⟩ := Option.map_eq_some_iff.mp hsame
    injection heq with htask' hstage'
    exact ⟨x, hx, htask'.trans htask, hstage'.trans hstage⟩
  · intro id
    rw [hsettling]
    exact hr.once id
  · intro id t ht
    rw [hchains] at ht
    exact hr.reports id t ht
  · intro id t rest row starts hchain hstage
    rw [hchains] at hchain
    exact hr.yields id t rest row starts hchain hstage

theorem Recorded.abort (hr : Recorded env h) (execution : Nat) :
    Recorded env { h with runner := abort h.runner execution } := by
  refine hr.of_frame rfl (fun _ _ hrow => hrow) ?_
  intro e
  simp only [Tasks.abort, List.getElem?_modify]
  cases h.runner.executions[e]? with
  | none => rfl
  | some x =>
      simp only [Option.map_some]
      split <;> rfl

theorem Recorded.interruptAllForShutdown (hr : Recorded env h) :
    Recorded env { h with runner := interruptAllForShutdown h.runner } := by
  refine hr.of_frame rfl (fun _ _ hrow => hrow) ?_
  intro e
  simp only [Tasks.interruptAllForShutdown, List.getElem?_mapIdx]
  cases h.runner.executions[e]? with
  | none => rfl
  | some x =>
      simp only [Option.map_some]
      split <;> rfl

theorem Recorded.abortCancelled (hr : Recorded env h) :
    Recorded env { h with runner := abortCancelled h.runner } := by
  unfold Tasks.abortCancelled
  split
  · next execution rest _ =>
    have hrest : Recorded env { h with runner := { h.runner with aborts := rest } } :=
      hr.of_frame rfl (fun _ _ hrow => hrow) fun _ => rfl
    exact hrest.abort execution
  · exact hr

theorem Recorded.deletePersistentTask (hr : Recorded env h) (id : TaskId) :
    Recorded env { h with runner := deletePersistentTask h.runner id } := by
  refine hr.of_frame rfl ?_ fun _ => rfl
  intro id' row hrow
  by_cases hid : id' = id
  · simp [Tasks.deletePersistentTask, hid] at hrow
  · simpa [Tasks.deletePersistentTask, hid] using hrow

theorem Recorded.clearTerminalPersistentTasks (hr : Recorded env h) :
    Recorded env { h with runner := clearTerminalPersistentTasks h.runner } := by
  refine hr.of_frame rfl ?_ fun _ => rfl
  intro id row hrow
  exact (Option.filter_eq_some_iff.mp hrow).1

theorem Recorded.register (hr : Recorded env h) (kind : JsString)
    (listing : List (PersistentTask V)) :
    Recorded env { h with runner := register h.runner kind listing } := by
  unfold Tasks.register
  split
  · exact hr
  · next normalized _ =>
    have hregistered : Recorded env { h with
        runner := { h.runner with handlers := normalized :: h.runner.handlers } } :=
      hr.of_frame rfl (fun _ _ hrow => hrow) fun _ => rfl
    split
    · exact hr
    · dsimp only
      split
      · exact hregistered.enqueueAll _ rfl
      · exact hregistered

/-- An execution goes on, and no transition is left that is to settle it. -/
theorem Recorded.advance (hr : Recorded env h) (execution : Nat)
    (hopen : stage'.isOpen = true → stage.isOpen = true)
    (hfree : stage = .settling → ∀ id, execution ∉ Tasks.settling h.runner id) :
    Recorded env { h with runner := advance h.runner execution stage stage' } := by
  refine ⟨hr.samePayload, ?_, ?_, hr.once, hr.reports, hr.yields⟩
  · intro e x hx hx'
    obtain ⟨x₀, hx₀, hcase⟩ := getElem?_modify_some hx
    have htask : x.task = x₀.task := by
      rcases hcase with rfl | ⟨-, rfl⟩
      · rfl
      · exact x₀.goOn_task stage stage'
    have hopen₀ : x₀.stage.isOpen = true := by
      rcases hcase with rfl | ⟨-, rfl⟩
      · exact hx'
      · unfold Execution.goOn at hx'
        split at hx'
        · next hstage =>
          rw [hstage]
          exact hopen hx'
        · exact hx'
    rw [htask]
    exact hr.invocation e x₀ hx₀ hopen₀
  · intro id e he
    obtain ⟨x, hx, htask, hstage⟩ := hr.settling id e he
    by_cases hsame : e = execution
    · subst hsame
      have hother : x.stage ≠ stage := by
        intro heq
        rw [hstage] at heq
        exact hfree heq.symm id he
      refine ⟨x, ?_, htask, hstage⟩
      simp [Tasks.advance, hx, Execution.goOn, hother]
    · refine ⟨x, ?_, htask, hstage⟩
      simp [Tasks.advance, hx, Ne.symm hsame]

/-- What is noted of a call of the handler that no transition is to settle. -/
theorem Recorded.updateInvocation (hr : Recorded env h)
    (hcreation : ∀ i, (f i).creation = i.creation) (hpayload : ∀ i, (f i).payload = i.payload)
    (hfree : ∀ id, execution ∉ Tasks.settling h.runner id) :
    Recorded env (updateInvocation h execution f) := by
  refine ⟨hr.samePayload, ?_, hr.settling, hr.once, ?_, hr.yields⟩
  · intro e x hx hopen
    obtain ⟨i, hi, hcreation', hpayload'⟩ := hr.invocation e x hx hopen
    by_cases hsame : e = execution
    · subst hsame
      refine ⟨f i, by simp [Tasks.updateInvocation, hi], ?_, ?_⟩
      · rw [hcreation i]
        exact hcreation'
      · intro row hrow
        rw [hpayload i]
        exact hpayload' row hrow
    · exact ⟨i, by simp [Tasks.updateInvocation, hsame, hi], hcreation', hpayload'⟩
  · intro id t ht
    have hreports := hr.reports id t ht
    have hother : t.operation.execution? ≠ some execution :=
      fun heq => hfree id (mem_settling.mpr ⟨t, ht, heq⟩)
    cases hoperation : t.operation with
    | complete e result =>
        rw [hoperation] at hreports hother
        have hne : e ≠ execution := fun heq => hother (congrArg some heq)
        simpa [Reports, Tasks.updateInvocation, hne] using hreports
    | fail e interrupted error =>
        rw [hoperation] at hreports hother
        have hne : e ≠ execution := fun heq => hother (congrArg some heq)
        simpa [Reports, Tasks.updateInvocation, hne] using hreports
    | _ => trivial

/-- A handler is called with the payload of its task. -/
theorem Recorded.execute (hr : Recorded env h) {id : TaskId}
    (hpayload : ∀ row, InPlay h.runner id row → row.payload = payload) : Recorded env { h with
      runner := execute h.runner id
      invocations := Function.update h.invocations h.runner.executions.length
        (some ⟨h.created id, payload, none, none⟩) } := by
  have hbound : ∀ id' e, e ∈ Tasks.settling h.runner id' → e ≠ h.runner.executions.length := by
    intro id' e he
    obtain ⟨x, hx, -, -⟩ := hr.settling id' e he
    have := (List.getElem?_eq_some_iff.mp hx).1
    omega
  refine ⟨hr.samePayload, ?_, ?_, hr.once, ?_, hr.yields⟩
  · intro e x hx hopen
    simp only [Tasks.execute, List.getElem?_append] at hx
    split at hx
    · next hlt =>
      obtain ⟨i, hi, hcreation, hpayload'⟩ := hr.invocation e x hx hopen
      have hne : e ≠ h.runner.executions.length := by omega
      exact ⟨i, by simpa [hne] using hi, hcreation, hpayload'⟩
    · next hge =>
      obtain ⟨hindex, hsame⟩ := List.getElem?_eq_some_iff.mp hx
      have he : e = h.runner.executions.length := by
        simp only [List.length_singleton] at hindex
        omega
      subst he
      simp only [Nat.sub_self, List.getElem_cons_zero] at hsame
      subst hsame
      exact ⟨_, Function.update_self _ _ _, rfl, hpayload⟩
  · intro id' e he
    obtain ⟨x, hx, htask, hstage⟩ := hr.settling id' e he
    have hlt := (List.getElem?_eq_some_iff.mp hx).1
    exact ⟨x, by simpa [Tasks.execute, List.getElem?_append, hlt] using hx, htask, hstage⟩
  · intro id' t ht
    have hreports := hr.reports id' t ht
    cases hoperation : t.operation with
    | complete e result =>
        rw [hoperation] at hreports
        have hne := hbound id' e (mem_settling.mpr ⟨t, ht, by rw [hoperation]; rfl⟩)
        simpa [Reports, hne] using hreports
    | fail e interrupted error =>
        rw [hoperation] at hreports
        have hne := hbound id' e (mem_settling.mpr ⟨t, ht, by rw [hoperation]; rfl⟩)
        simpa [Reports, hne] using hreports
    | _ => trivial

/-! ## What a transition does at its end -/

/-- The call of a handler that a transition settles is settled by no other. -/
theorem Recorded.free_of_head (hr : Recorded env h) {id : TaskId}
    (hchain : h.runner.chains id = t :: rest) (he : t.operation.execution? = some e)
    (id' : TaskId) : e ∉ Tasks.settling (Tasks.dequeue h.runner id) id' := by
  intro hmem
  by_cases hid : id' = id
  · subst hid
    have honce := hr.once id'
    have hhead : Tasks.settling h.runner id' =
        e :: Tasks.settling (Tasks.dequeue h.runner id') id' := by
      simp [Tasks.settling, Tasks.dequeue, hchain, he]
    rw [hhead] at honce
    exact (List.nodup_cons.mp honce).1 hmem
  · have hmem' : e ∈ Tasks.settling h.runner id' := (settling_dequeue_sublist _ _ _).subset hmem
    have hhead : e ∈ Tasks.settling h.runner id :=
      mem_settling.mpr ⟨t, by simp [hchain], he⟩
    obtain ⟨x, hx, htask, -⟩ := hr.settling id' e hmem'
    obtain ⟨x', hx', htask', -⟩ := hr.settling id e hhead
    rw [hx] at hx'
    cases hx'
    exact hid (htask.symm.trans htask')

/-- What the end of a transition does to the call of the handler it settles. -/
def settled (s : Runner V) : Operation V → Runner V
  | .complete execution _ => Tasks.advance s execution .settling .finalizing
  | .fail execution _ _ => Tasks.advance s execution .settling .finalizing
  | _ => s

theorem returned_eq_settled (s : Runner V) (id : TaskId) (transition : Transition V) :
    returned s id transition = settled (Tasks.dequeue s id) transition.operation := by
  unfold returned settled
  cases transition.operation <;> rfl

theorem Recorded.settled (hr : Recorded env h)
    (hfree : ∀ e, operation.execution? = some e → ∀ id, e ∉ Tasks.settling h.runner id) :
    Recorded env { h with runner := settled h.runner operation } := by
  cases operation with
  | complete e result => exact hr.advance e (by decide) fun _ => hfree e rfl
  | fail e interrupted error => exact hr.advance e (by decide) fun _ => hfree e rfl
  | _ => exact hr

theorem Recorded.returned (hr : Recorded env h) (hinv : Inv h.runner) {id : TaskId}
    (hchain : h.runner.chains id = t :: rest) :
    Recorded env { h with runner := returned h.runner id t } := by
  rw [returned_eq_settled]
  exact (hr.dequeue hinv id).settled fun e he => hr.free_of_head hchain he

/-- A transition throws, and what it leaves to be settled is noted. -/
theorem Recorded.thrown (hr : Recorded env h) (hinv : Inv h.runner) {id : TaskId}
    {t : Transition V} {rest : List (Transition V)} (hchain : h.runner.chains id = t :: rest)
    (error : JsString) :
    Recorded env { reject h t.operation error with runner := thrown h.runner id t error } := by
  have hdequeue := hr.dequeue hinv id
  have hfree (e : Nat) (he : t.operation.execution? = some e) := hr.free_of_head hchain he
  have hreports := hr.reports id t (by simp [hchain])
  unfold Tasks.thrown reject
  cases hoperation : t.operation with
  | complete e result =>
      rw [hoperation] at hfree hreports
      obtain ⟨i, hi, houtcome⟩ := hreports
      have hnoted := hdequeue.updateInvocation (f := fun i => { i with rejection := some error })
        (fun _ => rfl) (fun _ => rfl) (hfree e rfl)
      refine hnoted.enqueue ?_ ?_
      · refine ⟨{ i with rejection := some error }, ?_, .inr ⟨rfl, ⟨result, houtcome⟩, rfl⟩⟩
        simp [Tasks.updateInvocation, hi]
      · intro e' he'
        cases he'
        have hhead : e ∈ Tasks.settling h.runner id :=
          mem_settling.mpr ⟨t, by simp [hchain], by rw [hoperation]; rfl⟩
        exact ⟨hfree e rfl id, hr.settling id e hhead⟩
  | fail e interrupted error' =>
      rw [hoperation] at hfree
      exact hdequeue.advance e (by decide) fun _ => hfree e rfl
  | _ => exact hdequeue.of_frame rfl (fun _ _ hrow => hrow) fun _ => rfl

/-! ## What a transition writes -/

/-- A row that a plan writes: it has the payload of the row that was read, and
says what the operation is to say. -/
structure Follows (env : Environment) (operation : Operation V) (task row : PersistentTask V) :
    Prop where
  payload : row.payload = task.payload
  yields : Yields env row operation

theorem planComplete_follows (hplan : planComplete now result task = .writes row starts) :
    Follows env (.complete e result) task row := by
  unfold planComplete at hplan
  split at hplan
  · cases hplan
  · cases hplan
    exact ⟨rfl, rfl, rfl⟩

theorem planFail_follows (hplan : planFail env now interrupted error task = .writes row starts) :
    Follows env (.fail e interrupted error) task row := by
  unfold planFail at hplan
  split at hplan
  · cases hplan
  · split at hplan
    · cases hplan
    · next hinterrupted =>
      cases hplan
      exact ⟨rfl, by simpa using hinterrupted, rfl, rfl⟩

theorem status_ne_of_not_terminal (h : ¬isTerminal status = true) :
    status ≠ .completed ∧ status ≠ .failed := by
  cases status <;> simp_all [isTerminal]

section

variable {s : Runner V} {id : TaskId} {now : ℚ} {task row : PersistentTask V} {starts : Bool}

/-- A row that has the payload of the row that was read and does not end the task. -/
def Continues (task row : PersistentTask V) : Prop :=
  row.payload = task.payload ∧ row.status ≠ .completed ∧ row.status ≠ .failed

theorem planPause_continues (hplan : planPause now task = .writes row starts) :
    Continues task row := by
  unfold planPause at hplan
  split at hplan
  · cases hplan
  · cases hplan
    simp [Continues]

theorem planResume_continues (hplan : planResume s id now task = .writes row starts) :
    Continues task row := by
  unfold planResume at hplan
  split at hplan
  · cases hplan
  · split at hplan
    · split at hplan
      · cases hplan
      · cases hplan
        simp [Continues]
    · split at hplan
      · cases hplan
      · cases hplan
        simp [Continues, startedRow]

theorem planCancel_continues (hplan : planCancel now task = .writes row starts) :
    Continues task row := by
  unfold planCancel at hplan
  split at hplan
  · cases hplan
  · cases hplan
    simp [Continues]

theorem planCheckpoint_continues
    (hplan : planCheckpoint env now aborted patch task = .writes row starts) :
    Continues task row := by
  unfold planCheckpoint at hplan
  split at hplan
  · cases hplan
  · split at hplan
    · cases hplan
    · next hnot =>
      cases hplan
      exact ⟨rfl, status_ne_of_not_terminal hnot⟩

end

theorem follows_of_withTask {id : TaskId} (hplan : withTask s id f = .writes row starts)
    (hfollows : ∀ task, f task = .writes row starts → Follows env operation task row) :
    ∃ task, s.rows id = some task ∧ Follows env operation task row := by
  unfold withTask at hplan
  split at hplan
  · cases hplan
  · next task htask => exact ⟨task, htask, hfollows task hplan⟩

/-- A row that is written over the row that was read. -/
theorem plan_follows {id : TaskId} (hplan : plan env s id now operation = .writes row starts)
    (hcreates : operation.creates = false) :
    ∃ task, s.rows id = some task ∧ Follows env operation task row := by
  cases operation with
  | create input => cases hcreates
  | pause =>
      exact follows_of_withTask hplan fun _ htask =>
        ⟨(planPause_continues htask).1, (planPause_continues htask).2⟩
  | resume =>
      exact follows_of_withTask hplan fun _ htask =>
        ⟨(planResume_continues htask).1, (planResume_continues htask).2⟩
  | cancel =>
      exact follows_of_withTask hplan fun _ htask =>
        ⟨(planCancel_continues htask).1, (planCancel_continues htask).2⟩
  | checkpoint e patch =>
      exact follows_of_withTask hplan fun _ htask =>
        ⟨(planCheckpoint_continues htask).1, (planCheckpoint_continues htask).2⟩
  | complete e result =>
      exact follows_of_withTask hplan fun _ htask => planComplete_follows htask
  | fail e interrupted error =>
      exact follows_of_withTask hplan fun _ htask => planFail_follows htask

theorem planCreate_yields {id : TaskId} (hplan : planCreate s id now input = .writes row starts) :
    row.status ≠ .completed ∧ row.status ≠ .failed := by
  unfold planCreate at hplan
  split at hplan
  · cases hplan
  · split at hplan
    · cases hplan
    · cases hplan
      exact ⟨by simp [createRow], by simp [createRow]⟩

theorem plan_yields {id : TaskId} (hplan : plan env s id now operation = .writes row starts) :
    Yields env row operation := by
  cases hcreates : operation.creates with
  | false =>
      obtain ⟨_, _, hfollows⟩ := plan_follows hplan hcreates
      exact hfollows.yields
  | true =>
      cases operation with
      | create input => exact planCreate_yields hplan
      | _ => cases hcreates

/-! ## The steps of a transition -/

theorem inPlay_setStage_of_ne {id : TaskId} (hid : id' ≠ id) :
    InPlay (setStage s id t stage) id' row ↔ InPlay s id' row := by
  simp [InPlay, setStage, hid]

theorem settling_setStage {id : TaskId} (hchain : s.chains id = t :: rest) (stage : Stage V)
    (id' : TaskId) : settling (setStage s id t stage) id' = settling s id' := by
  by_cases hid : id' = id
  · subst hid
    simp [settling, setStage, hchain, List.filterMap_cons]
  · simp [settling, setStage, hid]

/-- The first transition of a task reaches a stage, at which its row has the
payload of the rows before. -/
theorem Recorded.setStage (hr : Recorded env h) {id : TaskId}
    (hchain : h.runner.chains id = t :: rest)
    (hplay : ∀ row, InPlay (Tasks.setStage h.runner id t stage) id row →
      ∃ row', InPlay h.runner id row' ∧ row.payload = row'.payload)
    (hyields : ∀ row starts, stage = .writing row starts → Yields env row t.operation) :
    Recorded env { h with runner := Tasks.setStage h.runner id t stage } := by
  have hplay' : ∀ id' row, InPlay (Tasks.setStage h.runner id t stage) id' row →
      ∃ row', InPlay h.runner id' row' ∧ row.payload = row'.payload := by
    intro id' row hrow
    by_cases hid : id' = id
    · subst hid
      exact hplay row hrow
    · exact ⟨row, (inPlay_setStage_of_ne hid).mp hrow, rfl⟩
  constructor
  · intro id' row₁ row₂ hrow₁ hrow₂
    obtain ⟨row₁', hrow₁', heq₁⟩ := hplay' id' row₁ hrow₁
    obtain ⟨row₂', hrow₂', heq₂⟩ := hplay' id' row₂ hrow₂
    rw [heq₁, heq₂]
    exact hr.samePayload id' row₁' row₂' hrow₁' hrow₂'
  · intro e x hx hopen
    obtain ⟨i, hi, hcreation, hpayload⟩ := hr.invocation e x hx hopen
    refine ⟨i, hi, hcreation, ?_⟩
    intro row hrow
    obtain ⟨row', hrow', heq⟩ := hplay' x.task row hrow
    rw [heq]
    exact hpayload row' hrow'
  · intro id' e he
    rw [settling_setStage hchain] at he
    exact hr.settling id' e he
  · intro id'
    rw [settling_setStage hchain]
    exact hr.once id'
  · intro id' u hu
    by_cases hid : id' = id
    · subst hid
      simp only [Tasks.setStage, Function.update_self, hchain, List.tail_cons, List.mem_cons] at hu
      rcases hu with rfl | hu
      · exact hr.reports id' t (by simp [hchain])
      · exact hr.reports id' u (by simp [hchain, hu])
    · exact hr.reports id' u (by simpa [Tasks.setStage, hid] using hu)
  · intro id' u rest' row starts hchain' hstage
    by_cases hid : id' = id
    · subst hid
      simp only [Tasks.setStage, Function.update_self] at hchain'
      cases hchain'
      exact hyields row starts hstage
    · exact hr.yields id' u rest' row starts (by simpa [Tasks.setStage, hid] using hchain') hstage

/-- A result that finds no row is kept from being stored. -/
theorem rejected_of_throws {id : TaskId} (hplan : plan env s id now operation = .throws)
    (error : JsString) :
    (if (s.rows id).isNone then reject h operation error else h) = reject h operation error := by
  cases operation with
  | complete e result =>
      have hrow : s.rows id = none := by
        cases hrow : s.rows id with
        | none => rfl
        | some task =>
            simp only [plan, withTask, hrow, planComplete] at hplan
            split at hplan <;> cases hplan
      simp [hrow]
  | _ => simp [reject]

theorem not_rejected {id : TaskId} (hplan : plan env s id now operation ≠ .throws)
    (error : JsString) : (if (s.rows id).isNone then reject h operation error else h) = h := by
  cases operation with
  | complete e result =>
      have hrow : (s.rows id).isNone = false := by
        cases hrow : s.rows id with
        | none => simp [plan, withTask, hrow] at hplan
        | some task => rfl
      simp [hrow]
  | _ => simp [reject]

theorem Recorded.begin (hr : Recorded env h) (hinv : Inv h.runner) (id : TaskId) (now : ℚ) :
    Recorded env (historyStep env h (.event (.begin id now))) := by
  cases hchain : h.runner.chains id with
  | nil => simpa [historyStep, note, Tasks.step, Tasks.begin, hchain] using hr
  | cons t rest =>
      obtain ⟨ticket, operation, stage⟩ := t
      cases stage with
      | waiting =>
          simp only [historyStep, note, Tasks.step, Tasks.begin, hchain]
          cases hplan : plan env h.runner id now operation with
          | throws =>
              simp only [rejected_of_throws hplan]
              exact hr.thrown hinv hchain _
          | returns =>
              simp only [not_rejected (by rw [hplan]; simp : plan env h.runner id now operation ≠ _)]
              exact hr.returned hinv hchain
          | writes row starts =>
              simp only [not_rejected (by rw [hplan]; simp : plan env h.runner id now operation ≠ _)]
              refine hr.setStage hchain ?_ ?_
              · intro row' hrow'
                rcases hrow' with hrow' | hhead
                · exact ⟨row', .inl hrow', rfl⟩
                · simp only [Tasks.setStage, Function.update_self, List.head?_cons, Option.bind_some,
                    Transition.row?] at hhead
                  split at hhead
                  · cases hhead
                  · next hcreates =>
                    cases hhead
                    obtain ⟨task, htask, hfollows⟩ := plan_follows hplan (by simpa using hcreates)
                    exact ⟨task, .inl htask, hfollows.payload⟩
              · intro row' starts' hstage
                cases hstage
                exact plan_yields hplan
      | writing row starts => simpa [historyStep, note, Tasks.step, Tasks.begin, hchain] using hr
      | written row starts => simpa [historyStep, note, Tasks.step, Tasks.begin, hchain] using hr

theorem Recorded.writeFails (hr : Recorded env h) (hinv : Inv h.runner) (id : TaskId)
    (error : JsString) : Recorded env (historyStep env h (.event (.writeFails id error))) := by
  cases hchain : h.runner.chains id with
  | nil => simpa [historyStep, note, Tasks.step, Tasks.writeFails, hchain] using hr
  | cons t rest =>
      obtain ⟨ticket, operation, stage⟩ := t
      cases stage with
      | waiting => simpa [historyStep, note, Tasks.step, Tasks.writeFails, hchain] using hr
      | writing row starts =>
          simp only [historyStep, note, Tasks.step, Tasks.writeFails, hchain]
          exact hr.thrown hinv hchain error
      | written row starts => simpa [historyStep, note, Tasks.step, Tasks.writeFails, hchain] using hr

theorem Recorded.finish (hr : Recorded env h) (hinv : Inv h.runner) (id : TaskId) :
    Recorded env (historyStep env h (.event (.finish id))) := by
  cases hchain : h.runner.chains id with
  | nil => simpa [historyStep, note, Tasks.step, Tasks.finish, hchain] using hr
  | cons t rest =>
      obtain ⟨ticket, operation, stage⟩ := t
      cases stage with
      | waiting => simpa [historyStep, note, Tasks.step, Tasks.finish, hchain] using hr
      | writing row starts => simpa [historyStep, note, Tasks.step, Tasks.finish, hchain] using hr
      | written row starts =>
          have hcaptured : Recorded env { h with runner := capture h.runner id operation } := by
            unfold Tasks.capture
            split
            · exact hr.of_frame rfl (fun _ _ hrow => hrow) fun _ => rfl
            · exact hr
          have hinv' := hinv.capture id operation
          have hchain' : (capture h.runner id operation).chains id =
              ⟨ticket, operation, .written row starts⟩ :: rest := by
            rw [(capture_chains _ _ _).1, hchain]
          simp only [historyStep, note, Tasks.step, Tasks.finish, hchain]
          cases starts with
          | false => exact hcaptured.returned hinv' hchain'
          | true =>
              have hplay : InPlay (capture h.runner id operation) id row := by
                refine .inr ?_
                rw [hchain']
                rfl
              have hdequeue := hcaptured.dequeue hinv' id
              have hexecute := hdequeue.execute fun row' hrow' =>
                hcaptured.samePayload id row' row (inPlay_dequeue hinv' hrow') hplay
              have hsettled := hexecute.settled fun e he id' => hcaptured.free_of_head hchain' he id'
              have hlength : (Tasks.dequeue (capture h.runner id operation) id).executions =
                  h.runner.executions := by
                unfold Tasks.capture
                split <;> rfl
              simp only [hlength] at hsettled
              simp only [returned_eq_settled]
              exact hsettled

/-! ## The store -/

/-- The store writes a row: over a row with its payload, or for a new task for
whose id no handler is running. -/
theorem Recorded.writeRow (hr : Recorded env h) {id : TaskId}
    (hchain : h.runner.chains id = t :: rest)
    (hchains : s.chains = (Tasks.setStage h.runner id t (.written row starts)).chains)
    (hrows : s.rows = Function.update h.runner.rows id (some row))
    (hexecutions : s.executions = h.runner.executions)
    (hcreated : ∀ id', id' ≠ id → created id' = h.created id')
    (hself : (InPlay h.runner id row ∧ created id = h.created id) ∨
      ∀ x ∈ h.runner.executions, x.task = id → x.stage.isOpen = false) :
    Recorded env { h with runner := s, created } := by
  have hplaySelf : ∀ row', InPlay s id row' → row' = row := by
    intro row' hrow'
    unfold InPlay at hrow'
    rw [hrows, hchains] at hrow'
    simpa [Tasks.setStage, Transition.row?, eq_comm] using hrow'
  have hplayOther : ∀ id', id' ≠ id → ∀ row', InPlay s id' row' → InPlay h.runner id' row' := by
    intro id' hid row' hrow'
    unfold InPlay at hrow' ⊢
    rw [hrows, hchains] at hrow'
    simpa [Tasks.setStage, hid] using hrow'
  have hsettling : ∀ id', Tasks.settling s id' = Tasks.settling h.runner id' := by
    intro id'
    rw [← settling_setStage hchain (.written row starts) id']
    unfold Tasks.settling
    rw [hchains]
  constructor
  · intro id' row₁ row₂ hrow₁ hrow₂
    by_cases hid : id' = id
    · subst hid
      rw [hplaySelf row₁ hrow₁, hplaySelf row₂ hrow₂]
    · exact hr.samePayload id' row₁ row₂ (hplayOther id' hid row₁ hrow₁)
        (hplayOther id' hid row₂ hrow₂)
  · intro e x hx hopen
    simp only [hexecutions] at hx
    obtain ⟨i, hi, hcreation, hpayload⟩ := hr.invocation e x hx hopen
    by_cases hid : x.task = id
    · rcases hself with ⟨hplay, hsame⟩ | hnone
      · refine ⟨i, hi, ?_, ?_⟩
        · rw [hcreation, hid]
          exact hsame.symm
        · intro row' hrow'
          rw [hid] at hrow' hpayload
          rw [hplaySelf row' hrow']
          exact hpayload row hplay
      · rw [hnone x (List.mem_of_getElem? hx) hid] at hopen
        cases hopen
    · refine ⟨i, hi, hcreation.trans (hcreated x.task hid).symm, ?_⟩
      intro row' hrow'
      exact hpayload row' (hplayOther x.task hid row' hrow')
  · intro id' e he
    rw [hsettling] at he
    rw [hexecutions]
    exact hr.settling id' e he
  · intro id'
    rw [hsettling]
    exact hr.once id'
  · intro id' u hu
    rw [hchains] at hu
    by_cases hid : id' = id
    · subst hid
      simp only [Tasks.setStage, Function.update_self, hchain, List.tail_cons, List.mem_cons] at hu
      rcases hu with rfl | hu
      · exact hr.reports id' t (by simp [hchain])
      · exact hr.reports id' u (by simp [hchain, hu])
    · exact hr.reports id' u (by simpa [Tasks.setStage, hid] using hu)
  · intro id' u rest' row' starts' hchain' hstage
    rw [hchains] at hchain'
    by_cases hid : id' = id
    · subst hid
      simp only [Tasks.setStage, Function.update_self] at hchain'
      cases hchain'
      cases hstage
    · exact hr.yields id' u rest' row' starts' (by simpa [Tasks.setStage, hid] using hchain') hstage

theorem Recorded.write (hr : Recorded env h) {id : TaskId}
    (hvacant : Vacant h (.event (.write id))) :
    Recorded env (historyStep env h (.event (.write id))) := by
  cases hchain : h.runner.chains id with
  | nil => simpa [historyStep, note, Tasks.step, Tasks.write, hchain] using hr
  | cons t rest =>
      obtain ⟨ticket, operation, stage⟩ := t
      cases stage with
      | waiting => simpa [historyStep, note, Tasks.step, Tasks.write, hchain] using hr
      | written row starts => simpa [historyStep, note, Tasks.step, Tasks.write, hchain] using hr
      | writing row starts =>
          simp only [historyStep, note, Tasks.step, Tasks.write, hchain]
          cases operation with
          | create input =>
              refine hr.writeRow hchain rfl rfl rfl ?_ (.inr ?_)
              · intro id' hid
                exact Function.update_of_ne hid _ _
              · intro x hx htask
                have hall := hvacant (by simp [hchain, Operation.creates])
                have hx' := List.all_eq_true.mp hall x hx
                simpa [htask] using hx'
          | _ =>
              refine hr.writeRow hchain rfl rfl rfl (fun _ _ => rfl) (.inl ⟨.inr ?_, rfl⟩)
              simp [hchain, Transition.row?, Operation.creates]

/-! ## The steps of a handler -/

theorem Recorded.checkpoint (hr : Recorded env h) (execution : Nat) (patch : ProgressPatch V) :
    Recorded env { h with runner := checkpoint h.runner execution patch } := by
  unfold Tasks.checkpoint
  split
  · exact hr.enqueue_other _ rfl
  · exact hr

/-- A call of a handler that is running is settled by no transition yet. -/
theorem Recorded.free_of_running (hr : Recorded env h)
    (hx : h.runner.executions[execution]? = some x) (hrunning : x.stage = .running) (id : TaskId) :
    execution ∉ Tasks.settling h.runner id := by
  intro hmem
  obtain ⟨x', hx', -, hstage⟩ := hr.settling id execution hmem
  rw [hx] at hx'
  cases hx'
  rw [hrunning] at hstage
  cases hstage

theorem Recorded.settle (hr : Recorded env h) (execution : Nat) (outcome : Outcome V) :
    Recorded env (historyStep env h (.event (.settle execution outcome))) := by
  cases hx : h.runner.executions[execution]? with
  | none => simpa [historyStep, note, Tasks.step, Tasks.settle, hx] using hr
  | some x =>
      obtain ⟨task, aborted, stage⟩ := x
      cases stage with
      | running =>
          simp only [historyStep, note, Tasks.step, Tasks.settle, hx]
          have hfree := hr.free_of_running hx rfl
          obtain ⟨i, hi, -, -⟩ := hr.invocation execution _ hx rfl
          have hnoted : Recorded env
              (Tasks.updateInvocation h execution fun i => { i with outcome := some outcome }) :=
            hr.updateInvocation (fun _ => rfl) (fun _ => rfl) hfree
          have hadvanced : Recorded env
              { Tasks.updateInvocation h execution fun i => { i with outcome := some outcome } with
                runner := Tasks.advance h.runner execution .running .settling } :=
            hnoted.advance execution (fun _ => rfl) (by simp)
          refine hadvanced.enqueue ?_ ?_
          · cases outcome with
            | completes result => simp [Reports, Tasks.updateInvocation, hi]
            | fails interrupted error => simp [Reports, Tasks.updateInvocation, hi]
          · intro e he
            have hsame : e = execution := by
              cases outcome <;> simpa [Operation.execution?, eq_comm] using he
            subst hsame
            refine ⟨hfree task, ⟨task, aborted, .settling⟩, ?_, rfl, rfl⟩
            simp [Tasks.advance, hx, Execution.goOn]
      | settling => simpa [historyStep, note, Tasks.step, Tasks.settle, hx] using hr
      | finalizing => simpa [historyStep, note, Tasks.step, Tasks.settle, hx] using hr
      | ended => simpa [historyStep, note, Tasks.step, Tasks.settle, hx] using hr

theorem Recorded.finalize (hr : Recorded env h) (execution : Nat) :
    Recorded env { h with runner := finalize h.runner execution } := by
  unfold Tasks.finalize
  split
  · next task aborted hexecution =>
    have hadvanced : Recorded env
        { h with runner := Tasks.advance h.runner execution .finalizing .ended } :=
      hr.advance execution (by decide) (by simp)
    dsimp only
    split
    · exact hadvanced.of_frame rfl (fun _ _ hrow => hrow) fun _ => rfl
    · exact hadvanced
  · exact hr

/-! ## Runs -/

theorem Inv.clearTerminalPersistentTasks (hinv : Inv s) : Inv (clearTerminalPersistentTasks s) := by
  have hrows : ∀ id row, (Tasks.clearTerminalPersistentTasks s).rows id = some row →
      s.rows id = some row := fun id row hrow => (Option.filter_eq_some_iff.mp hrow).1
  refine ⟨hinv.live, ?_, hinv.later, ?_, ?_, hinv.recoveries⟩
  · intro id t rest hchain
    have hhead := hinv.head id t rest hchain
    unfold HeadOk at hhead ⊢
    split at hhead
    · trivial
    · exact ⟨hhead.bounds, hhead.free, fun row hrow => hhead.notFinal row (hrows id row hrow),
        hhead.attempt⟩
    · exact hhead
  · exact fun id row hrow => hinv.attempts id row (hrows id row hrow)
  · exact fun id row hrow => hinv.bounds id row (hrows id row hrow)

theorem current_of_not_recovery (h : event.isRecovery = false) : Current s event := by
  cases event with
  | recoverWrite index => cases h
  | _ => trivial

theorem Inv.historyStep (hinv : Inv h.runner) (hordinary : Ordinary h happening) :
    Inv (historyStep env h happening).runner := by
  cases happening with
  | event event => exact hinv.step hordinary.1 (current_of_not_recovery hordinary.2)
  | clearTerminalPersistentTasks => exact hinv.clearTerminalPersistentTasks

/-- Every step that creates no task while a handler runs for its id keeps the record. -/
theorem Recorded.step (hr : Recorded env h) (hinv : Inv h.runner)
    (hordinary : Ordinary h happening) (hvacant : Vacant h happening) :
    Recorded env (historyStep env h happening) := by
  cases happening with
  | clearTerminalPersistentTasks => exact hr.clearTerminalPersistentTasks
  | event event =>
      cases event with
      | create id input => exact hr.enqueue_other id rfl
      | pause id => exact hr.enqueue_other id rfl
      | resume id => exact hr.enqueue_other id rfl
      | cancel id => exact hr.enqueue_other id rfl
      | checkpoint execution patch => exact hr.checkpoint execution patch
      | settle execution outcome => exact hr.settle execution outcome
      | begin id now => exact hr.begin hinv id now
      | write id => exact hr.write hvacant
      | writeFails id error => exact hr.writeFails hinv id error
      | finish id => exact hr.finish hinv id
      | finalize execution => exact hr.finalize execution
      | abortCancelled => exact hr.abortCancelled
      | interruptAllForShutdown => exact hr.interruptAllForShutdown
      | recover listing => cases hordinary.2
      | recoverNext index now => cases hordinary.2
      | recoverWrite index => cases hordinary.2
      | recoverWriteFails index => cases hordinary.2
      | register kind listing => exact hr.register kind listing
      | unregister kind => exact hr.of_frame rfl (fun _ _ hrow => hrow) fun _ => rfl
      | deletePersistentTask id => exact hr.deletePersistentTask id

/-! ## Whose outcome a task gets -/

/-- A step makes a task completed or failed. -/
def Becomes (env : Environment) (h : History V) (happening : Happening V) (id : TaskId)
    (row : PersistentTask V) : Prop :=
  h.runner.rows id ≠ some row ∧ (historyStep env h happening).runner.rows id = some row ∧
    (row.status = .completed ∨ row.status = .failed)

/-- Only a transition writes a row that was not there before. -/
theorem exists_writing_of_becomes {id : TaskId} (hordinary : Ordinary h happening)
    (hbecomes : Becomes env h happening id row) : happening = .event (.write id) ∧
      ∃ t rest starts, h.runner.chains id = t :: rest ∧ t.stage = .writing row starts := by
  obtain ⟨hbefore, hafter, -⟩ := hbecomes
  cases happening with
  | clearTerminalPersistentTasks =>
      exact absurd (Option.filter_eq_some_iff.mp hafter).1 hbefore
  | event event =>
      cases event with
      | write id' =>
          simp only [Tasks.historyStep, Tasks.step, Tasks.write] at hafter
          split at hafter
          · next ticket operation row' starts rest hchain =>
            by_cases hid : id = id'
            · subst hid
              simp only [Function.update_self, Option.some.injEq] at hafter
              subst hafter
              exact ⟨rfl, _, rest, starts, hchain, rfl⟩
            · exact absurd (by simpa [hid] using hafter) hbefore
          · exact absurd hafter hbefore
      | deletePersistentTask id' =>
          by_cases hid : id = id'
          · subst hid
            simp [Tasks.historyStep, Tasks.step, Tasks.deletePersistentTask] at hafter
          · exact absurd (by simpa [Tasks.historyStep, Tasks.step, Tasks.deletePersistentTask, hid]
              using hafter) hbefore
      | recoverWrite index => cases hordinary.2
      | create => exact absurd hafter hbefore
      | pause => exact absurd hafter hbefore
      | resume => exact absurd hafter hbefore
      | cancel => exact absurd hafter hbefore
      | interruptAllForShutdown => exact absurd hafter hbefore
      | recover => exact absurd hafter hbefore
      | unregister => exact absurd hafter hbefore
      | _ => exact absurd (by simpa [Tasks.historyStep, Tasks.step] using hafter) hbefore

/-- The operation that ends a task with a row settles a call of a handler, which
came to that. -/
theorem Recorded.cameTo (hr : Recorded env h) {id : TaskId}
    (hchain : h.runner.chains id = t :: rest) (hstage : t.stage = .writing row starts)
    (hstatus : row.status = .completed ∨ row.status = .failed) :
    ∃ e i, t.operation.execution? = some e ∧ h.invocations e = some i ∧ i.CameTo env row := by
  have hyields := hr.yields id t rest row starts hchain hstage
  have hreports := hr.reports id t (by simp [hchain])
  cases hoperation : t.operation with
  | complete e result =>
      rw [hoperation] at hyields hreports
      obtain ⟨i, hi, houtcome⟩ := hreports
      exact ⟨e, i, rfl, hi, .inl ⟨hyields.1, result, houtcome, hyields.2⟩⟩
  | fail e interrupted error =>
      rw [hoperation] at hyields hreports
      obtain ⟨hinterrupted, hfailed, herror⟩ := hyields
      obtain ⟨i, hi, houtcome⟩ := hreports
      refine ⟨e, i, rfl, hi, .inr ⟨hfailed, error, herror, ?_⟩⟩
      rw [hinterrupted] at houtcome
      exact houtcome.imp_right And.right
  | _ =>
      rw [hoperation] at hyields
      rcases hstatus with hstatus | hstatus
      · exact absurd hstatus hyields.1
      · exact absurd hstatus hyields.2

theorem Recorded.ownOutcome (hr : Recorded env h) {id : TaskId} (hordinary : Ordinary h happening)
    (hbecomes : Becomes env h happening id row) : OwnOutcome env h happening id row := by
  obtain ⟨rfl, t, rest, starts, hchain, hstage⟩ := exists_writing_of_becomes hordinary hbecomes
  obtain ⟨e, i, he, hi, hcameTo⟩ := hr.cameTo hchain hstage hbecomes.2.2
  obtain ⟨x, hx, htask, hsettling⟩ := hr.settling id e (mem_settling.mpr ⟨t, by simp [hchain], he⟩)
  obtain ⟨i', hi', hcreation, hpayload⟩ := hr.invocation e x hx (by rw [hsettling]; rfl)
  rw [hi, Option.some.injEq] at hi'
  subst hi'
  have hcreates : t.operation.creates = false := by
    cases hoperation : t.operation with
    | create input =>
        rw [hoperation] at he
        cases he
    | _ => rfl
  have hplay : InPlay h.runner id row := .inr (by simp [hchain, Transition.row?, hstage, hcreates])
  rw [htask] at hcreation hpayload
  refine ⟨e, i, ?_, ?_, hi, hcreation, (hpayload row hplay).symm, hcameTo⟩
  · simp [writer, hchain, he]
  · simp [hx, htask]

end

/-- A history that has seen nothing yet. -/
def History.start (s : Runner V) : History V := ⟨s, fun _ => 0, fun _ => none⟩

theorem Initial.recorded (env : Environment) (h : Initial s) : Recorded env (History.start s) := by
  have hplay : ∀ id row, InPlay s id row → s.rows id = some row := by
    intro id row hrow
    simpa [InPlay, h.chains id] using hrow
  constructor
  · intro id row row' hrow hrow'
    have heq := (hplay id row hrow).symm.trans (hplay id row' hrow')
    exact congrArg _ (Option.some.inj heq)
  · intro e x hx
    simp [History.start, h.executions] at hx
  · intro id e he
    simp [settling, History.start, h.chains id] at he
  · intro id
    simp [settling, History.start, h.chains id]
  · intro id t ht
    simp [History.start, h.chains id] at ht
  · intro id t rest row starts hchain
    simp [History.start, h.chains id] at hchain

/-- In every run that creates no task while a handler is still running for its
id, a task is completed or failed by a call of the handler that was started for
it. -/
theorem task_gets_own_outcome (env : Environment) {start : Runner V} (hstart : Initial start)
    {before : List (Happening V)} {happening : Happening V}
    (hrun : Lib.Along (historyStep env) (fun h x => Ordinary h x ∧ Vacant h x)
      (History.start start) (before ++ [happening]))
    {id : TaskId} {row : PersistentTask V}
    (hbecomes : Becomes env (Lib.run (historyStep env) (History.start start) before) happening id
      row) :
    OwnOutcome env (Lib.run (historyStep env) (History.start start) before) happening id row := by
  obtain ⟨hbefore, hlast⟩ := Lib.along_append.mp hrun
  have hinv : Inv (Lib.run (historyStep env) (History.start start) before).runner ∧
      Recorded env (Lib.run (historyStep env) (History.start start) before) :=
    Lib.invariant_of_along (fun h => Inv h.runner ∧ Recorded env h)
      (fun _ _ h hok => ⟨h.1.historyStep hok.1, h.2.step h.1 hok.1 hok.2⟩)
      ⟨hstart.inv, hstart.recorded env⟩ hbefore
  exact hinv.2.ownOutcome hlast.1.1 hbecomes

instance [DecidableEq V] (h : History V) : (x : Happening V) → Decidable (Ordinary h x)
  | .event event =>
      inferInstanceAs (Decidable (Possible h.runner event ∧ event.isRecovery = false))
  | .clearTerminalPersistentTasks => .isTrue trivial

instance (h : History V) : (x : Happening V) → Decidable (Vacant h x)
  | .event (.write _) => inferInstanceAs (Decidable (_ = true → _ = true))
  | .event (.create _ _) | .event (.pause _) | .event (.resume _) | .event (.cancel _)
  | .event (.checkpoint _ _) | .event (.settle _ _) | .event (.begin _ _)
  | .event (.writeFails _ _) | .event (.finish _) | .event (.finalize _) | .event .abortCancelled
  | .event .interruptAllForShutdown | .event (.recover _) | .event (.recoverNext _ _)
  | .event (.recoverWrite _) | .event (.recoverWriteFails _) | .event (.register _ _)
  | .event (.unregister _) | .event (.deletePersistentTask _)
  | .clearTerminalPersistentTasks => .isTrue trivial

instance [DecidableEq V] (env : Environment) (h : History V) (x : Happening V) (id : TaskId)
    (row : PersistentTask V) : Decidable (Becomes env h x id row) :=
  inferInstanceAs (Decidable (_ ≠ _ ∧ _ = _ ∧ (_ = _ ∨ _ = _)))

/-- A runner with one handler over an empty store. -/
def idleRunner : Runner Nat where
  rows _ := none
  handlers := [js "import"]
  active _ := none
  chains _ := []
  executions := []
  recoveries := []
  recoveryComplete := false
  aborts := []
  ticket := 0
  started _ := 0

theorem idleRunner_initial : Initial idleRunner where
  active _ := rfl
  chains _ := rfl
  executions := rfl
  recoveries := rfl
  attempts _ _ h := by cases h
  progress _ _ h := by cases h

/-- A transition of the task that writes its row. -/
def transitionOf (event : TaskId → Event Nat) : List (Happening Nat) :=
  [event (js "t"), .begin (js "t") 0, .write (js "t"), .finish (js "t")].map .event

/-- The task is created with a payload, and its handler called. -/
def startWith (payload : Nat) : List (Happening Nat) :=
  transitionOf (fun id => .create id ⟨js "import", payload, none, some 4⟩) ++ transitionOf .resume

/-- A handler settles, and its result is about to be written. -/
def completeWith (execution result : Nat) : List (Happening Nat) :=
  [.event (.settle execution (.completes result)), .event (.begin (js "t") 0)]

/-- The row of a completed task. -/
def completedRow (payload result : Nat) : PersistentTask Nat :=
  ⟨js "t", js "import", .completed, payload, ⟨4, 4, 100, none, none⟩, some result, none, true, 1, 0, 0,
    some 0, some 0⟩

/-- A task is created again when the one before is over. -/
def recreateTask : List (Happening Nat) :=
  startWith 1 ++ completeWith 0 7 ++ [.event (.write (js "t")), .event (.finish (js "t")),
    .event (.finalize 0), .clearTerminalPersistentTasks] ++ startWith 2 ++ completeWith 1 8

theorem recreated_task_completes :
    OwnOutcome plainEnvironment
      (Lib.run (historyStep plainEnvironment) (History.start idleRunner) recreateTask)
      (.event (.write (js "t"))) (js "t") (completedRow 2 8) :=
  task_gets_own_outcome plainEnvironment idleRunner_initial (by decide +kernel) (by decide +kernel)

/-- A task is created again while the handler of the one before is running. -/
def recreateTaskTooEarly : List (Happening Nat) :=
  startWith 1 ++ transitionOf .cancel ++ [.event .abortCancelled, .clearTerminalPersistentTasks] ++
    startWith 2 ++ completeWith 0 7

/-- The new task gets the result of the handler that was started for the old one. -/
theorem recreated_task_gets_old_result :
    ∃ (before : List (Happening Nat)) (happening : Happening Nat) (id : TaskId)
      (row : PersistentTask Nat),
      Lib.Along (historyStep plainEnvironment) Ordinary (History.start idleRunner)
        (before ++ [happening]) ∧
      Becomes plainEnvironment
        (Lib.run (historyStep plainEnvironment) (History.start idleRunner) before) happening id row ∧
      ¬OwnOutcome plainEnvironment
        (Lib.run (historyStep plainEnvironment) (History.start idleRunner) before) happening id
        row := by
  refine ⟨recreateTaskTooEarly, .event (.write (js "t")), js "t",
    { completedRow 2 7 with
      attempt := 0
      startedAt := none }, by decide +kernel, by decide +kernel, ?_⟩
  rintro ⟨e, invocation, hwriter, -, hinvocation, hcreation, -⟩
  have hfirst : e = 0 := by
    have hwriter' : writer (Lib.run (historyStep plainEnvironment) (History.start idleRunner)
        recreateTaskTooEarly).runner (js "t") (.event (.write (js "t"))) = some 0 := by
      decide +kernel
    rw [hwriter'] at hwriter
    exact (Option.some.inj hwriter).symm
  have hother : ((Lib.run (historyStep plainEnvironment) (History.start idleRunner)
      recreateTaskTooEarly).invocations 0).map Invocation.creation ≠
        some ((Lib.run (historyStep plainEnvironment) (History.start idleRunner)
          recreateTaskTooEarly).created (js "t")) := by
    decide +kernel
  rw [hfirst] at hinvocation
  rw [hinvocation, Option.map_some, hcreation] at hother
  exact hother rfl

end StonePlus.Tasks
