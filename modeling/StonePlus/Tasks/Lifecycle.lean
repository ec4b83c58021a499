import StonePlus.Tasks.Runner

/-!
# StonePlus.Tasks.Lifecycle

What holds of every task in every run of the task runner in which a recovery
does not write over a row that has moved on.
-/

namespace StonePlus.Tasks

variable {V : Type}

/-! ## The invariant -/

/-- A row has been written for a call of the handler that is about to be made. -/
def Stage.isStarting : Stage V → Bool
  | .written _ starts => starts
  | _ => false

/-- The calls of the handler that are about to be made. -/
def starting (s : Runner V) (id : TaskId) : Nat :=
  ((s.chains id).head?.any fun t => t.stage.isStarting).toNat

/-- What holds of a row that is about to be written. -/
structure WritingOk (s : Runner V) (id : TaskId) (operation : Operation V) (row : PersistentTask V)
    (starts : Bool) : Prop where
  bounds : row.progress.InBounds
  free : starts = true → s.active id = none
  notFinal : ∀ current, s.rows id = some current → isFinal current.status = false
  attempt : row.attempt = (if operation.creates then 0 else s.started id) + starts.toNat

/-- What holds of the first transition of a task. -/
def HeadOk (s : Runner V) (id : TaskId) (transition : Transition V) : Prop :=
  match transition.stage with
  | .waiting => True
  | .writing row starts => WritingOk s id transition.operation row starts
  | .written _ starts => starts = true → s.active id = none

/-- What holds of the rows of a recovery. -/
structure RecoveryOk (recovery : Recovery V) : Prop where
  remaining : ∀ task ∈ recovery.remaining, task.progress.InBounds
  writing : ∀ row resumes, recovery.stage = .writing row resumes →
    row.progress.InBounds ∧ isFinal row.status = false

structure Inv (s : Runner V) : Prop where
  live : ∀ e x, s.executions[e]? = some x → x.stage ≠ .ended → s.active x.task = some e
  head : ∀ id t rest, s.chains id = t :: rest → HeadOk s id t
  later : ∀ id t rest, s.chains id = t :: rest → ∀ u ∈ rest, u.stage = .waiting
  attempts : ∀ id row, s.rows id = some row → row.attempt = s.started id + starting s id
  bounds : ∀ id row, s.rows id = some row → row.progress.InBounds
  recoveries : ∀ r ∈ s.recoveries, RecoveryOk r

/-! ## Chains -/

theorem HeadOk.congr {id : TaskId} (h : HeadOk s id t) (hrows : s'.rows id = s.rows id)
    (hactive : s'.active id = s.active id) (hstarted : s'.started id = s.started id) :
    HeadOk s' id t := by
  unfold HeadOk at h ⊢
  split at h
  · trivial
  · obtain ⟨hbounds, hfree, hnotFinal, hattempt⟩ := h
    constructor
    · exact hbounds
    · rwa [hactive]
    · rwa [hrows]
    · rwa [hstarted]
  · rwa [hactive]

theorem headOk_waiting {id : TaskId} (h : t.stage = .waiting) : HeadOk s id t := by
  unfold HeadOk
  rw [h]
  trivial

variable {s : Runner V}

theorem starting_of_waiting {id : TaskId}
    (h : ∀ t rest, s.chains id = t :: rest → t.stage = .waiting) : starting s id = 0 := by
  unfold starting
  cases hchain : s.chains id with
  | nil => rfl
  | cons t rest => simp [h t rest hchain, Stage.isStarting]

theorem starting_congr {id : TaskId} (h : s'.chains id = s.chains id) :
    starting s' id = starting s id := by
  unfold starting
  rw [h]

/-- A transition at the end of a chain does not make the first one call a handler. -/
theorem starting_enqueue (s : Runner V) (id id' : TaskId) (operation : Operation V) :
    starting (enqueue s id operation) id' = starting s id' := by
  by_cases hid : id' = id
  · subst hid
    cases hchain : s.chains id' with
    | nil => simp [starting, enqueue, hchain, Stage.isStarting]
    | cons t rest => simp [starting, enqueue, hchain]
  · exact starting_congr (by simp [enqueue, hid])

theorem Inv.enqueue (h : Inv s) (id : TaskId) (operation : Operation V) :
    Inv (enqueue s id operation) := by
  have hchains : ∀ id' t rest, (Tasks.enqueue s id operation).chains id' = t :: rest →
      (∃ rest', s.chains id' = t :: rest' ∧ ∀ u ∈ rest, u ∈ rest' ∨ u.stage = .waiting) ∨
        t.stage = .waiting ∧ rest = [] := by
    intro id' t rest hchain
    by_cases hid : id' = id
    · subst hid
      cases hold : s.chains id' with
      | nil =>
          simp only [Tasks.enqueue, hold, Function.update_self, List.nil_append] at hchain
          cases hchain
          exact .inr ⟨rfl, rfl⟩
      | cons t' rest' =>
          simp only [Tasks.enqueue, hold, Function.update_self, List.cons_append] at hchain
          cases hchain
          refine .inl ⟨rest', rfl, ?_⟩
          intro u hu
          rcases List.mem_append.mp hu with hu | hu
          · exact .inl hu
          · rw [List.mem_singleton.mp hu]
            exact .inr rfl
    · have hsame : (Tasks.enqueue s id operation).chains id' = s.chains id' := by
        simp [Tasks.enqueue, hid]
      rw [hsame] at hchain
      exact .inl ⟨rest, hchain, fun u hu => .inl hu⟩
  constructor
  · exact h.live
  · intro id' t rest hchain
    rcases hchains id' t rest hchain with ⟨rest', hold, -⟩ | ⟨hwaiting, -⟩
    · exact (h.head id' t rest' hold).congr rfl rfl rfl
    · exact headOk_waiting hwaiting
  · intro id' t rest hchain u hu
    rcases hchains id' t rest hchain with ⟨rest', hold, hrest⟩ | ⟨-, rfl⟩
    · rcases hrest u hu with hu | hu
      · exact h.later id' t rest' hold u hu
      · exact hu
    · cases hu
  · intro id' row hrow
    rw [starting_enqueue]
    exact h.attempts id' row hrow
  · exact h.bounds
  · exact h.recoveries

theorem Inv.enqueueAll (h : Inv s) (ids : List TaskId) (operation : Operation V) :
    Inv (enqueueAll s ids operation) := by
  unfold Tasks.enqueueAll
  induction ids generalizing s with
  | nil => exact h
  | cons id ids ih => exact ih (h.enqueue id operation)

theorem dequeue_of_ne (s : Runner V) {id : TaskId} (h : id' ≠ id) :
    (dequeue s id).chains id' = s.chains id' := by
  simp [dequeue, h]

/-- After the first transition the others wait. -/
theorem Inv.dequeue_waiting (h : Inv s) {id : TaskId}
    (hchain : (dequeue s id).chains id = t :: rest) :
    t.stage = .waiting ∧ ∀ u ∈ rest, u.stage = .waiting := by
  simp only [dequeue, Function.update_self] at hchain
  cases hold : s.chains id with
  | nil =>
      rw [hold] at hchain
      cases hchain
  | cons t' rest' =>
      rw [hold, List.tail_cons] at hchain
      have hall := h.later id t' rest' hold
      rw [hchain] at hall
      exact ⟨hall t List.mem_cons_self, fun u hu => hall u (List.mem_cons_of_mem t hu)⟩

theorem starting_dequeue (h : Inv s) (id : TaskId) : starting (dequeue s id) id = 0 :=
  starting_of_waiting fun _ _ hchain => (h.dequeue_waiting hchain).1

theorem Inv.dequeue (h : Inv s) {id : TaskId} (hstarting : starting s id = 0) :
    Inv (dequeue s id) := by
  constructor
  · exact h.live
  · intro id' t rest hchain
    by_cases hid : id' = id
    · subst hid
      exact headOk_waiting (h.dequeue_waiting hchain).1
    · exact (h.head id' t rest (dequeue_of_ne s hid ▸ hchain)).congr rfl rfl rfl
  · intro id' t rest hchain
    by_cases hid : id' = id
    · subst hid
      exact (h.dequeue_waiting hchain).2
    · exact h.later id' t rest (dequeue_of_ne s hid ▸ hchain)
  · intro id' row hrow
    by_cases hid : id' = id
    · subst hid
      rw [starting_dequeue h, ← hstarting]
      exact h.attempts id' row hrow
    · rw [starting_congr (dequeue_of_ne s hid)]
      exact h.attempts id' row hrow
  · exact h.bounds
  · exact h.recoveries

/-- A handler is called for the first transition, which ends. -/
theorem Inv.execute (h : Inv s) {id : TaskId} (hstarting : starting s id = 1)
    (hfree : s.active id = none) : Inv (Tasks.dequeue (Tasks.execute s id) id) := by
  constructor
  · intro e x hx hstage
    simp only [Tasks.dequeue, Tasks.execute] at hx ⊢
    rw [List.getElem?_append] at hx
    split at hx
    · have hactive := h.live e x hx hstage
      by_cases hid : x.task = id
      · rw [hid, hfree] at hactive
        cases hactive
      · rwa [Function.update_of_ne hid]
    · next hlength =>
      obtain ⟨hindex, hsame⟩ := List.getElem?_eq_some_iff.mp hx
      have hzero : e - s.executions.length = 0 := by simpa using hindex
      have he : e = s.executions.length := by omega
      simp only [hzero, List.getElem_cons_zero] at hsame
      subst hsame
      rw [Function.update_self, he]
  · intro id' t rest hchain
    by_cases hid : id' = id
    · subst hid
      exact headOk_waiting (h.dequeue_waiting hchain).1
    · refine (h.head id' t rest (dequeue_of_ne s hid ▸ hchain)).congr rfl ?_ ?_
      · simp [Tasks.dequeue, Tasks.execute, hid]
      · simp [Tasks.dequeue, Tasks.execute, hid]
  · intro id' t rest hchain
    by_cases hid : id' = id
    · subst hid
      exact (h.dequeue_waiting hchain).2
    · exact h.later id' t rest (dequeue_of_ne s hid ▸ hchain)
  · intro id' row hrow
    have hattempt := h.attempts id' row hrow
    by_cases hid : id' = id
    · subst hid
      rw [hstarting] at hattempt
      have hwaiting : starting (Tasks.dequeue (Tasks.execute s id') id') id' = 0 :=
        starting_dequeue h id'
      rw [hwaiting, hattempt]
      simp [Tasks.dequeue, Tasks.execute]
    · have hsame : starting (Tasks.dequeue (Tasks.execute s id) id) id' = starting s id' :=
        starting_congr (dequeue_of_ne s hid)
      rw [hsame, hattempt]
      simp [Tasks.dequeue, Tasks.execute, hid]
  · exact h.bounds
  · exact h.recoveries

/-! ## Executions and recoveries -/

theorem Inv.of_executions (h : Inv s)
    (hlive : ∀ (e : Nat) (x : Execution), executions[e]? = some x → x.stage ≠ .ended →
      ∃ x₀ : Execution, s.executions[e]? = some x₀ ∧ x₀.task = x.task ∧ x₀.stage ≠ .ended) :
    Inv { s with executions } := by
  refine ⟨?_, ?_, h.later, h.attempts, h.bounds, h.recoveries⟩
  · intro e x hx hstage
    obtain ⟨x₀, hx₀, htask, hstage₀⟩ := hlive e x hx hstage
    rw [← htask]
    exact h.live e x₀ hx₀ hstage₀
  · intro id t rest hchain
    exact (h.head id t rest hchain).congr rfl rfl rfl

theorem Inv.of_recoveries (h : Inv s) {recoveries : List (Recovery V)}
    (hrecoveries : ∀ r ∈ recoveries, RecoveryOk r) : Inv { s with recoveries } := by
  refine ⟨h.live, ?_, h.later, h.attempts, h.bounds, hrecoveries⟩
  intro id t rest hchain
  exact (h.head id t rest hchain).congr rfl rfl rfl

/-- What is modified of an execution is found in it before. -/
theorem getElem?_modify_some {executions : List Execution}
    (h : (executions.modify index f)[e]? = some x) :
    ∃ x₀, executions[e]? = some x₀ ∧ (x = x₀ ∨ e = index ∧ x = f x₀) := by
  rw [List.getElem?_modify] at h
  obtain ⟨x₀, hx₀, hx⟩ := Option.map_eq_some_iff.mp h
  refine ⟨x₀, hx₀, ?_⟩
  split at hx
  · next heq => exact .inr ⟨heq.symm, hx.symm⟩
  · exact .inl hx.symm

theorem Execution.goOn_task (e : Execution) (stage stage' : ExecutionStage) :
    (e.goOn stage stage').task = e.task := by
  unfold goOn
  split <;> rfl

/-- An execution goes on to a stage that is not the last. -/
theorem Inv.advance (h : Inv s) (execution : Nat) (hstage : stage ≠ .ended) :
    Inv (advance s execution stage stage') := by
  refine h.of_executions ?_
  intro e x hx hx'
  obtain ⟨x₀, hx₀, rfl | ⟨-, rfl⟩⟩ := getElem?_modify_some hx
  · exact ⟨x, hx₀, rfl, hx'⟩
  · refine ⟨x₀, hx₀, (x₀.goOn_task stage stage').symm, ?_⟩
    intro hended
    refine hx' ?_
    rw [Execution.goOn, if_neg (by rw [hended]; exact hstage.symm), hended]

theorem Inv.abort (h : Inv s) (execution : Nat) : Inv (abort s execution) := by
  refine h.of_executions ?_
  intro e x hx hx'
  obtain ⟨x₀, hx₀, rfl | ⟨-, rfl⟩⟩ := getElem?_modify_some hx
  · exact ⟨x, hx₀, rfl, hx'⟩
  · exact ⟨x₀, hx₀, rfl, hx'⟩

theorem Inv.interruptAllForShutdown (h : Inv s) : Inv (interruptAllForShutdown s) := by
  refine h.of_executions ?_
  intro e x hx hx'
  rw [List.getElem?_mapIdx] at hx
  obtain ⟨x₀, hx₀, rfl⟩ := Option.map_eq_some_iff.mp hx
  refine ⟨x₀, hx₀, ?_, ?_⟩
  · split <;> rfl
  · split at hx' <;> exact hx'

theorem Recovery.afterThrow_ok (h : RecoveryOk recovery) (ticket : Nat) :
    RecoveryOk (recovery.afterThrow ticket) := by
  unfold afterThrow
  split
  · split
    · refine ⟨h.remaining, ?_⟩
      intro row resumes hstage
      cases hstage
    · exact h
  · exact h

/-! ## What a transition does at its end -/

theorem Inv.returned (h : Inv s) {id : TaskId} (transition : Transition V)
    (hstarting : starting s id = 0) : Inv (returned s id transition) := by
  have hdequeue := h.dequeue hstarting
  unfold Tasks.returned
  split
  · exact hdequeue.advance _ (by decide)
  · exact hdequeue.advance _ (by decide)
  · exact hdequeue

theorem Inv.thrown (h : Inv s) {id : TaskId} (transition : Transition V) (error : JsString)
    (hstarting : starting s id = 0) : Inv (thrown s id transition error) := by
  have hdequeue := h.dequeue hstarting
  unfold Tasks.thrown
  split
  · exact hdequeue.enqueue id _
  · exact hdequeue.advance _ (by decide)
  · refine hdequeue.of_recoveries ?_
    intro r hr
    obtain ⟨r₀, hr₀, rfl⟩ := List.mem_map.mp hr
    exact Recovery.afterThrow_ok (h.recoveries r₀ hr₀) _

/-! ## What a transition writes -/

/-- A row over a row that is not final. -/
structure Rewrites (s : Runner V) (id : TaskId) (task row : PersistentTask V) (starts : Bool) :
    Prop where
  bounds : task.progress.InBounds → row.progress.InBounds
  free : starts = true → s.active id = none
  notFinal : isFinal task.status = false
  attempt : row.attempt = task.attempt + starts.toNat

theorem isFinal_eq_false_of_not_terminal (h : ¬isTerminal status = true) :
    isFinal status = false := by
  cases status <;> simp_all [isTerminal, isFinal]

section

variable {s : Runner V} {id : TaskId} {now : ℚ} {task row : PersistentTask V} {starts : Bool}

/-- A row that keeps the attempt of a row that is not terminal. -/
theorem rewrites_of_not_terminal (h : ¬isTerminal task.status = true)
    (hbounds : task.progress.InBounds → row.progress.InBounds) (hattempt : row.attempt = task.attempt) :
    Rewrites s id task row false where
  bounds := hbounds
  free := by simp
  notFinal := isFinal_eq_false_of_not_terminal h
  attempt := hattempt

theorem planPause_writes (h : planPause now task = .writes row starts) :
    Rewrites s id task row starts := by
  unfold planPause at h
  split at h
  · cases h
  · next hnot =>
    cases h
    refine rewrites_of_not_terminal ?_ (fun hbounds => hbounds) rfl
    intro hterminal
    simp [hterminal] at hnot

theorem planResume_writes (h : planResume s id now task = .writes row starts) :
    Rewrites s id task row starts := by
  unfold planResume at h
  split at h
  · cases h
  · next hnot =>
    have hfinal : isFinal task.status = false := by simpa using hnot
    split at h
    · split at h
      · cases h
      · cases h
        exact ⟨fun hbounds => hbounds, by simp, hfinal, rfl⟩
    · next hactive =>
      split at h
      · cases h
      · cases h
        exact ⟨fun hbounds => hbounds, fun _ => by simpa using hactive, hfinal, rfl⟩

theorem planCancel_writes (h : planCancel now task = .writes row starts) :
    Rewrites s id task row starts := by
  unfold planCancel at h
  split at h
  · cases h
  · next hnot =>
    cases h
    exact rewrites_of_not_terminal hnot (fun hbounds => hbounds) rfl

theorem planCheckpoint_writes (h : planCheckpoint env now aborted patch task = .writes row starts) :
    Rewrites s id task row starts := by
  unfold planCheckpoint at h
  split at h
  · cases h
  · split at h
    · cases h
    · next hnot =>
      cases h
      exact rewrites_of_not_terminal hnot (fun _ => patchProgress_inBounds _ _) rfl

/-- A completed task has made all its progress. -/
theorem planComplete_writes (h : planComplete now result task = .writes row starts) :
    Rewrites s id task row starts := by
  unfold planComplete at h
  split at h
  · cases h
  · next hnot =>
    cases h
    refine rewrites_of_not_terminal hnot ?_ rfl
    intro hbounds
    have htotal := hbounds.completed_nonneg.trans hbounds.completed_le
    exact ⟨htotal, le_refl _, by norm_num, le_refl _⟩

theorem planFail_writes (h : planFail env now interrupted error task = .writes row starts) :
    Rewrites s id task row starts := by
  unfold planFail at h
  split at h
  · cases h
  · next hnot =>
    split at h
    · cases h
    · cases h
      exact rewrites_of_not_terminal hnot (fun hbounds => hbounds) rfl

/-- A row that is written over the row that was read. -/
theorem writingOk_of_withTask (h : Inv s) (hstarting : starting s id = 0)
    (hplan : withTask s id f = .writes row starts)
    (hrewrites : ∀ task, f task = .writes row starts → Rewrites s id task row starts)
    (hcreates : operation.creates = false) : WritingOk s id operation row starts := by
  unfold withTask at hplan
  split at hplan
  · cases hplan
  · next task htask =>
    obtain ⟨hbounds, hfree, hnotFinal, hattempt⟩ := hrewrites task hplan
    have hcurrent := h.attempts id task htask
    refine ⟨hbounds (h.bounds id task htask), hfree, ?_, ?_⟩
    · intro current heq
      rw [htask] at heq
      cases heq
      exact hnotFinal
    · rw [hattempt, hcurrent, hstarting, hcreates]
      rfl

theorem planCreate_writes (h : planCreate s id now input = .writes row starts) :
    WritingOk s id (.create input) row starts := by
  unfold planCreate at h
  split at h
  · cases h
  · next hrow =>
    split at h
    · cases h
    · cases h
      refine ⟨?_, by simp, ?_, rfl⟩
      · exact ⟨le_refl _, finiteCount_nonneg _ _, le_refl _, by norm_num [createRow]⟩
      · intro current hcurrent
        simp [hcurrent] at hrow

theorem plan_writes (h : Inv s) (hstarting : starting s id = 0)
    (hplan : plan env s id now operation = .writes row starts) :
    WritingOk s id operation row starts := by
  cases operation with
  | create input => exact planCreate_writes hplan
  | pause =>
      exact writingOk_of_withTask h hstarting hplan (fun _ hwrites => planPause_writes hwrites) rfl
  | resume =>
      exact writingOk_of_withTask h hstarting hplan (fun _ hwrites => planResume_writes hwrites) rfl
  | cancel =>
      exact writingOk_of_withTask h hstarting hplan (fun _ hwrites => planCancel_writes hwrites) rfl
  | checkpoint execution patch =>
      exact writingOk_of_withTask h hstarting hplan (fun _ hwrites => planCheckpoint_writes hwrites)
        rfl
  | complete execution result =>
      exact writingOk_of_withTask h hstarting hplan (fun _ hwrites => planComplete_writes hwrites)
        rfl
  | fail execution interrupted error =>
      exact writingOk_of_withTask h hstarting hplan (fun _ hwrites => planFail_writes hwrites) rfl

end

/-! ## The steps of a transition -/

theorem starting_of_head {id : TaskId} (h : s.chains id = t :: rest) :
    starting s id = t.stage.isStarting.toNat := by
  simp [starting, h]

theorem Inv.begin (h : Inv s) (id : TaskId) (now : ℚ) : Inv (begin env s id now) := by
  unfold Tasks.begin
  split
  · next ticket operation rest hchain =>
    have hstarting : starting s id = 0 := starting_of_head hchain
    split
    · exact h.thrown _ _ hstarting
    · exact h.returned _ hstarting
    · next row starts hplan =>
      have hwriting := plan_writes h hstarting hplan
      have hother : ∀ id', id' ≠ id →
          (setStage s id ⟨ticket, operation, .waiting⟩ (.writing row starts)).chains id' =
            s.chains id' := by
        intro id' hid
        simp [setStage, hid]
      have hself : (setStage s id ⟨ticket, operation, .waiting⟩ (.writing row starts)).chains id =
          ⟨ticket, operation, .writing row starts⟩ :: rest := by
        simp [setStage, hchain]
      constructor
      · exact h.live
      · intro id' t rest' hchain'
        by_cases hid : id' = id
        · subst hid
          rw [hself] at hchain'
          cases hchain'
          exact (show HeadOk s id' ⟨ticket, operation, .writing row starts⟩ from hwriting).congr rfl rfl
            rfl
        · exact (h.head id' t rest' (hother id' hid ▸ hchain')).congr rfl rfl rfl
      · intro id' t rest' hchain'
        by_cases hid : id' = id
        · subst hid
          rw [hself] at hchain'
          cases hchain'
          exact h.later id' _ rest hchain
        · exact h.later id' t rest' (hother id' hid ▸ hchain')
      · intro id' row' hrow'
        by_cases hid : id' = id
        · subst hid
          rw [starting_of_head hself]
          have := h.attempts id' row' hrow'
          rwa [hstarting] at this
        · rw [starting_congr (hother id' hid)]
          exact h.attempts id' row' hrow'
      · exact h.bounds
      · exact h.recoveries
  · exact h

theorem Inv.write (h : Inv s) (id : TaskId) : Inv (write s id) := by
  unfold Tasks.write
  split
  · next ticket operation row starts rest hchain =>
    have hwriting : WritingOk s id operation row starts := h.head id _ rest hchain
    constructor
    · exact h.live
    · intro id' t rest' hchain'
      by_cases hid : id' = id
      · subst hid
        simp only [setStage, Function.update_self] at hchain'
        cases hchain'
        exact hwriting.free
      · simp only [setStage, Function.update_of_ne hid] at hchain'
        refine (h.head id' t rest' hchain').congr ?_ rfl ?_
        · simp [hid]
        · dsimp only
          split
          · simp [hid]
          · rfl
    · intro id' t rest' hchain'
      by_cases hid : id' = id
      · subst hid
        simp only [setStage, Function.update_self, hchain, List.tail_cons] at hchain'
        cases hchain'
        exact h.later id' _ rest hchain
      · simp only [setStage, Function.update_of_ne hid] at hchain'
        exact h.later id' t rest' hchain'
    · intro id' row' hrow'
      by_cases hid : id' = id
      · subst hid
        simp only [Function.update_self, Option.some.injEq] at hrow'
        subst hrow'
        rw [hwriting.attempt]
        cases hcreates : operation.creates <;> simp [starting, setStage, Stage.isStarting]
      · simp only [Function.update_of_ne hid] at hrow'
        have := h.attempts id' row' hrow'
        cases hcreates : operation.creates <;> simpa [starting, setStage, hid] using this
    · intro id' row' hrow'
      by_cases hid : id' = id
      · subst hid
        simp only [Function.update_self, Option.some.injEq] at hrow'
        subst hrow'
        exact hwriting.bounds
      · simp only [Function.update_of_ne hid] at hrow'
        exact h.bounds id' row' hrow'
    · exact h.recoveries
  · exact h

theorem Inv.writeFails (h : Inv s) (id : TaskId) (error : JsString) :
    Inv (writeFails s id error) := by
  unfold Tasks.writeFails
  split
  · next hchain => exact h.thrown _ _ (starting_of_head hchain)
  · exact h

theorem Inv.capture (h : Inv s) (id : TaskId) (operation : Operation V) :
    Inv (capture s id operation) := by
  unfold Tasks.capture
  split
  · refine ⟨h.live, ?_, h.later, h.attempts, h.bounds, h.recoveries⟩
    intro id' t rest hchain
    exact (h.head id' t rest hchain).congr rfl rfl rfl
  · exact h

theorem capture_chains (s : Runner V) (id : TaskId) (operation : Operation V) :
    (capture s id operation).chains = s.chains ∧ (capture s id operation).active = s.active := by
  unfold Tasks.capture
  split <;> exact ⟨rfl, rfl⟩

/-- What a transition does at its end, whose handler has been called. -/
theorem Inv.returned_execute {id : TaskId} (transition : Transition V)
    (h : Inv (Tasks.dequeue (Tasks.execute s id) id)) :
    Inv (Tasks.returned (Tasks.execute s id) id transition) := by
  unfold Tasks.returned
  split
  · exact h.advance _ (by decide)
  · exact h.advance _ (by decide)
  · exact h

theorem Inv.finish (h : Inv s) (id : TaskId) : Inv (finish s id) := by
  unfold Tasks.finish
  split
  · next ticket operation row starts rest hchain =>
    have hcapture := h.capture id operation
    obtain ⟨hchains, hactive⟩ := capture_chains s id operation
    have hchain' : (Tasks.capture s id operation).chains id =
        ⟨ticket, operation, .written row starts⟩ :: rest := by rw [hchains, hchain]
    have hstarting := starting_of_head hchain'
    have hfree : starts = true → s.active id = none := h.head id _ rest hchain
    cases starts with
    | true =>
        refine Inv.returned_execute _ (hcapture.execute hstarting ?_)
        rw [hactive]
        exact hfree rfl
    | false => exact hcapture.returned _ hstarting
  · exact h

/-! ## The steps of a handler -/

theorem Inv.checkpoint (h : Inv s) (execution : Nat) (patch : ProgressPatch V) :
    Inv (checkpoint s execution patch) := by
  unfold Tasks.checkpoint
  split
  · exact h.enqueue _ _
  · exact h

theorem Inv.settle (h : Inv s) (execution : Nat) (outcome : Outcome V) :
    Inv (settle s execution outcome) := by
  unfold Tasks.settle
  split
  · exact (h.advance execution (by decide)).enqueue _ _
  · exact h

/-- No other execution of the task is left when one is forgotten. -/
theorem Inv.finalize (h : Inv s) (execution : Nat) : Inv (finalize s execution) := by
  unfold Tasks.finalize
  split
  · next task aborted hexecution =>
    have hadvance : Inv (Tasks.advance s execution .finalizing .ended) := h.advance _ (by decide)
    have hactive : s.active task = some execution := h.live execution _ hexecution (by simp)
    dsimp only
    rw [if_pos (show (Tasks.advance s execution .finalizing .ended).active task = _ from hactive)]
    refine ⟨?_, ?_, hadvance.later, hadvance.attempts, hadvance.bounds, hadvance.recoveries⟩
    · intro e x hx hstage
      have hlive := hadvance.live e x hx hstage
      by_cases htask : x.task = task
      · exfalso
        have hsame : some execution = some e := by
          rw [← hactive, ← htask]
          exact hlive
        cases hsame
        obtain ⟨x₀, hx₀, hcase⟩ := getElem?_modify_some hx
        rw [hexecution] at hx₀
        cases hx₀
        rcases hcase with rfl | ⟨-, rfl⟩
        · simp only [Tasks.advance, List.getElem?_modify, hexecution] at hx
          simp [Execution.goOn] at hx
        · simp [Execution.goOn] at hstage
      · simpa [htask] using hlive
    · intro id t rest hchain
      have hhead := hadvance.head id t rest hchain
      unfold HeadOk at hhead ⊢
      split at hhead
      · trivial
      · obtain ⟨hbounds, hfree, hnotFinal, hattempt⟩ := hhead
        refine ⟨hbounds, ?_, hnotFinal, hattempt⟩
        intro hstarts
        by_cases hid : id = task
        · simp [hid]
        · simpa [hid] using hfree hstarts
      · intro hstarts
        by_cases hid : id = task
        · simp [hid]
        · simpa [hid] using hhead hstarts
  · exact h

theorem Inv.abortCancelled (h : Inv s) : Inv (abortCancelled s) := by
  unfold Tasks.abortCancelled
  split
  · next execution rest _ =>
    have hrest : Inv { s with aborts := rest } := by
      refine ⟨h.live, ?_, h.later, h.attempts, h.bounds, h.recoveries⟩
      intro id t rest hchain
      exact (h.head id t rest hchain).congr rfl rfl rfl
    exact hrest.abort execution
  · exact h

/-! ## The steps of a recovery -/

/-- The row that a recovery is about to write. -/
def Recovery.row? (recovery : Recovery V) : Option (PersistentTask V) :=
  match recovery.stage with
  | .writing row _ => some row
  | _ => none

/-- The row in the store is not final, and its task has not been started again. -/
def isCurrent (s : Runner V) (row : PersistentTask V) : Bool :=
  (s.rows row.id).any fun current => !isFinal current.status && current.attempt == row.attempt

/-- A recovery writes over a row that is not final and has had no other attempt
since it was listed. -/
def Current (s : Runner V) : Event V → Prop
  | .recoverWrite index => ((s.recoveries[index]?).bind Recovery.row?).all (isCurrent s) = true
  | _ => True

instance (s : Runner V) : (event : Event V) → Decidable (Current s event)
  | .recoverWrite index =>
      inferInstanceAs
        (Decidable (((s.recoveries[index]?).bind Recovery.row?).all (isCurrent s) = true))
  | .create _ _ | .pause _ | .resume _ | .cancel _ | .checkpoint _ _ | .settle _ _ | .begin _ _
  | .write _ | .writeFails _ _ | .finish _ | .finalize _ | .abortCancelled
  | .interruptAllForShutdown | .recover _ | .recoverNext _ _ | .recoverWriteFails _
  | .register _ _ | .unregister _ | .deletePersistentTask _ => .isTrue trivial

/-- What a current row is written over. -/
theorem exists_of_current (h : Current s (.recoverWrite index))
    (hrecovery : s.recoveries[index]? = some ⟨rest, .writing row resumes⟩) :
    ∃ current, s.rows row.id = some current ∧ isFinal current.status = false ∧
      current.attempt = row.attempt := by
  simpa [Current, hrecovery, Recovery.row?, isCurrent, Option.any_eq_true] using h

theorem Inv.recover (h : Inv s) {listing : List (PersistentTask V)}
    (hlisting : IsListing s listing) : Inv (recover s listing) := by
  refine h.of_recoveries ?_
  intro r hr
  rcases List.mem_append.mp hr with hr | hr
  · exact h.recoveries r hr
  · rw [List.mem_singleton.mp hr]
    refine ⟨?_, ?_⟩
    · intro task htask
      exact h.bounds task.id task (hlisting task htask)
    · intro row resumes hstage
      cases hstage

theorem Inv.setRecovery (h : Inv s) (index : Nat) {recovery : Recovery V}
    (hrecovery : RecoveryOk recovery) : Inv (setRecovery s index recovery) := by
  refine h.of_recoveries ?_
  intro r hr
  rcases List.mem_or_eq_of_mem_set hr with hr | rfl
  · exact h.recoveries r hr
  · exact hrecovery

theorem recoveredRow_ok (s : Runner V) (now : ℚ) (h : task.progress.InBounds) :
    (recoveredRow s now task).1.progress.InBounds ∧
      isFinal (recoveredRow s now task).1.status = false := by
  unfold recoveredRow
  split
  · exact ⟨h, rfl⟩
  · split
    · exact ⟨h, rfl⟩
    · exact ⟨h, rfl⟩

theorem Inv.recoverNext (h : Inv s) (index : Nat) (now : ℚ) : Inv (recoverNext s index now) := by
  unfold Tasks.recoverNext
  split
  · exact h
  · next recovery hrecovery =>
    have hok := h.recoveries recovery (List.mem_of_getElem? hrecovery)
    split
    · exact h
    · split
      · have hended : Inv (Tasks.setRecovery s index ⟨[], .ended⟩) :=
          h.setRecovery index ⟨by simp, by simp⟩
        refine ⟨hended.live, ?_, hended.later, hended.attempts, hended.bounds, hended.recoveries⟩
        intro id t rest hchain
        exact (hended.head id t rest hchain).congr rfl rfl rfl
      · next task rest hremaining =>
        have hremaining' : ∀ t ∈ task :: rest, t.progress.InBounds := hremaining ▸ hok.remaining
        have hrest : ∀ t ∈ rest, t.progress.InBounds :=
          fun t ht => hremaining' t (List.mem_cons_of_mem task ht)
        split
        · exact h.setRecovery index ⟨hrest, by simp⟩
        · refine h.setRecovery index ⟨hrest, ?_⟩
          intro row resumes hstage
          cases hstage
          exact recoveredRow_ok s now (hremaining' task List.mem_cons_self)

/-- A row is written over one that has the same attempt and is not final. -/
theorem Inv.writeRow (h : Inv s) (hcurrent : s.rows row.id = some current)
    (hattempt : current.attempt = row.attempt) (hbounds : row.progress.InBounds)
    (hnotFinal : isFinal row.status = false) :
    Inv { s with rows := Function.update s.rows row.id (some row) } := by
  refine ⟨h.live, ?_, h.later, ?_, ?_, h.recoveries⟩
  · intro id t rest hchain
    have hhead := h.head id t rest hchain
    unfold HeadOk at hhead ⊢
    split at hhead
    · trivial
    · refine ⟨hhead.bounds, hhead.free, ?_, hhead.attempt⟩
      intro written hwritten
      by_cases hid : id = row.id
      · subst hid
        simp only [Function.update_self, Option.some.injEq] at hwritten
        rw [← hwritten]
        exact hnotFinal
      · simp only [Function.update_of_ne hid] at hwritten
        exact hhead.notFinal written hwritten
    · exact hhead
  · intro id written hwritten
    by_cases hid : id = row.id
    · subst hid
      simp only [Function.update_self, Option.some.injEq] at hwritten
      rw [← hwritten, ← hattempt]
      exact h.attempts row.id current hcurrent
    · simp only [Function.update_of_ne hid] at hwritten
      exact h.attempts id written hwritten
  · intro id written hwritten
    by_cases hid : id = row.id
    · subst hid
      simp only [Function.update_self, Option.some.injEq] at hwritten
      rw [← hwritten]
      exact hbounds
    · simp only [Function.update_of_ne hid] at hwritten
      exact h.bounds id written hwritten

theorem Inv.recoverWrite (h : Inv s) (hcurrent : Current s (.recoverWrite index)) :
    Inv (recoverWrite s index) := by
  unfold Tasks.recoverWrite
  split
  · next rest row resumes hrecovery =>
    have hok := h.recoveries _ (List.mem_of_getElem? hrecovery)
    obtain ⟨hbounds, hnotFinal⟩ := hok.writing row resumes rfl
    obtain ⟨current, hrow, -, hattempt⟩ := exists_of_current hcurrent hrecovery
    have hwritten := h.writeRow hrow hattempt hbounds hnotFinal
    dsimp only
    split
    · refine Inv.enqueue ?_ _ _
      exact hwritten.setRecovery index ⟨hok.remaining, by simp⟩
    · exact hwritten.setRecovery index ⟨hok.remaining, by simp⟩
  · exact h

theorem Inv.recoverWriteFails (h : Inv s) (index : Nat) : Inv (recoverWriteFails s index) := by
  unfold Tasks.recoverWriteFails
  split
  · next rest row resumes hrecovery =>
    have hok := h.recoveries _ (List.mem_of_getElem? hrecovery)
    exact h.setRecovery index ⟨hok.remaining, by simp⟩
  · exact h

/-! ## Handlers come and go, and rows are deleted -/

theorem Inv.withHandlers (h : Inv s) (handlers : List JsString) : Inv { s with handlers } := by
  refine ⟨h.live, ?_, h.later, h.attempts, h.bounds, h.recoveries⟩
  intro id t rest hchain
  exact (h.head id t rest hchain).congr rfl rfl rfl

theorem Inv.register (h : Inv s) (kind : JsString) (listing : List (PersistentTask V)) :
    Inv (register s kind listing) := by
  unfold Tasks.register
  split
  · exact h
  · next normalized _ =>
    split
    · exact h
    · dsimp only
      split
      · exact (h.withHandlers _).enqueueAll _ _
      · exact h.withHandlers _

theorem Inv.deletePersistentTask (h : Inv s) (id : TaskId) : Inv (deletePersistentTask s id) := by
  have hrows : ∀ id' row, (Tasks.deletePersistentTask s id).rows id' = some row →
      s.rows id' = some row := by
    intro id' row hrow
    by_cases hid : id' = id
    · subst hid
      simp [Tasks.deletePersistentTask] at hrow
    · simpa [Tasks.deletePersistentTask, hid] using hrow
  refine ⟨h.live, ?_, h.later, ?_, ?_, h.recoveries⟩
  · intro id' t rest hchain
    have hhead := h.head id' t rest hchain
    unfold HeadOk at hhead ⊢
    split at hhead
    · trivial
    · exact ⟨hhead.bounds, hhead.free, fun row hrow => hhead.notFinal row (hrows id' row hrow),
        hhead.attempt⟩
    · exact hhead
  · exact fun id' row hrow => h.attempts id' row (hrows id' row hrow)
  · exact fun id' row hrow => h.bounds id' row (hrows id' row hrow)

/-! ## Runs -/

/-- Every step keeps the invariant. -/
theorem Inv.step (h : Inv s) (hpossible : Possible s event) (hcurrent : Current s event) :
    Inv (step env s event) := by
  cases event with
  | create id input => exact h.enqueue id _
  | pause id => exact h.enqueue id _
  | resume id => exact h.enqueue id _
  | cancel id => exact h.enqueue id _
  | checkpoint execution patch => exact h.checkpoint execution patch
  | settle execution outcome => exact h.settle execution outcome
  | begin id now => exact h.begin id now
  | write id => exact h.write id
  | writeFails id error => exact h.writeFails id error
  | finish id => exact h.finish id
  | finalize execution => exact h.finalize execution
  | abortCancelled => exact h.abortCancelled
  | interruptAllForShutdown => exact h.interruptAllForShutdown
  | recover listing => exact h.recover hpossible
  | recoverNext index now => exact h.recoverNext index now
  | recoverWrite index => exact h.recoverWrite hcurrent
  | recoverWriteFails index => exact h.recoverWriteFails index
  | register kind listing => exact h.register kind listing
  | unregister kind => exact h.withHandlers _
  | deletePersistentTask id => exact h.deletePersistentTask id

/-! ## Final rows -/

@[simp] theorem rows_returned (s : Runner V) (id : TaskId) (transition : Transition V) :
    (returned s id transition).rows = s.rows := by
  unfold returned
  split <;> rfl

@[simp] theorem rows_thrown (s : Runner V) (id : TaskId) (transition : Transition V)
    (error : JsString) : (thrown s id transition error).rows = s.rows := by
  unfold thrown
  split <;> rfl

@[simp] theorem rows_begin (env : Environment) (s : Runner V) (id : TaskId) (now : ℚ) :
    (begin env s id now).rows = s.rows := by
  unfold begin
  split
  · split
    · exact rows_thrown _ _ _ _
    · exact rows_returned _ _ _
    · rfl
  · rfl

@[simp] theorem rows_writeFails (s : Runner V) (id : TaskId) (error : JsString) :
    (writeFails s id error).rows = s.rows := by
  unfold writeFails
  split
  · exact rows_thrown _ _ _ _
  · rfl

@[simp] theorem rows_capture (s : Runner V) (id : TaskId) (operation : Operation V) :
    (capture s id operation).rows = s.rows := by
  unfold capture
  split <;> rfl

@[simp] theorem rows_finish (s : Runner V) (id : TaskId) : (finish s id).rows = s.rows := by
  unfold finish
  split
  · rw [rows_returned]
    split
    · exact rows_capture _ _ _
    · exact rows_capture _ _ _
  · rfl

@[simp] theorem rows_checkpoint (s : Runner V) (execution : Nat) (patch : ProgressPatch V) :
    (checkpoint s execution patch).rows = s.rows := by
  unfold checkpoint
  split <;> rfl

@[simp] theorem rows_settle (s : Runner V) (execution : Nat) (outcome : Outcome V) :
    (settle s execution outcome).rows = s.rows := by
  unfold settle
  split <;> rfl

@[simp] theorem rows_finalize (s : Runner V) (execution : Nat) :
    (finalize s execution).rows = s.rows := by
  unfold finalize
  split
  · dsimp only
    split <;> rfl
  · rfl

@[simp] theorem rows_abortCancelled (s : Runner V) : (abortCancelled s).rows = s.rows := by
  unfold abortCancelled
  split <;> rfl

@[simp] theorem rows_recoverNext (s : Runner V) (index : Nat) (now : ℚ) :
    (recoverNext s index now).rows = s.rows := by
  unfold recoverNext
  split
  · rfl
  · split
    · rfl
    · split
      · rfl
      · split <;> rfl

@[simp] theorem rows_recoverWriteFails (s : Runner V) (index : Nat) :
    (recoverWriteFails s index).rows = s.rows := by
  unfold recoverWriteFails
  split <;> rfl

@[simp] theorem rows_enqueueAll (s : Runner V) (ids : List TaskId) (operation : Operation V) :
    (enqueueAll s ids operation).rows = s.rows := by
  unfold enqueueAll
  induction ids generalizing s with
  | nil => rfl
  | cons id ids ih => exact ih (enqueue s id operation)

@[simp] theorem rows_register (s : Runner V) (kind : JsString) (listing : List (PersistentTask V)) :
    (register s kind listing).rows = s.rows := by
  unfold register
  split
  · rfl
  · split
    · rfl
    · dsimp only
      split
      · exact rows_enqueueAll _ _ _
      · rfl

/-- A transition does not write over a final row. -/
theorem Inv.write_final (h : Inv s) (id : TaskId) (hrow : s.rows id' = some row)
    (hfinal : isFinal row.status = true) : (Tasks.write s id).rows id' = some row := by
  unfold Tasks.write
  split
  · next hchain =>
    have hwriting : WritingOk s id _ _ _ := h.head id _ _ hchain
    by_cases hid : id' = id
    · subst hid
      rw [hwriting.notFinal row hrow] at hfinal
      cases hfinal
    · simpa [hid] using hrow
  · exact hrow

/-- A recovery does not write over a final row, if it writes over a current one. -/
theorem recoverWrite_final (hcurrent : Current s (.recoverWrite index)) {id : TaskId}
    (hrow : s.rows id = some row) (hfinal : isFinal row.status = true) :
    (recoverWrite s index).rows id = some row := by
  unfold recoverWrite
  split
  · next rest written resumes hrecovery =>
    have hid : id ≠ written.id := by
      rintro rfl
      obtain ⟨current, hcurrentRow, hnotFinal, -⟩ := exists_of_current hcurrent hrecovery
      rw [hrow] at hcurrentRow
      cases hcurrentRow
      rw [hnotFinal] at hfinal
      cases hfinal
    have hkept : Function.update s.rows written.id (some written) id = some row := by
      simpa [hid] using hrow
    dsimp only
    split
    · exact hkept
    · exact hkept
  · exact hrow

/-- A final row is kept, or deleted. -/
theorem Inv.step_final (h : Inv s) (hcurrent : Current s event) {id : TaskId}
    (hrow : s.rows id = some row) (hfinal : isFinal row.status = true) :
    (Tasks.step env s event).rows id = none ∨ (Tasks.step env s event).rows id = some row := by
  cases event with
  | write id' => exact .inr (h.write_final id' hrow hfinal)
  | recoverWrite index => exact .inr (recoverWrite_final hcurrent hrow hfinal)
  | deletePersistentTask id' =>
      by_cases hid : id = id'
      · subst hid
        exact .inl (by simp [Tasks.step, Tasks.deletePersistentTask])
      · exact .inr (by simpa [Tasks.step, Tasks.deletePersistentTask, hid] using hrow)
  | create => exact .inr hrow
  | pause => exact .inr hrow
  | resume => exact .inr hrow
  | cancel => exact .inr hrow
  | interruptAllForShutdown => exact .inr hrow
  | recover => exact .inr hrow
  | unregister => exact .inr hrow
  | _ => exact .inr (by simpa [Tasks.step] using hrow)

/-! ## The life of a task -/

/-- A runner that has done nothing yet, over the rows of a store. -/
structure Initial (s : Runner V) : Prop where
  active : ∀ id, s.active id = none
  chains : ∀ id, s.chains id = []
  executions : s.executions = []
  recoveries : s.recoveries = []
  attempts : ∀ id row, s.rows id = some row → row.attempt = s.started id
  progress : ∀ id row, s.rows id = some row → row.progress.InBounds

theorem Initial.inv (h : Initial s) : Inv s := by
  constructor
  · intro e x hx
    rw [h.executions] at hx
    cases hx
  · intro id t rest hchain
    rw [h.chains id] at hchain
    cases hchain
  · intro id t rest hchain
    rw [h.chains id] at hchain
    cases hchain
  · intro id row hrow
    rw [h.attempts id row hrow, starting, h.chains id]
    rfl
  · exact h.progress
  · intro r hr
    rw [h.recoveries] at hr
    cases hr

/-- What holds of the tasks in every state: one call of the handler runs at a
time, every attempt is a call that has been made or is about to be made, and
progress is in bounds. -/
structure Sound (s : Runner V) : Prop where
  oneRunning : ∀ (e₁ e₂ : Nat) (x₁ x₂ : Execution), s.executions[e₁]? = some x₁ → s.executions[e₂]? = some x₂ →
    x₁.stage = .running → x₂.stage = .running → x₁.task = x₂.task → e₁ = e₂
  attempts : ∀ id row, s.rows id = some row → row.attempt = s.started id + starting s id
  progress : ∀ id row, s.rows id = some row → row.progress.InBounds

theorem Inv.sound (h : Inv s) : Sound s := by
  refine ⟨?_, h.attempts, h.bounds⟩
  intro e₁ e₂ x₁ x₂ hx₁ hx₂ hrunning₁ hrunning₂ htask
  have h₁ := h.live e₁ x₁ hx₁ (by simp [hrunning₁])
  have h₂ := h.live e₂ x₂ hx₂ (by simp [hrunning₂])
  rw [htask, h₂] at h₁
  exact (Option.some.inj h₁).symm

/-- A final row is kept as long as no step deletes it. -/
theorem run_final (h : Inv s)
    (hrun : Lib.Along (step env) (fun s e => Possible s e ∧ Current s e) s events) {id : TaskId}
    (hrow : s.rows id = some row) (hfinal : isFinal row.status = true)
    (hexists : ∀ mid, mid <+: events → (Lib.run (step env) s mid).rows id ≠ none) :
    (Lib.run (step env) s events).rows id = some row := by
  induction events generalizing s with
  | nil => exact hrow
  | cons event events ih =>
      obtain ⟨⟨hpossible, hcurrent⟩, hrest⟩ := hrun
      have hkept : (step env s event).rows id = some row := by
        rcases h.step_final hcurrent hrow hfinal with hgone | hkept
        · exact absurd hgone (hexists [event] ⟨events, rfl⟩)
        · exact hkept
      refine ih (h.step hpossible hcurrent) hrest hkept ?_
      intro mid hmid
      exact hexists (event :: mid) (List.cons_prefix_cons.mpr ⟨rfl, hmid⟩)

/-- In every run in which recoveries write over current rows, every state is
sound, and a completed or cancelled task stays so while its row exists. -/
theorem task_lifecycle (env : Environment) {start : Runner V} (hstart : Initial start)
    {before after : List (Event V)}
    (hrun : Lib.Along (step env) (fun s e => Possible s e ∧ Current s e) start (before ++ after)) :
    Sound (Lib.run (step env) start before) ∧
      ∀ id row, (Lib.run (step env) start before).rows id = some row →
        isFinal row.status = true →
        (∀ mid, mid <+: after → (Lib.run (step env) start (before ++ mid)).rows id ≠ none) →
        (Lib.run (step env) start (before ++ after)).rows id = some row := by
  obtain ⟨hbefore, hafter⟩ := Lib.along_append.mp hrun
  have hinv : Inv (Lib.run (step env) start before) :=
    Lib.invariant_of_along Inv (fun _ _ h hok => h.step hok.1 hok.2) hstart.inv hbefore
  refine ⟨hinv.sound, ?_⟩
  intro id row hrow hfinal hexists
  rw [Lib.run_append]
  refine run_final hinv hafter hrow hfinal ?_
  intro mid hmid
  rw [← Lib.run_append]
  exact hexists mid hmid

/-- A runner with one handler over an empty store. -/
def emptyRunner : Runner Unit where
  rows _ := none
  handlers := [js "import"]
  active _ := none
  chains _ := []
  executions := []
  recoveries := []
  recoveryComplete := false
  aborts := []
  ticket := 0
  started _ := 0

theorem emptyRunner_initial : Initial emptyRunner where
  active _ := rfl
  chains _ := rfl
  executions := rfl
  recoveries := rfl
  attempts _ _ h := by cases h
  progress _ _ h := by cases h

/-- Exact arithmetic, and errors as they are. -/
def plainEnvironment : Environment where
  rounding := ⟨id, monotone_id, rfl, rfl, rfl⟩
  sanitizeTaskError := id

/-- A transition of the task that writes its row. -/
def transition (event : TaskId → Event Unit) : List (Event Unit) :=
  [event (js "t"), .begin (js "t") 0, .write (js "t"), .finish (js "t")]

/-- The task is created and its handler called. -/
def startTask : List (Event Unit) :=
  transition (fun id => .create id ⟨js "import", (), none, some 4⟩) ++ transition .resume

/-- The row of the running task. -/
def runningRow : PersistentTask Unit :=
  ⟨js "t", js "import", .running, (), ⟨0, 4, 0, none, none⟩, none, none, true, 1, 0, 0, some 0, none⟩

/-- A recovery pauses and resumes the running task, which then completes. -/
def recoverTask : List (Event Unit) :=
  startTask ++ [.recover [runningRow], .recoverNext 0 0, .recoverWrite 0, .begin (js "t") 0,
    .write (js "t"), .finish (js "t")] ++ transition fun _ => .settle 0 (.completes ())

theorem recovered_task_completes :
    ((Lib.run (step plainEnvironment) emptyRunner recoverTask).rows (js "t")).map (·.status) =
        some .completed ∧
      Sound (Lib.run (step plainEnvironment) emptyRunner recoverTask) := by
  have hrun : Lib.Along (step plainEnvironment) (fun s e => Possible s e ∧ Current s e) emptyRunner
      (recoverTask ++ []) := by decide +kernel
  exact ⟨by decide +kernel, (task_lifecycle plainEnvironment emptyRunner_initial hrun).1⟩

/-- A recovery lists the task while its completion is being written, and then
writes over it. -/
theorem recovery_reopens_completed_task :
    ∃ (before : List (Event Unit)) (last : Event Unit),
      Lib.Along (step plainEnvironment) Possible emptyRunner (before ++ [last]) ∧
      ((Lib.run (step plainEnvironment) emptyRunner before).rows (js "t")).map (·.status) =
        some .completed ∧
      ((Lib.run (step plainEnvironment) emptyRunner (before ++ [last])).rows (js "t")).map
        (·.status) = some .paused :=
  ⟨startTask ++ [.settle 0 (.completes ()), .begin (js "t") 0, .recover [runningRow],
    .recoverNext 0 0, .write (js "t")], .recoverWrite 0, by decide +kernel, by decide +kernel,
    by decide +kernel⟩

end StonePlus.Tasks
