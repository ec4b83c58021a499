import StonePlus.Codex.MaintenanceLock

/-!
# StonePlus.Codex.Exclusion

When the lock is exclusive: as long as every call that detaches a directory
detaches the one it has judged.

A call that is alive and has made a directory finds it in its place until it
removes it itself.  What a call judges to be stale is then a directory that no
call that is alive has made.
-/

namespace StonePlus.Codex

/-! ## The invariant -/

/-- The directory that a call has made. -/
def Stage.directory? : Stage → Option Nat
  | .writing directory _ | .abandoning directory _ | .holding directory | .releasing directory
  | .removing directory => some directory
  | _ => none

/-- The call has written its owner file. -/
def Stage.hasWritten : Stage → Bool
  | .holding _ | .releasing _ | .removing _ => true
  | _ => false

/-- The directory that a call has judged to be stale. -/
def Stage.judged? : Stage → Option Nat
  | .reading _ _ found | .probing _ _ found _ _ => found
  | .detaching _ judged => judged
  | _ => none

/-- The call has read no owner so far and may yet look at the age of the directory. -/
def Stage.mayCheckAge : Stage → Bool
  | .reading _ .compatible none | .probing _ .compatible none _ _ | .checkingAge _ => true
  | _ => false

/-- The call knows nothing of any directory. -/
def Stage.isIdle : Stage → Bool
  | .making _ | .reading _ .stone none | .detaching _ none | .discarding _ | .ended => true
  | _ => false

/-- No call that is alive has made the directory, nor will one. -/
def Abandoned (s : System) (number : Nat) : Prop :=
  number < s.nextDirectory ∧ ∀ i call, s.call? i = some call → call.stage.directory? ≠ some number

/-- An owner file that has been written is not older than a time. -/
def WrittenSince (s : System) (time : Int) : Prop :=
  ∀ i call, s.call? i = some call → call.stage.hasWritten = true →
    ∀ there ∈ s.lock, time ≤ there.mtimeMs

structure CallOk (s : System) (call : Call) : Prop where
  owns : ∀ number, call.stage.directory? = some number →
    ∃ there, s.lock = some there ∧ there.number = number ∧ there.compatibleOwner = none ∧
      there.stoneOwner = if call.stage.hasWritten then some ⟨call.pid, call.token⟩ else none
  prompt : ∀ since, call.stage.since? = some since →
    s.clock ≤ since + staleLockFallbackMs ∧ ∀ there ∈ s.lock, there.mtimeMs = since
  judged : ∀ number, call.stage.judged? = some number → Abandoned s number
  probe : ∀ attempt file found pid seen, call.stage = .probing attempt file found pid seen →
    seen < s.nextDirectory ∧
      ∀ j other, s.call? j = some other → other.stage.directory? = some seen → other.pid = pid
  age : call.stage.mayCheckAge = true → WrittenSince s call.now
  now : call.now ≤ s.clock

structure Inv (s : System) : Prop where
  calls : ∀ i call, s.call? i = some call → CallOk s call
  single : ∀ i j call other number, s.call? i = some call → s.call? j = some other →
    call.stage.directory? = some number → other.stage.directory? = some number → i = j
  number : ∀ there ∈ s.lock, there.number < s.nextDirectory

variable {stage : Stage}

theorem directory?_of_hasWritten (h : stage.hasWritten = true) :
    ∃ number, stage.directory? = some number := by
  cases stage with
  | holding number => exact ⟨number, rfl⟩
  | releasing number => exact ⟨number, rfl⟩
  | removing number => exact ⟨number, rfl⟩
  | _ => cases h

theorem directory?_of_since? (h : stage.since? = some since) :
    ∃ number, stage.directory? = some number := by
  cases stage with
  | writing number since => exact ⟨number, rfl⟩
  | abandoning number since => exact ⟨number, rfl⟩
  | _ => cases h

variable {s : System}

theorem call?_eq_some : s.call? i = some call ↔ s.calls[i]? = some call ∧ call.alive = true :=
  Option.filter_eq_some_iff

variable {number : Nat}

/-- At most one call that is alive has made a directory. -/
theorem Inv.alone (h : Inv s) (hcall : s.call? i = some call) (hother : s.call? j = some other)
    (hdirectory : call.stage.directory? = some number)
    (hdirectory' : other.stage.directory? = some number') : i = j := by
  obtain ⟨there, hlock, hnumber, -⟩ := (h.calls i call hcall).owns number hdirectory
  obtain ⟨there', hlock', hnumber', -⟩ := (h.calls j other hother).owns number' hdirectory'
  have hsame : number' = number := by
    rw [hlock, Option.some.injEq] at hlock'
    rw [← hnumber', ← hnumber, hlock']
  rw [hsame] at hdirectory'
  exact h.single i j call other number hcall hother hdirectory hdirectory'

theorem Inv.exclusive (h : Inv s) : Exclusive s := by
  intro i j call call' directory directory' hcall hcall' hholds hholds'
  exact h.alone hcall hcall' (by rw [hholds]; rfl) (by rw [hholds']; rfl)

/-- Where no directory is, no call that is alive has made one. -/
theorem Inv.directory?_of_no_lock (h : Inv s) (hlock : s.lock = none)
    (hcall : s.call? i = some call) : call.stage.directory? = none := by
  cases hdirectory : call.stage.directory? with
  | none => rfl
  | some number =>
      obtain ⟨there, hthere, -⟩ := (h.calls i call hcall).owns number hdirectory
      rw [hlock] at hthere
      cases hthere

/-! ## What a step leaves alone -/

/-- The directories that calls have made before, or new ones, and owner files
that are not older than before. -/
structure Frame (s s' : System) : Prop where
  next : s.nextDirectory ≤ s'.nextDirectory
  directories : ∀ j call, s'.call? j = some call → ∀ number, call.stage.directory? = some number →
    s.nextDirectory ≤ number ∨
      ∃ i old, s.call? i = some old ∧ old.stage.directory? = some number ∧ old.pid = call.pid
  written : ∀ j call, s'.call? j = some call → call.stage.hasWritten = true →
    ∀ there ∈ s'.lock, s.clock ≤ there.mtimeMs ∨
      ∃ i old, s.call? i = some old ∧ old.stage.hasWritten = true ∧
        ∃ was ∈ s.lock, was.mtimeMs ≤ there.mtimeMs

theorem Abandoned.frame (h : Abandoned s number) (hframe : Frame s s') : Abandoned s' number := by
  obtain ⟨hlt, hnone⟩ := h
  refine ⟨lt_of_lt_of_le hlt hframe.next, ?_⟩
  intro j call hcall hdirectory
  rcases hframe.directories j call hcall number hdirectory with hnew | ⟨i, old, hold, hsame, -⟩
  · omega
  · exact hnone i old hold hsame

theorem WrittenSince.frame (h : WrittenSince s time) (htime : time ≤ s.clock)
    (hframe : Frame s s') : WrittenSince s' time := by
  intro j call hcall hwritten there hthere
  rcases hframe.written j call hcall hwritten there hthere with hnew | ⟨i, old, hold, hsame, was, hwas, hle⟩
  · omega
  · have := h i old hold hsame was hwas
    omega

/-- A call that takes no step is as it was. -/
theorem CallOk.frame (h : CallOk s call) (hframe : Frame s s') (hclock : s.clock ≤ s'.clock)
    (hlock : call.stage.directory? ≠ none → s'.lock = s.lock)
    (hprompt : ∀ since, call.stage.since? = some since → s'.clock ≤ since + staleLockFallbackMs) :
    CallOk s' call := by
  constructor
  · intro number hdirectory
    rw [hlock (by simp [hdirectory])]
    exact h.owns number hdirectory
  · intro since hsince
    obtain ⟨number, hmade⟩ := directory?_of_since? hsince
    refine ⟨hprompt since hsince, ?_⟩
    rw [hlock (by simp [hmade])]
    exact (h.prompt since hsince).2
  · exact fun number hjudged => (h.judged number hjudged).frame hframe
  · intro attempt file found pid seen hstage
    obtain ⟨hlt, hpid⟩ := h.probe attempt file found pid seen hstage
    refine ⟨lt_of_lt_of_le hlt hframe.next, ?_⟩
    intro j other hother hdirectory
    rcases hframe.directories j other hother seen hdirectory with hnew | ⟨i, old, hold, hsame, heq⟩
    · omega
    · rw [← heq]
      exact hpid i old hold hsame
  · exact fun hage => (h.age hage).frame h.now hframe
  · have := h.now
    omega

section

variable {s s' : System} {i : Nat} {call call' : Call}

/-- One call takes a step that keeps the directory, or no other has made it. -/
theorem Inv.of_run (h : Inv s) (hcall : s.call? i = some call) (hcall' : s'.call? i = some call')
    (hothers : ∀ j, j ≠ i → s'.call? j = s.call? j) (hclock : s'.clock = s.clock)
    (hnext : s.nextDirectory ≤ s'.nextDirectory)
    (hnumber : ∀ there ∈ s'.lock, there.number < s'.nextDirectory)
    (hlock : s'.lock = s.lock ∨
      ∀ j other, j ≠ i → s.call? j = some other → other.stage.directory? = none)
    (hdirectory : ∀ number, call'.stage.directory? = some number →
      call.stage.directory? = some number ∨ s.nextDirectory ≤ number)
    (hpid : call'.pid = call.pid)
    (hwritten : call'.stage.hasWritten = true →
      s'.lock = s.lock ∧ call.stage.hasWritten = true ∨ ∀ there ∈ s'.lock, s.clock ≤ there.mtimeMs)
    (hok : Frame s s' → CallOk s' call') : Inv s' := by
  have hframe : Frame s s' := by
    refine ⟨hnext, ?_, ?_⟩
    · intro j other hother number hnumber
      by_cases hj : j = i
      · subst hj
        rw [hcall', Option.some.injEq] at hother
        subst hother
        rcases hdirectory number hnumber with hsame | hnew
        · exact .inr ⟨j, call, hcall, hsame, hpid.symm⟩
        · exact .inl hnew
      · rw [hothers j hj] at hother
        exact .inr ⟨j, other, hother, hnumber, rfl⟩
    · intro j other hother hhas there hthere
      by_cases hj : j = i
      · subst hj
        rw [hcall', Option.some.injEq] at hother
        subst hother
        rcases hwritten hhas with ⟨hsame, hold⟩ | hnew
        · exact .inr ⟨j, call, hcall, hold, there, hsame ▸ hthere, Int.le_refl _⟩
        · exact .inl (hnew there hthere)
      · rw [hothers j hj] at hother
        rcases hlock with hsame | hnone
        · exact .inr ⟨j, other, hother, hhas, there, hsame ▸ hthere, Int.le_refl _⟩
        · obtain ⟨number, hmade⟩ := directory?_of_hasWritten hhas
          rw [hnone j other hj hother] at hmade
          cases hmade
  have hfresh : ∀ j other number, s.call? j = some other → other.stage.directory? = some number →
      number < s.nextDirectory := by
    intro j other number hother hmade
    obtain ⟨there, hthere, heq, -⟩ := (h.calls j other hother).owns number hmade
    have := h.number there hthere
    omega
  refine ⟨?_, ?_, hnumber⟩
  · intro j other hother
    by_cases hj : j = i
    · subst hj
      rw [hcall', Option.some.injEq] at hother
      subst hother
      exact hok hframe
    · rw [hothers j hj] at hother
      have hold := h.calls j other hother
      refine hold.frame hframe (by omega) ?_ ?_
      · intro hmade
        rcases hlock with hsame | hnone
        · exact hsame
        · exact absurd (hnone j other hj hother) hmade
      · intro since hsince
        rw [hclock]
        exact (hold.prompt since hsince).1
  · -- A directory that two calls have made is one that both had made before.
    have hmine : ∀ j other number, j ≠ i → s.call? j = some other →
        call'.stage.directory? = some number → other.stage.directory? = some number → False := by
      intro j other number hj hother hmade hmade'
      rcases hdirectory number hmade with hsame | hnew
      · exact hj (h.single j i other call number hother hcall hmade' hsame)
      · have := hfresh j other number hother hmade'
        omega
    intro j k other other' number hother hother' hmade hmade'
    by_cases hj : j = i
    · by_cases hk : k = i
      · rw [hj, hk]
      · subst hj
        rw [hcall', Option.some.injEq] at hother
        subst hother
        rw [hothers k hk] at hother'
        exact (hmine k other' number hk hother' hmade hmade').elim
    · rw [hothers j hj] at hother
      by_cases hk : k = i
      · subst hk
        rw [hcall', Option.some.injEq] at hother'
        subst hother'
        exact (hmine j other number hj hother hmade' hmade).elim
      · rw [hothers k hk] at hother'
        exact h.single j k other other' number hother hother' hmade hmade'

theorem call?_setStage_self (hcall : s.call? i = some call) :
    (setStage s i stage).call? i = some { call with stage } := by
  obtain ⟨hget, halive⟩ := call?_eq_some.mp hcall
  refine call?_eq_some.mpr ⟨?_, halive⟩
  simp [setStage, hget]

theorem call?_setStage_of_ne (hj : j ≠ i) : (setStage s i stage).call? j = s.call? j := by
  simp [System.call?, setStage, Ne.symm hj]

/-- The call goes on where the directory stays as it is. -/
theorem Inv.setStage (h : Inv s) (hcall : s.call? i = some call)
    (hdirectory : ∀ number, stage.directory? = some number → call.stage.directory? = some number)
    (hwritten : stage.hasWritten = true → call.stage.hasWritten = true)
    (hok : Frame s (setStage s i stage) → CallOk (setStage s i stage) { call with stage }) :
    Inv (setStage s i stage) :=
  h.of_run hcall (call?_setStage_self hcall) (fun _ hj => call?_setStage_of_ne hj) rfl (Nat.le_refl _)
    h.number (.inl rfl) (fun number hmade => .inl (hdirectory number hmade)) rfl
    (fun hhas => .inl ⟨rfl, hwritten hhas⟩) hok

theorem Stage.of_isIdle (hidle : stage.isIdle = true) :
    stage.directory? = none ∧ stage.since? = none ∧ stage.judged? = none ∧
      stage.mayCheckAge = false ∧ ∀ a f o p d, stage ≠ .probing a f o p d := by
  unfold isIdle at hidle
  split at hidle <;> simp_all [directory?, since?, judged?, mayCheckAge]

/-- A call that knows nothing of any directory. -/
theorem callOk_of_idle (hidle : call.stage.isIdle = true) (hnow : call.now ≤ s.clock) :
    CallOk s call := by
  obtain ⟨hdirectory, hsince, hjudged, hage, hprobe⟩ := Stage.of_isIdle hidle
  constructor
  · intro number hmade
    rw [hdirectory] at hmade
    cases hmade
  · intro since hsome
    rw [hsince] at hsome
    cases hsome
  · intro number hsome
    rw [hjudged] at hsome
    cases hsome
  · intro a f o p d hstage
    exact absurd hstage (hprobe a f o p d)
  · intro hmay
    rw [hage] at hmay
    cases hmay
  · exact hnow

/-- The call forgets what it knows. -/
theorem Inv.setIdle (h : Inv s) (hcall : s.call? i = some call) (hidle : stage.isIdle = true) :
    Inv (Codex.setStage s i stage) := by
  have hdirectory := (Stage.of_isIdle hidle).1
  refine h.setStage hcall ?_ ?_ ?_
  · intro number hmade
    rw [hdirectory] at hmade
    cases hmade
  · intro hhas
    obtain ⟨number, hmade⟩ := directory?_of_hasWritten hhas
    rw [hdirectory] at hmade
    cases hmade
  · intro _
    exact callOk_of_idle hidle (h.calls i call hcall).now

/-- The directory is removed, where no other call that is alive has made it. -/
theorem Inv.remove (h : Inv s) (hcall : s.call? i = some call)
    (hothers : ∀ j other, j ≠ i → s.call? j = some other → other.stage.directory? = none)
    (hidle : stage.isIdle = true) : Inv (Codex.setStage { s with lock := none } i stage) := by
  have hdirectory := (Stage.of_isIdle hidle).1
  have hcall' : (Codex.setStage { s with lock := none } i stage).call? i = some { call with stage } :=
    call?_setStage_self hcall
  refine h.of_run hcall hcall' (fun _ hj => call?_setStage_of_ne hj) rfl (Nat.le_refl _) ?_
    (.inr hothers) ?_ rfl ?_ ?_
  · intro there hthere
    cases hthere
  · intro number hmade
    rw [hdirectory] at hmade
    cases hmade
  · intro _
    refine .inr ?_
    intro there hthere
    cases hthere
  · intro _
    exact callOk_of_idle hidle (h.calls i call hcall).now

/-! ## The steps of a call -/

theorem nextAttempt_isIdle (attempt : Nat) : (nextAttempt attempt).isIdle = true := by
  unfold nextAttempt
  split <;> rfl

/-- The others have not made a directory if this call has. -/
theorem Inv.others (h : Inv s) (hcall : s.call? i = some call)
    (hmade : call.stage.directory? = some number) (j : Nat) (other : Call) (hj : j ≠ i)
    (hother : s.call? j = some other) : other.stage.directory? = none := by
  cases hdirectory : other.stage.directory? with
  | none => rfl
  | some number' => exact absurd (h.alone hother hcall hdirectory hmade) hj

/-- A call makes the directory. -/
theorem Inv.make (h : Inv s) (hcall : s.call? i = some call) (hlock : s.lock = none) :
    Inv (Codex.setStage
      { s with
        lock := some ⟨s.nextDirectory, s.clock, none, none⟩
        nextDirectory := s.nextDirectory + 1 } i (.writing s.nextDirectory s.clock)) := by
  refine h.of_run hcall (call?_setStage_self hcall) (fun _ hj => call?_setStage_of_ne hj) rfl
    (Nat.le_succ _) ?_ (.inr fun j other _ hother => h.directory?_of_no_lock hlock hother) ?_ rfl ?_ ?_
  · intro there hthere
    cases hthere
    exact Nat.lt_succ_self _
  · intro number hmade
    cases hmade
    exact .inr (Nat.le_refl _)
  · intro hhas
    cases hhas
  · intro _
    refine ⟨?_, ?_, by simp [Stage.judged?], by simp, by simp [Stage.mayCheckAge],
      (h.calls i call hcall).now⟩
    · intro number hmade
      cases hmade
      exact ⟨_, rfl, rfl, rfl, rfl⟩
    · intro since hsince
      cases hsince
      refine ⟨?_, ?_⟩
      · show s.clock ≤ s.clock + staleLockFallbackMs
        unfold staleLockFallbackMs
        omega
      · intro there hthere
        cases hthere
        rfl

/-- A call writes its owner file, into the directory it has made. -/
theorem Inv.writeOwner (h : Inv s) (hcall : s.call? i = some call)
    (hstage : call.stage = .writing number since) (hlock : s.lock = some there) :
    Inv (Codex.setStage
      { s with
        lock := some { there with
          stoneOwner := some ⟨call.pid, call.token⟩
          mtimeMs := s.clock } } i (.holding number)) := by
  have hmade : call.stage.directory? = some number := by rw [hstage]; rfl
  refine h.of_run hcall (call?_setStage_self hcall) (fun _ hj => call?_setStage_of_ne hj) rfl
    (Nat.le_refl _) ?_ (.inr (h.others hcall hmade)) ?_ rfl ?_ ?_
  · intro there' hthere'
    cases hthere'
    exact h.number there hlock
  · intro number' hmade'
    cases hmade'
    exact .inl hmade
  · intro _
    refine .inr ?_
    intro there' hthere'
    cases hthere'
    exact Int.le_refl _
  · intro _
    refine ⟨?_, by simp [Stage.since?], by simp [Stage.judged?], by simp,
      by simp [Stage.mayCheckAge], (h.calls i call hcall).now⟩
    intro number' hmade'
    cases hmade'
    obtain ⟨was, hwas, hnumber, hcompatible, -⟩ := (h.calls i call hcall).owns number hmade
    rw [hlock, Option.some.injEq] at hwas
    subst hwas
    exact ⟨_, rfl, hnumber, hcompatible, rfl⟩

/-- What a call concludes from the owner files it has read. -/
theorem callOk_nextFile (hnow : call.now ≤ s.clock)
    (hfound : ∀ number, found = some number → Abandoned s number)
    (hage : found = none → WrittenSince s call.now) :
    CallOk s { call with stage := nextFile attempt found file } := by
  cases file with
  | stone =>
      refine ⟨by simp [nextFile, Stage.directory?], by simp [nextFile, Stage.since?], ?_,
        by simp [nextFile], ?_, hnow⟩
      · exact fun number hjudged => hfound number hjudged
      · intro hmay
        cases found with
        | none => exact hage rfl
        | some number => cases hmay
  | compatible =>
      cases found with
      | none =>
          exact ⟨by simp [nextFile, Stage.directory?], by simp [nextFile, Stage.since?],
            by simp [nextFile, Stage.judged?], by simp [nextFile], fun _ => hage rfl, hnow⟩
      | some number =>
          refine ⟨by simp [nextFile, Stage.directory?], by simp [nextFile, Stage.since?], ?_,
            by simp [nextFile], by simp [nextFile, Stage.mayCheckAge], hnow⟩
          exact fun number' hjudged => hfound number' hjudged

theorem nextFile_directory? (attempt : Nat) (found : Option Nat) (file : OwnerFile) :
    (nextFile attempt found file).directory? = none := by
  cases file <;> cases found <;> rfl

/-- A call draws its conclusion, and the directory stays as it is. -/
theorem Inv.nextFile (h : Inv s) (hcall : s.call? i = some call)
    (hfound : ∀ number, found = some number → Abandoned s number)
    (hage : found = none → WrittenSince s call.now) :
    Inv (Codex.setStage s i (nextFile attempt found file)) := by
  have hnow := (h.calls i call hcall).now
  refine h.setStage hcall ?_ ?_ ?_
  · intro number hmade
    rw [nextFile_directory?] at hmade
    cases hmade
  · intro hhas
    obtain ⟨number, hmade⟩ := directory?_of_hasWritten hhas
    rw [nextFile_directory?] at hmade
    cases hmade
  · intro hframe
    exact callOk_nextFile hnow (fun number hsome => (hfound number hsome).frame hframe)
      fun hnone => (hage hnone).frame hnow hframe

/-- Where there is no owner file, no call that is alive has written one. -/
theorem Inv.writtenSince_of_no_owner (h : Inv s) (howner : ∀ there ∈ s.lock, there.stoneOwner = none)
    (time : Int) : WrittenSince s time := by
  intro j other hother hhas there hthere
  obtain ⟨number, hmade⟩ := directory?_of_hasWritten hhas
  obtain ⟨was, hwas, -, -, howns⟩ := (h.calls j other hother).owns number hmade
  have hsame : was = there := Option.some.inj (hwas.symm.trans hthere)
  rw [hsame, howner there hthere, if_pos hhas] at howns
  cases howns

/-- A call reads an owner file. -/
theorem Inv.read (h : Inv s) (hcall : s.call? i = some call)
    (hstage : call.stage = .reading attempt file found) (result : Bool) :
    Inv (runCall s i call result) := by
  have hok := h.calls i call hcall
  have hfound : ∀ number, found = some number → Abandoned s number :=
    fun number hsome => hok.judged number (by rw [hstage]; exact hsome)
  -- Without an owner so far, the call either has just found the first file
  -- missing or knew before that no owner file is older than itself.
  have hage : (∀ there ∈ s.lock, there.pid file = none) → found = none →
      WrittenSince s call.now := by
    intro hmissing hnone
    cases file with
    | stone =>
        refine h.writtenSince_of_no_owner ?_ _
        intro there hthere
        simpa [Directory.pid] using hmissing there hthere
    | compatible =>
        refine hok.age ?_
        rw [hstage, hnone]
        rfl
  simp only [runCall, hstage]
  cases hlock : s.lock with
  | none =>
      refine h.nextFile hcall hfound (hage ?_)
      intro there hthere
      rw [hlock] at hthere
      cases hthere
  | some there =>
      cases hpid : there.pid file with
      | none =>
          simp only [hpid]
          refine h.nextFile hcall hfound (hage ?_)
          intro there' hthere'
          rw [hlock] at hthere'
          cases hthere'
          exact hpid
      | some pid =>
          simp only [hpid]
          refine h.setStage hcall (by simp [Stage.directory?]) (by simp [Stage.hasWritten]) ?_
          intro hframe
          refine ⟨by simp [Stage.directory?], by simp [Stage.since?], ?_, ?_, ?_, hok.now⟩
          · exact fun number hsome => (hfound number hsome).frame hframe
          · intro attempt' file' found' pid' seen hprobing
            cases hprobing
            refine ⟨h.number there hlock, ?_⟩
            intro j other hother hmade
            rcases hframe.directories j other hother _ hmade with hnew | ⟨k, old, hold, hmade', heq⟩
            · have := h.number there hlock
              omega
            · rw [← heq]
              obtain ⟨was, hwas, -, hcompatible, howns⟩ := (h.calls k old hold).owns _ hmade'
              rw [hlock, Option.some.injEq] at hwas
              subst hwas
              cases file with
              | stone =>
                  simp only [Directory.pid, howns] at hpid
                  split at hpid
                  · simpa using hpid
                  · cases hpid
              | compatible =>
                  simp only [Directory.pid, hcompatible] at hpid
                  cases hpid
          · intro hmay
            refine WrittenSince.frame ?_ hok.now hframe
            refine hok.age ?_
            rw [hstage]
            cases file <;> cases found <;> exact hmay

/-- A call probes the owner it has read. -/
theorem Inv.probe (h : Inv s) (hcall : s.call? i = some call)
    (hstage : call.stage = .probing attempt file found pid seen)
    (hprobes : ProbesTruly s result call.stage) : Inv (runCall s i call result) := by
  simp only [runCall, hstage]
  cases result with
  | true => exact h.setIdle hcall rfl
  | false =>
      refine h.nextFile hcall ?_ (by simp)
      intro number hnumber
      obtain ⟨hlt, hpid⟩ := (h.calls i call hcall).probe attempt file found pid seen hstage
      cases hnumber
      refine ⟨hlt, ?_⟩
      intro j other hother hmade
      obtain ⟨hget, halive⟩ := call?_eq_some.mp hother
      rw [hstage] at hprobes
      have := hprobes ⟨other, List.mem_of_getElem? hget, halive, hpid j other hother hmade⟩
      cases this

/-- A directory that is too old has been left by a call that is not alive. -/
theorem Inv.abandoned_of_stale (h : Inv s) (hcall : s.call? i = some call)
    (hage : WrittenSince s call.now) (hlock : s.lock = some there)
    (hstale : staleLockFallbackMs < call.now - there.mtimeMs) : Abandoned s there.number := by
  refine ⟨h.number there hlock, ?_⟩
  intro j other hother hmade
  have hnow := (h.calls i call hcall).now
  cases hhas : other.stage.hasWritten with
  | true =>
      have hrecent := hage j other hother hhas there hlock
      unfold staleLockFallbackMs at hstale
      omega
  | false =>
      have hsince : ∃ since, other.stage.since? = some since := by
        cases hstage : other.stage with
        | writing number since => exact ⟨since, rfl⟩
        | abandoning number since => exact ⟨since, rfl⟩
        | holding number => simp [hstage, Stage.hasWritten] at hhas
        | releasing number => simp [hstage, Stage.hasWritten] at hhas
        | removing number => simp [hstage, Stage.hasWritten] at hhas
        | _ => simp [hstage, Stage.directory?] at hmade
      obtain ⟨since, hsome⟩ := hsince
      obtain ⟨hprompt, hmtime⟩ := (h.calls j other hother).prompt since hsome
      have := hmtime there hlock
      omega

theorem Inv.checkAge (h : Inv s) (hcall : s.call? i = some call)
    (hstage : call.stage = .checkingAge attempt) (result : Bool) :
    Inv (runCall s i call result) := by
  have hok := h.calls i call hcall
  have hage : WrittenSince s call.now := hok.age (by rw [hstage]; rfl)
  simp only [runCall, hstage]
  cases hlock : s.lock with
  | none => exact h.setIdle hcall rfl
  | some there =>
      simp only
      split
      · next hstale =>
        have habandoned := h.abandoned_of_stale hcall hage hlock hstale
        refine h.setStage hcall (by simp [Stage.directory?]) (by simp [Stage.hasWritten]) ?_
        intro hframe
        refine ⟨by simp [Stage.directory?], by simp [Stage.since?], ?_, by simp,
          by simp [Stage.mayCheckAge], hok.now⟩
        intro number hjudged
        cases hjudged
        exact habandoned.frame hframe
      · exact h.setIdle hcall rfl

/-- A call detaches the directory it has judged. -/
theorem Inv.detach (h : Inv s) (hcall : s.call? i = some call)
    (hstage : call.stage = .detaching attempt judged) (result : Bool)
    (hjudged : ∀ there ∈ s.lock, judged = some there.number) : Inv (runCall s i call result) := by
  simp only [runCall, hstage]
  cases hlock : s.lock with
  | none => exact h.setIdle hcall (nextAttempt_isIdle attempt)
  | some there =>
      simp only
      split
      · refine h.remove hcall ?_ rfl
        intro j other _ hother
        have habandoned := (h.calls i call hcall).judged there.number
          (by rw [hstage]; exact hjudged there hlock)
        cases hmade : other.stage.directory? with
        | none => rfl
        | some number =>
            obtain ⟨was, hwas, hnumber, -⟩ := (h.calls j other hother).owns number hmade
            rw [hlock, Option.some.injEq] at hwas
            subst hwas
            exact absurd (hnumber ▸ hmade) (habandoned.2 j other hother)
      · exact h.setIdle hcall rfl

/-- A call goes on with the directory it has made. -/
theorem Inv.keep (h : Inv s) (hcall : s.call? i = some call)
    (hmade : call.stage.directory? = some number) (hmade' : stage.directory? = some number)
    (hhas : stage.hasWritten = call.stage.hasWritten)
    (hsince : ∀ since, stage.since? = some since → call.stage.since? = some since)
    (hjudged : stage.judged? = none) (hage : stage.mayCheckAge = false)
    (hprobe : ∀ a f o p d, stage ≠ .probing a f o p d) : Inv (Codex.setStage s i stage) := by
  have hok := h.calls i call hcall
  refine h.setStage hcall ?_ (by rw [hhas]; exact id) ?_
  · intro number' hnumber'
    rw [hmade'] at hnumber'
    rw [hmade, hnumber']
  · intro _
    refine ⟨?_, ?_, by simp [hjudged], ?_, by simp [hage], hok.now⟩
    · intro number' hnumber'
      simp only at hnumber' ⊢
      rw [hmade'] at hnumber'
      rw [hhas]
      exact hok.owns number' (hmade.trans hnumber')
    · exact fun since hsome => hok.prompt since (hsince since hsome)
    · intro a f o p d hstage
      exact absurd hstage (hprobe a f o p d)

/-- A call removes the directory it has made, unless the removal fails. -/
theorem Inv.removeOwn (h : Inv s) (hcall : s.call? i = some call)
    (hmade : call.stage.directory? = some number) (result : Bool) :
    Inv (Codex.setStage (if result then { s with lock := none } else s) i .ended) := by
  cases result with
  | true => exact h.remove hcall (h.others hcall hmade) rfl
  | false => exact h.setIdle hcall rfl

/-- Every step of a call keeps the invariant, if it detaches what it has judged. -/
theorem Inv.runCall (h : Inv s) (hcall : s.call? i = some call) {result : Bool}
    (hprobes : ProbesTruly s result call.stage) (hjudged : Judged s call.stage) :
    Inv (runCall s i call result) := by
  cases hstage : call.stage with
  | making attempt =>
      simp only [Codex.runCall, hstage]
      cases result with
      | false => exact h.setIdle hcall rfl
      | true =>
          cases hlock : s.lock with
          | none => exact h.make hcall hlock
          | some there => exact h.setIdle hcall rfl
  | writing number since =>
      have hmade : call.stage.directory? = some number := by rw [hstage]; rfl
      have hkept : Inv (Codex.setStage s i (.abandoning number since)) := by
        refine h.keep hcall hmade rfl (by rw [hstage]; rfl) ?_ rfl rfl (by simp)
        intro since' hsome
        rw [hstage]
        exact hsome
      simp only [Codex.runCall, hstage]
      cases hlock : s.lock with
      | none => exact hkept
      | some there =>
          cases result with
          | true => exact h.writeOwner hcall hstage hlock
          | false => exact hkept
  | abandoning number since =>
      simp only [Codex.runCall, hstage]
      exact h.removeOwn hcall (by rw [hstage]; rfl) result
  | holding number =>
      simp only [Codex.runCall, hstage]
      exact h
  | releasing number =>
      simp only [Codex.runCall, hstage]
      split
      · exact h.keep hcall (by rw [hstage]; rfl) rfl (by rw [hstage]; rfl) (by simp [Stage.since?]) rfl
          rfl (by simp)
      · exact h.setIdle hcall rfl
  | removing number =>
      simp only [Codex.runCall, hstage]
      exact h.removeOwn hcall (by rw [hstage]; rfl) result
  | reading attempt file found => exact h.read hcall hstage result
  | probing attempt file found pid seen => exact h.probe hcall hstage hprobes
  | checkingAge attempt => exact h.checkAge hcall hstage result
  | detaching attempt judged => 
      rw [hstage] at hjudged
      exact h.detach hcall hstage result hjudged
  | discarding attempt =>
      simp only [Codex.runCall, hstage]
      exact h.setIdle hcall (nextAttempt_isIdle attempt)
  | ended =>
      simp only [Codex.runCall, hstage]
      exact h

end

/-! ## Runs -/

/-- Calls begin and die, and time goes by. -/
theorem Inv.of_calls (h : Inv s) (hlock : s'.lock = s.lock)
    (hnext : s'.nextDirectory = s.nextDirectory) (hclock : s.clock ≤ s'.clock)
    (hcalls : ∀ j call, s'.call? j = some call →
      s.call? j = some call ∨ call.stage.isIdle = true ∧ call.now ≤ s'.clock)
    (hprompt : ∀ j call, s'.call? j = some call → ∀ since, call.stage.since? = some since →
      s'.clock ≤ since + staleLockFallbackMs) : Inv s' := by
  have hold : ∀ j call number, s'.call? j = some call → call.stage.directory? = some number →
      s.call? j = some call := by
    intro j call number hcall hmade
    rcases hcalls j call hcall with hsame | ⟨hidle, -⟩
    · exact hsame
    · rw [(Stage.of_isIdle hidle).1] at hmade
      cases hmade
  have hframe : Frame s s' := by
    refine ⟨by omega, ?_, ?_⟩
    · intro j call hcall number hmade
      exact .inr ⟨j, call, hold j call number hcall hmade, hmade, rfl⟩
    · intro j call hcall hhas there hthere
      obtain ⟨number, hmade⟩ := directory?_of_hasWritten hhas
      rw [hlock] at hthere
      exact .inr ⟨j, call, hold j call number hcall hmade, hhas, there, hthere, Int.le_refl _⟩
  refine ⟨?_, ?_, ?_⟩
  · intro j call hcall
    rcases hcalls j call hcall with hsame | ⟨hidle, hnow⟩
    · exact (h.calls j call hsame).frame hframe hclock (fun _ => hlock) (hprompt j call hcall)
    · exact callOk_of_idle hidle hnow
  · intro j k call other number hcall hother hmade hmade'
    exact h.single j k call other number (hold j call number hcall hmade)
      (hold k other number hother hmade') hmade hmade'
  · rw [hlock, hnext]
    exact h.number

theorem Inv.acquire (h : Inv s) (pid : Pid) (token : JsString) (hnow : now ≤ s.clock) :
    Inv (step s (.acquire pid token now)) := by
  have hcalls : ∀ j call, (step s (.acquire pid token now)).call? j = some call →
      s.call? j = some call ∨ call = ⟨pid, token, now, .making 0, true⟩ := by
    intro j call hcall
    obtain ⟨hget, halive⟩ := call?_eq_some.mp hcall
    simp only [step, List.getElem?_append] at hget
    split at hget
    · exact .inl (call?_eq_some.mpr ⟨hget, halive⟩)
    · obtain ⟨hindex, hsame⟩ := List.getElem?_eq_some_iff.mp hget
      simp only [List.getElem_singleton] at hsame
      exact .inr hsame.symm
  refine h.of_calls rfl rfl (Int.le_refl _) ?_ ?_
  · intro j call hcall
    refine (hcalls j call hcall).imp_right ?_
    intro hnew
    subst hnew
    exact ⟨rfl, hnow⟩
  · intro j call hcall since hsince
    rcases hcalls j call hcall with hsame | hnew
    · exact ((h.calls j call hsame).prompt since hsince).1
    · subst hnew
      cases hsince

theorem Inv.die (h : Inv s) (pid : Pid) : Inv (step s (.die pid)) := by
  have hcalls : ∀ j call, (step s (.die pid)).call? j = some call → s.call? j = some call := by
    intro j call hcall
    obtain ⟨hget, halive⟩ := call?_eq_some.mp hcall
    simp only [step, List.getElem?_map] at hget
    obtain ⟨old, hold, heq⟩ := Option.map_eq_some_iff.mp hget
    split at heq
    · rw [← heq] at halive
      cases halive
    · exact call?_eq_some.mpr ⟨heq ▸ hold, halive⟩
  refine h.of_calls rfl rfl (Int.le_refl _) (fun j call hcall => .inl (hcalls j call hcall)) ?_
  intro j call hcall since hsince
  exact ((h.calls j call (hcalls j call hcall)).prompt since hsince).1

theorem Inv.release (h : Inv s) (hcall : s.call? i = some call) : Inv (release s i call) := by
  unfold Codex.release
  split
  · next number hstage =>
    exact h.keep hcall (by rw [hstage]; rfl) rfl (by rw [hstage]; rfl) (by simp [Stage.since?]) rfl rfl
      (by simp)
  · exact h

theorem Inv.step (h : Inv s) (hpossible : Possible s event) (hjudged : DetachesJudged s event) :
    Inv (step s event) := by
  cases event with
  | acquire pid token now => exact h.acquire pid token hpossible
  | run index result =>
      simp only [Codex.step]
      cases hcall : s.call? index with
      | none => exact h
      | some call => exact h.runCall hcall (hpossible call hcall) (hjudged call hcall)
  | release index =>
      simp only [Codex.step]
      cases hcall : s.call? index with
      | none => exact h
      | some call => exact h.release hcall
  | die pid => exact h.die pid
  | tick time =>
      obtain ⟨hclock, hprompt⟩ := hpossible
      refine h.of_calls rfl rfl hclock (fun j call hcall => .inl hcall) ?_
      intro j call hcall since hsince
      obtain ⟨hget, halive⟩ := call?_eq_some.mp hcall
      exact hprompt call (List.mem_of_getElem? hget) halive since hsince

theorem Initial.inv (h : Initial s) : Inv s := by
  have hnone : ∀ i, s.call? i = none := by
    intro i
    simp [System.call?, h.calls]
  refine ⟨?_, ?_, h.number⟩
  · intro i call hcall
    rw [hnone i] at hcall
    cases hcall
  · intro i j call other number hcall
    rw [hnone i] at hcall
    cases hcall

/-- In every run in which every directory that is detached is the one that was
judged, no two calls of processes that are alive ever hold the lock. -/
theorem lock_is_exclusive {start : System} (hstart : Initial start) {events : List Event}
    (hrun : Lib.Along step (fun s e => Possible s e ∧ DetachesJudged s e) start events) :
    Exclusive (Lib.run step start events) := by
  have hinv : Inv (Lib.run step start events) :=
    Lib.invariant_of_along Inv (fun _ _ h hok => h.step hok.1 hok.2) hstart.inv hrun
  exact hinv.exclusive

instance (s : System) (result : Bool) : (stage : Stage) → Decidable (ProbesTruly s result stage)
  | .probing _ _ _ _ _ => inferInstanceAs (Decidable (_ → _))
  | .making _ | .writing _ _ | .abandoning _ _ | .holding _ | .releasing _ | .removing _
  | .reading _ _ _ | .checkingAge _ | .detaching _ _ | .discarding _ | .ended => .isTrue trivial

instance (time : Int) (call : Call) : Decidable (Prompt time call) :=
  inferInstanceAs (Decidable (_ → _))

instance (s : System) : (event : Event) → Decidable (Possible s event)
  | .acquire _ _ _ => inferInstanceAs (Decidable (_ ≤ _))
  | .run _ _ => inferInstanceAs (Decidable (∀ _ ∈ (_ : Option Call), _))
  | .tick _ => inferInstanceAs (Decidable (_ ∧ _))
  | .release _ | .die _ => .isTrue trivial

instance (s : System) : (stage : Stage) → Decidable (Judged s stage)
  | .detaching _ _ => inferInstanceAs (Decidable (∀ _ ∈ (_ : Option Directory), _))
  | .making _ | .writing _ _ | .abandoning _ _ | .holding _ | .releasing _ | .removing _
  | .reading _ _ _ | .probing _ _ _ _ _ | .checkingAge _ | .discarding _ | .ended => .isTrue trivial

instance (s : System) : (event : Event) → Decidable (DetachesJudged s event)
  | .run _ _ => inferInstanceAs (Decidable (∀ _ ∈ (_ : Option Call), _))
  | .acquire _ _ _ | .release _ | .die _ | .tick _ => .isTrue trivial

/-- A lock directory that a process has left that has died. -/
def leftBehind : System where
  lock := some ⟨0, 0, some ⟨1, js "a"⟩, none⟩
  nextDirectory := 1
  clock := 0
  calls := []

theorem leftBehind_initial : Initial leftBehind where
  calls := rfl
  number there hthere := by
    cases hthere
    decide

/-- A call finds the owner dead, and is about to detach its directory. -/
def judge (index : Nat) : List Event :=
  [.run index true, .run index true, .run index false, .run index true]

/-- It detaches the directory and makes its own. -/
def takeOver (index : Nat) : List Event :=
  [.run index true, .run index true, .run index true, .run index true]

theorem lock_is_taken_over :
    let events := .acquire 2 (js "b") 0 :: judge 0 ++ takeOver 0 ++ [.acquire 3 (js "c") 0]
    ((Lib.run step leftBehind events).call? 0).map Call.stage = some (.holding 1) ∧
      Exclusive (Lib.run step leftBehind events) :=
  ⟨by decide +kernel, lock_is_exclusive leftBehind_initial (by decide +kernel)⟩

/-- Two calls judge the directory before the first detaches it; the second then
detaches the one that the first has made and holds. -/
theorem judged_lock_is_taken_twice :
    ∃ events, Lib.Along step Possible leftBehind events ∧ ¬Exclusive (Lib.run step leftBehind events) := by
  refine ⟨[.acquire 2 (js "b") 0, .acquire 3 (js "c") 0] ++ judge 0 ++ judge 1 ++ takeOver 0 ++
    takeOver 1, by decide +kernel, ?_⟩
  intro hexclusive
  have hsame := hexclusive 0 1 ⟨2, js "b", 0, .holding 1, true⟩ ⟨3, js "c", 0, .holding 2, true⟩ 1 2
    (by decide +kernel) (by decide +kernel) rfl rfl
  cases hsame

end StonePlus.Codex
