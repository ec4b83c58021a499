import StonePlus.Lib.Tally
import StonePlus.Proxy.Retirement
import Mathlib.Tactic.Common

/-!
# StonePlus.Proxy.RetirementSafety

A generation is disposed of once, after it was retired, and not under a request that still waits
for something; a request that was cancelled does not count as one.
-/

namespace StonePlus.Proxy.Retirement

open Lib

variable {options : Options} {g g' : Generation} {r r' : Request}

/-- The request has given its place back. -/
def Stage.isFinished : Stage → Bool
  | .cancelled | .ended => true
  | .fetching | .idle | .reading => false

/-- A read of the body is pending. -/
def Stage.hasReadPending : Stage → Bool
  | .reading | .cancelled => true
  | .fetching | .idle | .ended => false

/-- The request waits for headers, or has a body read pending. -/
def Stage.isWaiting (stage : Stage) : Bool := stage = .fetching || stage.hasReadPending

/-- The request waits, and what it waits for is still wanted. -/
def Stage.isConsumed (stage : Stage) : Bool := stage.isWaiting && stage != .cancelled

/-! ## The invariant -/

/-- The counters are those of the requests, and the flags follow each other. -/
structure Counted (g : Generation) : Prop where
  inFlight : g.inFlight = g.requests.countP fun r => !r.released
  pendingFetches : g.pendingFetches = g.requests.countP fun r => r.stage = .fetching
  activeBodyReads : g.activeBodyReads = g.requests.countP fun r => r.stage.hasReadPending
  requests : ∀ r ∈ g.requests, r.released = r.stage.isFinished ∧ r.releases = r.released.toNat
  disposals : g.disposals + g.disposalQueued.toNat = g.disposalStarted.toNat
  retired : g.disposalStarted = true → g.retired = true
  timer : g.retirementTimer = true → g.retired = true
  listed : g.listed = true → g.retired = true

structure Sound (g : Generation) : Prop extends Counted g where
  /-- A call of `dispose` that waits for its turn was queued when nothing was in flight. -/
  queued : g.disposalQueued = true → g.forced = true ∨ g.inFlight = 0

/-! ## Disposal -/

theorem Counted.startDisposal (h : Counted g) (hretired : g.retired = true) :
    Counted (startDisposal g) := by
  unfold Retirement.startDisposal
  split
  · exact h
  · rename_i hstarted
    have hdisposals := h.disposals
    simp only [hstarted, Bool.toNat_false, Nat.add_eq_zero_iff, Bool.toNat_eq_zero] at hdisposals
    exact { h with
      disposals := by simp [hdisposals.1]
      retired := fun _ => hretired
      timer := fun htimer => Bool.noConfusion htimer }

theorem Counted.scheduleRetirementCheck (h : Counted g) (hretired : g.retired = true) :
    Counted (scheduleRetirementCheck g) := by
  unfold Retirement.scheduleRetirementCheck
  split
  · exact h
  · exact { h with timer := fun _ => hretired }

theorem Counted.dispose (h : Counted g) : Counted (dispose g) := by
  unfold Retirement.dispose
  split
  · rename_i hqueued
    have hdisposals := h.disposals
    exact { h with disposals := by simpa [hqueued] using hdisposals }
  · exact h

theorem Counted.checkRetirement (h : Counted g) (hretired : g.retired = true) (now : Int) :
    Counted (checkRetirement options g now) := by
  unfold Retirement.checkRetirement
  split
  · exact h
  split
  · exact h.startDisposal hretired
  split
  · exact h.startDisposal hretired
  split
  · exact h.scheduleRetirementCheck hretired
  split
  · exact h.scheduleRetirementCheck hretired
  · exact h.startDisposal hretired

@[simp] theorem disposalQueued_dispose (g : Generation) : (dispose g).disposalQueued = false := by
  unfold dispose
  split
  · rfl
  · rename_i hqueued
    simpa using hqueued

theorem Sound.startDisposal (h : Sound g) (hretired : g.retired = true)
    (hquiet : g.forced = true ∨ g.inFlight = 0) : Sound (startDisposal g) := by
  refine ⟨h.toCounted.startDisposal hretired, fun _ => ?_⟩
  unfold Retirement.startDisposal
  split <;> exact hquiet

theorem Sound.retire (h : Sound g) (now : Int) : Sound (retire options g now) := by
  unfold Retirement.retire
  split
  · exact h
  · have hretired : Sound
        { g with
          retired := true
          listed := true
          retirementDeadlineAt := now + options.retirementFinalTimeoutMs } :=
      { h with
        retired := fun _ => rfl
        timer := fun _ => rfl
        listed := fun _ => rfl }
    dsimp only
    split
    · rename_i hinFlight
      exact hretired.startDisposal rfl (.inr hinFlight)
    · refine ⟨hretired.toCounted.scheduleRetirementCheck rfl, ?_⟩
      unfold Retirement.scheduleRetirementCheck
      split <;> exact hretired.queued

theorem Sound.dispose (h : Sound g) : Sound (dispose g) :=
  ⟨h.toCounted.dispose, by simp⟩

theorem Sound.tick (h : Sound g) (now : Int) : Sound (tick options g now) := by
  unfold Retirement.tick
  split
  · rename_i htimer
    have hcounted : Counted { g with retirementTimer := false } :=
      { h with timer := fun htimer' => Bool.noConfusion htimer' }
    exact ⟨(hcounted.checkRetirement (h.timer htimer) now).dispose, by simp⟩
  · exact h

theorem Sound.force (h : Sound g) : Sound (force g) := by
  unfold Retirement.force
  split
  · rename_i hlisted
    have hforced : Sound { g with forced := true } := { h with queued := fun _ => .inl rfl }
    exact hforced.startDisposal (h.listed hlisted) (.inl rfl)
  · exact h

theorem Sound.settleDisposal (h : Sound g) : Sound (settleDisposal g) := by
  unfold Retirement.settleDisposal
  split
  · exact { h with listed := fun hlisted => Bool.noConfusion hlisted }
  · exact h

/-! ## Requests -/

theorem Sound.executeBuiltIn (h : Sound g) (hretired : g.retired = false) :
    Sound (executeBuiltIn g) := by
  have hstarted : g.disposalStarted = false := by
    by_contra hne
    simp [h.retired (by simpa using hne)] at hretired
  have hdisposals := h.disposals
  simp only [hstarted, Bool.toNat_false, Nat.add_eq_zero_iff, Bool.toNat_eq_zero] at hdisposals
  have hcounters := h.toCounted
  refine ⟨⟨?_, ?_, ?_, ?_, h.disposals, h.retired, h.timer, h.listed⟩, ?_⟩
  · simp [Retirement.executeBuiltIn, hcounters.inFlight]
  · simp [Retirement.executeBuiltIn, hcounters.pendingFetches]
  · simp [Retirement.executeBuiltIn, hcounters.activeBodyReads, Stage.hasReadPending]
  · intro r hr
    rcases List.mem_append.mp hr with hr | hr
    · exact h.requests r hr
    · obtain rfl := List.mem_singleton.mp hr
      exact ⟨rfl, rfl⟩
  · intro hqueued
    simp [Retirement.executeBuiltIn, hdisposals.2] at hqueued

/-- The counters have changed, and then disposal has started if that left nothing in flight. -/
def Leaves (base g : Generation) : Prop :=
  g = base ∨ base.retired = true ∧ base.inFlight = 0 ∧ g = startDisposal base

theorem startDisposal_endRead (g : Generation) (now : Int) :
    endRead (startDisposal g) now = startDisposal (endRead g now) := by
  unfold endRead startDisposal
  split <;> rfl

theorem Leaves.endRead (h : Leaves base g) (now : Int) :
    Leaves (endRead base now) (endRead g now) := by
  rcases h with rfl | ⟨hretired, hinFlight, rfl⟩
  · exact .inl rfl
  · exact .inr ⟨hretired, hinFlight, startDisposal_endRead base now⟩

theorem release_of_released (h : r.released = true) : release g r = (g, r) := by
  simp [release, h]

theorem release_spec (h : r.released = false) :
    (release g r).2 = { r with released := true, releases := r.releases + 1 } ∧
      Leaves { g with inFlight := g.inFlight - 1 } (release g r).1 := by
  rw [release, if_neg (by simp [h])]
  refine ⟨rfl, ?_⟩
  by_cases hcond : g.retired = true ∧ g.inFlight - 1 = 0
  · exact .inr ⟨hcond.1, hcond.2, if_pos hcond⟩
  · exact .inl (if_neg hcond)

/-- What a request does to its generation: its own part of each counter. -/
structure Progressed (base g : Generation) (r r' : Request) : Prop where
  inFlight : base.inFlight + (!r.released).toNat = g.inFlight + (!r'.released).toNat
  pendingFetches : base.pendingFetches + (decide (r.stage = .fetching)).toNat =
    g.pendingFetches + (decide (r'.stage = .fetching)).toNat
  activeBodyReads : base.activeBodyReads + r.stage.hasReadPending.toNat =
    g.activeBodyReads + r'.stage.hasReadPending.toNat
  request : r'.released = r'.stage.isFinished ∧ r'.releases = r'.released.toNat
  released : r.released = true → r'.released = true
  /-- Nothing else changes. -/
  others : ∃ at_ : Int, base =
    { g with
      inFlight := base.inFlight
      pendingFetches := base.pendingFetches
      activeBodyReads := base.activeBodyReads
      lastActivityAt := at_ }

theorem progress_spec (hr : r.released = r.stage.isFinished ∧ r.releases = r.released.toNat)
    (hinFlight : (!r.released).toNat ≤ g.inFlight)
    (hpending : (decide (r.stage = .fetching)).toNat ≤ g.pendingFetches)
    (hreads : r.stage.hasReadPending.toNat ≤ g.activeBodyReads) (p : Progress) (now : Int) :
    ∃ base, Leaves base (progress g r p now).1 ∧
      Progressed base g r (progress g r p now).2 := by
  obtain ⟨stage, released, releases⟩ := r
  have hsame : ∃ base, Leaves base g ∧ Progressed base g ⟨stage, released, releases⟩
      ⟨stage, released, releases⟩ :=
    ⟨g, .inl rfl, ⟨rfl, rfl, rfl, hr, id, g.lastActivityAt, rfl⟩⟩
  obtain ⟨hreleased, hreleases⟩ := hr
  simp only at hreleased hreleases
  cases stage with
  | fetching =>
    obtain rfl : released = false := hreleased
    have hinFlight' : 1 ≤ g.inFlight := hinFlight
    have hpending' : 1 ≤ g.pendingFetches := hpending
    cases p with
    | responds body =>
      obtain ⟨hrequest, hleaves⟩ := release_spec
        (g := { g with pendingFetches := g.pendingFetches - 1, lastActivityAt := now })
        (r := ⟨.fetching, false, releases⟩) rfl
      cases body with
      | tracked =>
        refine ⟨_, .inl rfl, ?_, ?_, ?_, ?_, ?_, now, rfl⟩ <;>
          simp_all [progress, Stage.hasReadPending, Stage.isFinished]
      | none | untracked =>
        refine ⟨_, hleaves, ?_, ?_, ?_, ?_, ?_, now, rfl⟩ <;>
          simp_all [progress, Stage.hasReadPending, Stage.isFinished]
    | fails =>
      obtain ⟨hrequest, hleaves⟩ := release_spec
        (g := { g with pendingFetches := g.pendingFetches - 1 })
        (r := ⟨.fetching, false, releases⟩) rfl
      refine ⟨_, hleaves, ?_, ?_, ?_, ?_, ?_, g.lastActivityAt, rfl⟩ <;>
        simp_all [progress, Stage.hasReadPending, Stage.isFinished]
    | pull | settles | cancel => exact hsame
  | idle =>
    obtain rfl : released = false := hreleased
    have hinFlight' : 1 ≤ g.inFlight := hinFlight
    obtain ⟨hrequest, hleaves⟩ := release_spec (g := g) (r := ⟨.idle, false, releases⟩) rfl
    cases p with
    | pull =>
      refine ⟨beginRead g now, .inl rfl, ?_, ?_, ?_, ?_, ?_, now, rfl⟩ <;>
        simp_all [progress, beginRead, Stage.hasReadPending, Stage.isFinished]
    | cancel =>
      refine ⟨_, hleaves, ?_, ?_, ?_, ?_, ?_, g.lastActivityAt, rfl⟩ <;>
        simp_all [progress, Stage.hasReadPending, Stage.isFinished]
    | responds | fails | settles => exact hsame
  | reading =>
    obtain rfl : released = false := hreleased
    have hinFlight' : 1 ≤ g.inFlight := hinFlight
    have hreads' : 1 ≤ g.activeBodyReads := hreads
    obtain ⟨hrequest, hleaves⟩ := release_spec (g := g) (r := ⟨.reading, false, releases⟩) rfl
    cases p with
    | cancel =>
      refine ⟨_, hleaves, ?_, ?_, ?_, ?_, ?_, g.lastActivityAt, rfl⟩ <;>
        simp_all [progress, Stage.hasReadPending, Stage.isFinished]
    | settles result =>
      cases result with
      | chunk =>
        refine ⟨endRead g now, .inl rfl, ?_, ?_, ?_, ?_, ?_, now, rfl⟩ <;>
          simp_all [progress, endRead, Stage.hasReadPending, Stage.isFinished]
      | done | error =>
        refine ⟨_, hleaves.endRead now, ?_, ?_, ?_, ?_, ?_, now, rfl⟩ <;>
          simp_all [progress, endRead, Stage.hasReadPending, Stage.isFinished]
    | responds | fails | pull => exact hsame
  | cancelled =>
    obtain rfl : released = true := hreleased
    have hreads' : 1 ≤ g.activeBodyReads := hreads
    cases p with
    | settles result =>
      refine ⟨endRead g now, .inl ?_, ?_, ?_, ?_, ?_, ?_, now, rfl⟩ <;> cases result <;>
        simp_all [progress, endRead, release_of_released, Stage.hasReadPending, Stage.isFinished]
    | responds | fails | pull | cancel => exact hsame
  | ended => exact hsame

@[simp] theorem requests_startDisposal (g : Generation) :
    (startDisposal g).requests = g.requests := by
  unfold startDisposal
  split <;> rfl

theorem startDisposal_requests (g : Generation) (requests : List Request) :
    { startDisposal g with requests := requests } = startDisposal { g with requests := requests } := by
  unfold startDisposal
  split <;> rfl

/-- A request goes on in two steps: the counters change, and disposal may start. -/
theorem advance_spec (h : Sound g) (i : Nat) (p : Progress) (now : Int) :
    ∃ base, Sound base ∧ Leaves base (advance g i p now) ∧ base.retired = g.retired ∧
      base.disposalStarted = g.disposalStarted ∧ base.disposals = g.disposals := by
  unfold advance
  split
  · exact ⟨g, h, .inl rfl, rfl, rfl, rfl⟩
  · rename_i r hr
    have hmem : r ∈ g.requests := List.mem_of_getElem? hr
    obtain ⟨base, hleaves, hprogressed⟩ := progress_spec (h.requests r hmem)
      (h.inFlight ▸ toNat_le_countP (fun r : Request => !r.released) hr)
      (h.pendingFetches ▸ toNat_le_countP (fun r : Request => decide (r.stage = .fetching)) hr)
      (h.activeBodyReads ▸ toNat_le_countP (fun r : Request => r.stage.hasReadPending) hr) p now
    obtain ⟨at_, hothers⟩ := hprogressed.others
    have hbase : Sound { base with requests := base.requests.set i (progress g r p now).2 } := by
      rw [hothers]
      refine ⟨⟨?_, ?_, ?_, ?_, h.disposals, h.retired, h.timer, h.listed⟩, ?_⟩
      · have hset := countP_set_add (b := (progress g r p now).2) (fun r : Request => !r.released) hr
        have hold := h.inFlight
        have hnew := hprogressed.inFlight
        simp only
        omega
      · have hset := countP_set_add (b := (progress g r p now).2)
          (fun r : Request => decide (r.stage = .fetching)) hr
        have hold := h.pendingFetches
        have hnew := hprogressed.pendingFetches
        simp only
        omega
      · have hset := countP_set_add (b := (progress g r p now).2)
          (fun r : Request => r.stage.hasReadPending) hr
        have hold := h.activeBodyReads
        have hnew := hprogressed.activeBodyReads
        simp only
        omega
      · intro r' hr'
        rcases List.mem_or_eq_of_mem_set hr' with hr' | rfl
        · exact h.requests r' hr'
        · exact hprogressed.request
      · intro hqueued
        refine (h.queued hqueued).imp_right fun hzero => ?_
        -- Nothing is in flight, so the request was released before, and it still is.
        have hpart := h.inFlight ▸ toNat_le_countP (fun r : Request => !r.released) hr
        have hreleased : r.released = true := by simpa [hzero] using hpart
        have hnew := hprogressed.inFlight
        simp only [hzero, hreleased, hprogressed.released hreleased] at hnew
        simpa using hnew
    refine ⟨_, hbase, ?_, by rw [hothers], by rw [hothers], by rw [hothers]⟩
    rcases hleaves with hleaves | ⟨hretired, hinFlight, hleaves⟩
    · simp only [hleaves]
      exact .inl rfl
    · simp only [hleaves, startDisposal_requests, requests_startDisposal]
      exact .inr ⟨hretired, hinFlight, rfl⟩

theorem Sound.advance (h : Sound g) (i : Nat) (p : Progress) (now : Int) :
    Sound (advance g i p now) := by
  obtain ⟨base, hbase, hleaves, -⟩ := advance_spec h i p now
  rcases hleaves with hleaves | ⟨hretired, hinFlight, hleaves⟩
  · exact hleaves ▸ hbase
  · exact hleaves ▸ hbase.startDisposal hretired (.inr hinFlight)

/-! ## When disposal starts -/

/-- It is decided to dispose of the generation, or `dispose` is called. -/
def Disposes (g g' : Generation) : Prop :=
  g.disposalStarted = false ∧ g'.disposalStarted = true ∨ g.disposals < g'.disposals

/-- No request is in a stage in which it waits. -/
def Quiet (waits : Stage → Bool) (g : Generation) : Prop := ∀ r ∈ g.requests, waits r.stage = false

theorem Counted.quiet_of_inFlight (h : Counted g) (hzero : g.inFlight = 0) :
    Quiet Stage.isConsumed g := by
  intro r hr
  have hcount := h.inFlight
  rw [hzero, eq_comm, List.countP_eq_zero] at hcount
  have hfinished : r.stage.isFinished = true := by
    rw [← (h.requests r hr).1]
    simpa using hcount r hr
  cases hstage : r.stage <;> simp_all [Stage.isFinished, Stage.isConsumed, Stage.isWaiting,
    Stage.hasReadPending]

theorem Counted.quiet_of_counters (h : Counted g) (hpending : g.pendingFetches = 0)
    (hreads : g.activeBodyReads = 0) : Quiet Stage.isConsumed g := by
  intro r hr
  have hfetching := h.pendingFetches
  have hreading := h.activeBodyReads
  rw [hpending, eq_comm, List.countP_eq_zero] at hfetching
  rw [hreads, eq_comm, List.countP_eq_zero] at hreading
  have hstage₁ := hfetching r hr
  have hstage₂ := hreading r hr
  simp_all [Stage.isConsumed, Stage.isWaiting]

/-- What a step of the coordinator does to one of its generations. -/
inductive Acts (options : Options) (event : Event) (i : Nat) (g : Generation) : Generation → Prop
  | none : Acts options event i g g
  | retire (now : Int) : Acts options event i g (retire options g now)
  | execute (h : g.retired = false) : Acts options event i g (executeBuiltIn g)
  | advance (request : Nat) (p : Progress) (now : Int) :
    Acts options event i g (advance g request p now)
  | tick (now : Int) (h : event = .tick i now) : Acts options event i g (tick options g now)
  | dispose : Acts options event i g (dispose g)
  | settleDisposal : Acts options event i g (settleDisposal g)
  | force : Acts options event i g (force g)

variable {event : Event} {i : Nat}

/-- Why disposal may start: it was forced, the deadline has passed, or no request waits. -/
def Excused (waits : Stage → Bool) (event : Event) (i : Nat) (g g' : Generation) : Prop :=
  g'.forced = true ∨ (∃ now, event = .tick i now ∧ g.retirementDeadlineAt ≤ now) ∨ Quiet waits g'

@[simp] theorem requests_dispose (g : Generation) : (dispose g).requests = g.requests := by
  unfold dispose
  split <;> rfl

theorem scheduleRetirementCheck_eq (g : Generation) :
    ∃ timer, scheduleRetirementCheck g = { g with retirementTimer := timer } := by
  unfold scheduleRetirementCheck
  split
  · exact ⟨g.retirementTimer, rfl⟩
  · exact ⟨true, rfl⟩

theorem not_disposes_of_eq (hstarted : g'.disposalStarted = g.disposalStarted)
    (hdisposals : g'.disposals = g.disposals) : ¬ Disposes g g' := by
  simp [Disposes, hstarted, hdisposals]

theorem Sound.excused_dispose (h : Sound g) (hdisposes : Disposes g (Retirement.dispose g)) :
    Excused Stage.isConsumed event i g (Retirement.dispose g) := by
  unfold Retirement.dispose at hdisposes ⊢
  split at hdisposes
  · rename_i hqueued
    rw [if_pos hqueued]
    rcases h.queued hqueued with hforced | hzero
    · exact .inl hforced
    · exact .inr (.inr (h.quiet_of_inFlight hzero))
  · exact absurd hdisposes (not_disposes_of_eq rfl rfl)

theorem Sound.excused_retire (h : Sound g) (now : Int)
    (hdisposes : Disposes g (Retirement.retire options g now)) :
    Excused Stage.isConsumed event i g (Retirement.retire options g now) := by
  unfold Retirement.retire at hdisposes ⊢
  split at hdisposes
  · exact absurd hdisposes (not_disposes_of_eq rfl rfl)
  · rename_i hretired
    rw [if_neg hretired]
    dsimp only at hdisposes ⊢
    split at hdisposes
    · rename_i hzero
      rw [if_pos hzero]
      refine .inr (.inr fun r hr => ?_)
      rw [requests_startDisposal] at hr
      exact h.quiet_of_inFlight hzero r hr
    · obtain ⟨timer, htimer⟩ := scheduleRetirementCheck_eq
        { g with
          retired := true
          listed := true
          retirementDeadlineAt := now + options.retirementFinalTimeoutMs }
      rw [htimer] at hdisposes
      exact absurd hdisposes (not_disposes_of_eq rfl rfl)

theorem Sound.excused_advance (h : Sound g) (request : Nat) (p : Progress) (now : Int)
    (hdisposes : Disposes g (Retirement.advance g request p now)) :
    Excused Stage.isConsumed event i g (Retirement.advance g request p now) := by
  obtain ⟨base, hbase, hleaves, -, hstarted, hdisposals⟩ := advance_spec h request p now
  rcases hleaves with hleaves | ⟨-, hzero, hleaves⟩
  · rw [hleaves] at hdisposes
    exact absurd hdisposes (not_disposes_of_eq hstarted hdisposals)
  · rw [hleaves]
    refine .inr (.inr fun r hr => ?_)
    rw [requests_startDisposal] at hr
    exact hbase.quiet_of_inFlight hzero r hr

theorem Sound.excused_tick (h : Sound g) (now : Int)
    (hdisposes : Disposes g (Retirement.tick options g now)) :
    Excused Stage.isConsumed (.tick i now) i g (Retirement.tick options g now) := by
  unfold Retirement.tick at hdisposes ⊢
  split at hdisposes
  · rename_i htimer
    rw [if_pos htimer]
    have hsound : ∀ timer, Sound { g with retirementTimer := timer } := fun _ =>
      { h with timer := fun _ => h.timer htimer }
    have hquiet : Quiet Stage.isConsumed g → Excused Stage.isConsumed (.tick i now) i g
        (Retirement.dispose (Retirement.startDisposal { g with retirementTimer := false })) :=
      fun hquiet => .inr (.inr (by simpa [Quiet] using hquiet))
    have hlater : ∀ timer, Disposes g (Retirement.dispose { g with retirementTimer := timer }) →
        Excused Stage.isConsumed (.tick i now) i g
          (Retirement.dispose { g with retirementTimer := timer }) := fun timer hdisposes =>
      (hsound timer).excused_dispose hdisposes
    obtain ⟨timer, htimer'⟩ := scheduleRetirementCheck_eq { g with retirementTimer := false }
    unfold Retirement.checkRetirement at hdisposes ⊢
    split at hdisposes
    · rename_i hstarted
      rw [if_pos hstarted]
      exact hlater false hdisposes
    rename_i hstarted
    rw [if_neg hstarted]
    split at hdisposes
    · rename_i hzero
      rw [if_pos hzero]
      exact hquiet (h.quiet_of_inFlight hzero)
    rename_i hzero
    rw [if_neg hzero]
    split at hdisposes
    · rename_i hdeadline
      exact .inr (.inl ⟨now, rfl, hdeadline⟩)
    rename_i hdeadline
    rw [if_neg hdeadline]
    split at hdisposes
    · rename_i hactive
      rw [if_pos hactive, htimer']
      rw [htimer'] at hdisposes
      exact hlater timer hdisposes
    rename_i hactive
    rw [if_neg hactive]
    split at hdisposes
    · rename_i hrecent
      rw [if_pos hrecent, htimer']
      rw [htimer'] at hdisposes
      exact hlater timer hdisposes
    · rename_i hrecent
      rw [if_neg hrecent]
      simp only [not_or, Nat.not_lt, Nat.le_zero] at hactive
      exact hquiet (h.quiet_of_counters hactive.1 hactive.2)
  · exact absurd hdisposes (not_disposes_of_eq rfl rfl)

theorem excused_force (hdisposes : Disposes g (force g)) :
    Excused Stage.isConsumed event i g (force g) := by
  unfold force at hdisposes ⊢
  split at hdisposes
  · rename_i hlisted
    rw [if_pos hlisted]
    refine .inl ?_
    unfold startDisposal
    split <;> rfl
  · exact absurd hdisposes (not_disposes_of_eq rfl rfl)

theorem Sound.excused (h : Sound g) (hacts : Acts options event i g g')
    (hdisposes : Disposes g g') : Excused Stage.isConsumed event i g g' := by
  cases hacts with
  | none => exact absurd hdisposes (not_disposes_of_eq rfl rfl)
  | retire now => exact h.excused_retire now hdisposes
  | execute => exact absurd hdisposes (not_disposes_of_eq rfl rfl)
  | advance request p now => exact h.excused_advance request p now hdisposes
  | tick now hevent => exact hevent ▸ h.excused_tick now hdisposes
  | dispose => exact h.excused_dispose hdisposes
  | settleDisposal =>
    refine absurd hdisposes ?_
    unfold Retirement.settleDisposal
    split <;> exact not_disposes_of_eq rfl rfl
  | force => exact excused_force hdisposes

@[simp] theorem disposals_startDisposal (g : Generation) :
    (startDisposal g).disposals = g.disposals := by
  unfold startDisposal
  split <;> rfl

@[simp] theorem disposals_scheduleRetirementCheck (g : Generation) :
    (scheduleRetirementCheck g).disposals = g.disposals := by
  unfold scheduleRetirementCheck
  split <;> rfl

/-- `dispose` is called only for a generation that is retired. -/
theorem Sound.retired_of_disposals (h : Sound g) (hacts : Acts options event i g g')
    (hdisposals : g.disposals < g'.disposals) : g.retired = true := by
  cases hacts with
  | none | execute => exact absurd hdisposals (Nat.lt_irrefl _)
  | retire now =>
    unfold Retirement.retire at hdisposals
    split at hdisposals
    · assumption
    · dsimp only at hdisposals
      split at hdisposals <;> simp at hdisposals
  | advance request p now =>
    obtain ⟨base, -, hleaves, -, -, hbase⟩ := advance_spec h request p now
    rcases hleaves with hleaves | ⟨-, -, hleaves⟩ <;> simp [hleaves, hbase] at hdisposals
  | tick now =>
    unfold Retirement.tick at hdisposals
    split at hdisposals
    · exact h.timer ‹_›
    · exact absurd hdisposals (Nat.lt_irrefl _)
  | dispose =>
    unfold Retirement.dispose at hdisposals
    split at hdisposals
    · rename_i hqueued
      have hstarted := h.disposals
      refine h.retired ?_
      cases hstarted' : g.disposalStarted with
      | true => rfl
      | false => simp [hqueued, hstarted'] at hstarted
    · exact absurd hdisposals (Nat.lt_irrefl _)
  | settleDisposal =>
    unfold Retirement.settleDisposal at hdisposals
    split at hdisposals <;> exact absurd hdisposals (Nat.lt_irrefl _)
  | force =>
    unfold Retirement.force at hdisposals
    split at hdisposals <;> simp at hdisposals

/-! ## Runs -/

/-- All generations are sound, and the one that is the route is not retired. -/
structure CoordinatorSound (s : Coordinator) : Prop where
  generations : ∀ (i : Nat) (g : Generation), s.generations[i]? = some g → Sound g
  route : ∀ i ∈ s.route, ∃ g, s.generations[i]? = some g ∧ g.retired = false

theorem getElem?_modify (s : Coordinator) (i j : Nat) (f : Generation → Generation) :
    (modify s i f).generations[j]? =
      if i = j then s.generations[j]?.map f else s.generations[j]? := by
  simp only [modify, List.getElem?_modify]
  split <;> simp

variable {s : Coordinator}

theorem acts_publish (next : Option Nat) (now : Int) (hg : s.generations[i]? = some g)
    (hg' : (publish options s next now).generations[i]? = some g') :
    Acts options event i g g' := by
  unfold publish at hg'
  split at hg'
  · rw [getElem?_modify] at hg'
    split at hg'
    · simp only [hg, Option.map_some, Option.some.injEq] at hg'
      exact hg' ▸ .retire now
    · obtain rfl := Option.some.inj (hg.symm.trans hg')
      exact .none
  · obtain rfl := Option.some.inj (hg.symm.trans hg')
    exact .none

theorem acts_modify (hg : s.generations[i]? = some g)
    (hg' : (modify s j f).generations[i]? = some g') (hf : j = i → Acts options event i g (f g)) :
    Acts options event i g g' := by
  rw [getElem?_modify] at hg'
  split at hg'
  · rename_i hij
    simp only [hg, Option.map_some, Option.some.injEq] at hg'
    exact hg' ▸ hf hij
  · obtain rfl := Option.some.inj (hg.symm.trans hg')
    exact .none

theorem CoordinatorSound.acts (h : CoordinatorSound s) (hg : s.generations[i]? = some g)
    (hg' : (step options s event).generations[i]? = some g') : Acts options event i g g' := by
  cases event with
  | activate now =>
    refine acts_publish _ now ?_ hg'
    exact (List.getElem?_append_left (List.getElem?_eq_some_iff.mp hg).1).trans hg
  | leave now => exact acts_publish none now hg hg'
  | invoke =>
    cases hroute : s.route with
    | none =>
      simp only [step, hroute] at hg'
      obtain rfl := Option.some.inj (hg.symm.trans hg')
      exact .none
    | some current =>
      simp only [step, hroute] at hg'
      refine acts_modify hg hg' fun hi => ?_
      subst hi
      obtain ⟨g₀, hg₀, hretired⟩ := h.route current hroute
      obtain rfl := Option.some.inj (hg.symm.trans hg₀)
      exact .execute hretired
  | advance j request p now => exact acts_modify hg hg' fun _ => .advance request p now
  | tick j now => exact acts_modify hg hg' fun hi => .tick now (hi ▸ rfl)
  | dispose j => exact acts_modify hg hg' fun _ => .dispose
  | settleDisposal j => exact acts_modify hg hg' fun _ => .settleDisposal
  | drainRetired =>
    simp only [step, List.getElem?_map, hg, Option.map_some, Option.some.injEq] at hg'
    exact hg' ▸ .force

theorem retired_startDisposal (g : Generation) : (startDisposal g).retired = g.retired := by
  unfold startDisposal
  split <;> rfl

theorem retired_checkRetirement (g : Generation) (now : Int) :
    (checkRetirement options g now).retired = g.retired := by
  obtain ⟨timer, htimer⟩ := scheduleRetirementCheck_eq g
  unfold checkRetirement
  rw [htimer]
  split
  · rfl
  split
  · exact retired_startDisposal g
  split
  · exact retired_startDisposal g
  split
  · rfl
  split
  · rfl
  · exact retired_startDisposal g

theorem retired_dispose (g : Generation) : (dispose g).retired = g.retired := by
  unfold dispose
  split <;> rfl

theorem retired_tick (g : Generation) (now : Int) : (tick options g now).retired = g.retired := by
  unfold tick
  split
  · exact (retired_dispose _).trans (retired_checkRetirement _ now)
  · rfl

theorem retired_force (g : Generation) : (force g).retired = g.retired := by
  unfold force
  split
  · exact retired_startDisposal _
  · rfl

theorem retired_settleDisposal (g : Generation) : (settleDisposal g).retired = g.retired := by
  unfold settleDisposal
  split <;> rfl

theorem Sound.retired_advance (h : Sound g) (request : Nat) (p : Progress) (now : Int) :
    (Retirement.advance g request p now).retired = g.retired := by
  obtain ⟨base, -, hleaves, hretired, -⟩ := advance_spec h request p now
  rcases hleaves with hleaves | ⟨-, -, hleaves⟩
  · rw [hleaves, hretired]
  · rw [hleaves, retired_startDisposal, hretired]

theorem CoordinatorSound.modify (h : CoordinatorSound s) (j : Nat) (f : Generation → Generation)
    (hf : ∀ g, s.generations[j]? = some g → Sound g → Sound (f g) ∧ (f g).retired = g.retired) :
    CoordinatorSound (modify s j f) := by
  refine ⟨fun i g hg => ?_, fun i hi => ?_⟩
  · rw [getElem?_modify] at hg
    split at hg
    · rename_i hij
      obtain ⟨g₀, hg₀, rfl⟩ := Option.map_eq_some_iff.mp hg
      exact (hf g₀ (hij ▸ hg₀) (h.generations i g₀ hg₀)).1
    · exact h.generations i g hg
  · obtain ⟨g, hg, hretired⟩ := h.route i hi
    rw [getElem?_modify, hg]
    split
    · rename_i hij
      exact ⟨f g, rfl, ((hf g (hij ▸ hg) (h.generations i g hg)).2).trans hretired⟩
    · exact ⟨g, rfl, hretired⟩

theorem CoordinatorSound.publish (h : CoordinatorSound s) (next : Option Nat) (now : Int)
    (hnext : ∀ i ∈ next, s.route ≠ some i ∧ ∃ g, s.generations[i]? = some g ∧ g.retired = false) :
    CoordinatorSound (publish options s next now) := by
  refine ⟨fun i g hg => ?_, fun i hi => ?_⟩
  · unfold Retirement.publish at hg
    split at hg
    · rw [getElem?_modify] at hg
      split at hg
      · obtain ⟨g₀, hg₀, rfl⟩ := Option.map_eq_some_iff.mp hg
        exact (h.generations i g₀ hg₀).retire now
      · exact h.generations i g hg
    · exact h.generations i g hg
  · have hroute : (Retirement.publish options s next now).route = next := by
      unfold Retirement.publish
      split <;> rfl
    rw [hroute] at hi
    obtain ⟨hprevious, g, hg, hretired⟩ := hnext i hi
    refine ⟨g, ?_, hretired⟩
    unfold Retirement.publish
    split
    · rename_i previous hcurrent
      rw [getElem?_modify, if_neg fun heq : previous = i => hprevious (heq ▸ hcurrent)]
      exact hg
    · exact hg

theorem CoordinatorSound.activate (h : CoordinatorSound s) (now : Int) :
    CoordinatorSound (activate options s now) := by
  unfold Retirement.activate
  refine CoordinatorSound.publish ?_ _ now fun i hi => ?_
  · refine ⟨fun i g hg => ?_, fun i hi => ?_⟩
    · rcases getElem?_concat_eq_some hg with hg | ⟨-, rfl⟩
      · exact h.generations i g hg
      · exact ⟨by constructor <;> simp, by simp⟩
    · obtain ⟨g, hg, hretired⟩ := h.route i hi
      exact ⟨g, (List.getElem?_append_left (List.getElem?_eq_some_iff.mp hg).1).trans hg, hretired⟩
  · obtain rfl := Option.some.inj hi
    refine ⟨fun hroute => ?_, _, List.getElem?_concat_length, rfl⟩
    obtain ⟨g, hg, -⟩ := h.route _ hroute
    exact absurd (List.getElem?_eq_some_iff.mp hg).1 (Nat.lt_irrefl _)

theorem CoordinatorSound.step (h : CoordinatorSound s) (event : Event) :
    CoordinatorSound (step options s event) := by
  cases event with
  | activate now => exact h.activate now
  | leave now => exact h.publish none now (by simp)
  | invoke =>
    cases hroute : s.route with
    | none => simpa only [Retirement.step, hroute] using h
    | some current =>
      simp only [Retirement.step, hroute]
      refine h.modify current _ fun g hg hsound => ?_
      obtain ⟨g₀, hg₀, hretired⟩ := h.route current hroute
      obtain rfl := Option.some.inj (hg.symm.trans hg₀)
      exact ⟨hsound.executeBuiltIn hretired, rfl⟩
  | advance j request p now =>
    exact h.modify j _ fun g _ hsound =>
      ⟨hsound.advance request p now, hsound.retired_advance request p now⟩
  | tick j now => exact h.modify j _ fun g _ hsound => ⟨hsound.tick now, retired_tick g now⟩
  | dispose j => exact h.modify j _ fun g _ hsound => ⟨hsound.dispose, retired_dispose g⟩
  | settleDisposal j =>
    exact h.modify j _ fun g _ hsound => ⟨hsound.settleDisposal, retired_settleDisposal g⟩
  | drainRetired =>
    refine ⟨fun i g hg => ?_, fun i hi => ?_⟩
    · simp only [Retirement.step, List.getElem?_map] at hg
      obtain ⟨g₀, hg₀, rfl⟩ := Option.map_eq_some_iff.mp hg
      exact (h.generations i g₀ hg₀).force
    · obtain ⟨g, hg, hretired⟩ := h.route i hi
      refine ⟨force g, ?_, (retired_force g).trans hretired⟩
      simp [Retirement.step, hg]

theorem coordinatorSound_run (events : List Event) :
    CoordinatorSound (run (step options) .initial events) :=
  invariant_run CoordinatorSound (fun _ event h => h.step event)
    (by constructor <;> simp [Coordinator.initial]) events

/-! ## The generations over a run -/

/-- The counter of a generation is that of its requests, each of which is released once. -/
structure Accounted (g : Generation) : Prop where
  disposals : g.disposals ≤ 1
  inFlight : g.inFlight = g.requests.countP fun r => !r.stage.isFinished
  releases : ∀ r ∈ g.requests, r.releases = r.stage.isFinished.toNat

/-- `dispose` is called for a generation that was retired, and not under a request that waits. -/
def Spares (options : Options) (waits : Stage → Bool) (s : Coordinator) (event : Event) : Prop :=
  ∀ (i : Nat) (g g' : Generation), s.generations[i]? = some g →
    (step options s event).generations[i]? = some g' →
      (g.disposals < g'.disposals → g.retired = true) ∧
      (Disposes g g' → Excused waits event i g g')

theorem Sound.accounted (h : Sound g) : Accounted g where
  disposals := by
    have hdisposals := h.disposals
    have hstarted := Bool.toNat_le g.disposalStarted
    omega
  inFlight := by
    rw [h.inFlight]
    exact List.countP_congr fun r hr => by rw [(h.requests r hr).1]
  releases := fun r hr => by rw [(h.requests r hr).2, (h.requests r hr).1]

/-- In every run each generation is disposed of at most once, its requests are released once each,
and disposal never starts under a request that waits and was not cancelled, unless the deadline
has passed or disposal was forced. -/
theorem disposal_spares_consumed (options : Options) (events : List Event) :
    (∀ g ∈ (run (step options) .initial events).generations, Accounted g) ∧
      ∀ event, Spares options Stage.isConsumed (run (step options) .initial events) event := by
  have hsound := @coordinatorSound_run options events
  refine ⟨fun g hg => ?_, fun event i g g' hg hg' => ?_⟩
  · obtain ⟨i, hi⟩ := List.getElem?_of_mem hg
    exact (hsound.generations i g hi).accounted
  · have hacts := hsound.acts hg hg'
    have hg'' := hsound.generations i g hg
    exact ⟨hg''.retired_of_disposals hacts, hg''.excused hacts⟩

/-- A generation is replaced, then the only response that it serves is cancelled while a read is
pending: `dispose` is called, and the read is still pending. -/
theorem disposal_under_cancelled_read :
    ¬ Spares ⟨5000, 3600000⟩ Stage.isWaiting
      (run (step ⟨5000, 3600000⟩) .initial
        [.activate 0, .invoke, .advance 0 0 (.responds .tracked) 1, .advance 0 0 .pull 2,
          .activate 3, .advance 0 0 .cancel 4])
      (.dispose 0) := by
  intro h
  obtain ⟨-, hexcused⟩ := h 0
    ⟨0, 0, 1, 2, true, true, 3600003, false, true, [⟨.cancelled, true, 1⟩], true, 0, false⟩
    ⟨0, 0, 1, 2, true, true, 3600003, false, true, [⟨.cancelled, true, 1⟩], false, 1, false⟩
    (by decide +kernel) (by decide +kernel)
  rcases hexcused (.inr Nat.zero_lt_one) with hforced | ⟨now, hevent, -⟩ | hquiet
  · contradiction
  · contradiction
  · exact Bool.noConfusion (hquiet _ (List.mem_singleton_self _))

end StonePlus.Proxy.Retirement
