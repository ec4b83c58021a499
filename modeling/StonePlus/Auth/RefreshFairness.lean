import StonePlus.Auth.OAuthRefreshGate
import StonePlus.Lib.Tally
import Mathlib.Tactic.Common

/-!
# StonePlus.Auth.RefreshFairness

The gate admits at most two requests at a time, waiters in the order in which they came, and it
keeps its pace as long as anyone depends on it.
-/

namespace StonePlus.Auth

open Lib

variable {s s' : ProviderGateState} {r q : RefreshRequest} {i : Nat}

/-- The request is between acquisition and release. -/
def Stage.holds : Stage → Bool
  | .queued | .ended => false
  | .granted | .delaying _ | .woken | .operating | .settled => true

/-! ## The invariant -/

/-- What is known of a request: its waiter was settled when it left the queue, and the operation
did not start before the time that was reserved. -/
structure RefreshRequest.Sound (now : Int) (r : RefreshRequest) : Prop where
  settlements : r.settlements = (r.waited && r.stage != .queued).toNat
  queued : r.stage = .queued → r.waited = true
  delaying : ∀ t, r.stage = .delaying t → r.reservedAt = some t
  woken : r.stage = .woken → ∃ t, r.reservedAt = some t ∧ t ≤ now
  started : ∀ t, r.startedAt = some t → ∃ a, r.reservedAt = some a ∧ a ≤ t
  fresh : r.stage = .queued ∨ r.stage = .granted → r.startedAt = none

/-- Whether a waiter was made for a request. -/
def hasWaited (s : ProviderGateState) (i : Nat) : Bool := s.requests[i]?.any (·.waited)

/-- The waiters that have been admitted or will be next, in order. -/
def turns (s : ProviderGateState) : List Nat :=
  (s.reservations.map Reservation.request ++ s.resumptions).filter (hasWaited s)

/-- The invariant, where `owed` slots are counted for nobody. -/
structure Core (owed : Nat) (s : ProviderGateState) : Prop where
  active : s.active = s.requests.countP (fun r => r.stage.holds) + owed
  bounded : s.active ≤ maxConcurrentRefreshes
  requests : ∀ r ∈ s.requests, r.Sound s.now
  queue : ∀ i ∈ s.queue, ∃ r, s.requests[i]? = some r ∧ r.stage = .queued
  queued : ∀ i r, s.requests[i]? = some r → r.stage = .queued → i ∈ s.queue
  resumptions : ∀ i ∈ s.resumptions, ∃ r, s.requests[i]? = some r ∧ r.stage = .granted
  distinct : s.resumptions.Nodup
  order : (turns s ++ s.queue).Pairwise (· < ·)
  reserved : ∀ e ∈ s.reservations, e.request < s.requests.length ∧ e.period ≤ s.period ∧
    e.deferUntil ≤ e.admissionAt
  spaced : s.reservations.Pairwise fun e e' =>
    e.period = e'.period → e.admissionAt + minAdmissionIntervalMs ≤ e'.admissionAt
  pace : s.isIdle = false → ∀ e ∈ s.reservations, e.period = s.period →
    e.admissionAt + minAdmissionIntervalMs ≤ s.nextAdmissionAt

/-- Nobody waits while there is a slot. -/
structure Balanced (s : ProviderGateState) : Prop extends Core 0 s where
  full : s.queue ≠ [] → s.active = maxConcurrentRefreshes

structure Sound (s : ProviderGateState) : Prop extends Balanced s where
  idle : s.isIdle = true → ∀ e ∈ s.reservations, e.period < s.period

/-! ## Requests -/

theorem length_setRequest (s : ProviderGateState) (i : Nat) (r : RefreshRequest) :
    (setRequest s i r).requests.length = s.requests.length := List.length_set

theorem getElem?_setRequest (hr : s.requests[i]? = some r) (q : RefreshRequest) (j : Nat) :
    (setRequest s i q).requests[j]? = if i = j then some q else s.requests[j]? :=
  getElem?_set_of_some hr q j

theorem hasWaited_setRequest (hr : s.requests[i]? = some r) (hwaited : q.waited = r.waited) :
    hasWaited (setRequest s i q) = hasWaited s := by
  funext j
  rw [hasWaited, getElem?_setRequest hr, hasWaited]
  split
  · rename_i hij
    simp [← hij, hr, hwaited]
  · rfl

theorem turns_setRequest (hr : s.requests[i]? = some r) (hwaited : q.waited = r.waited) :
    turns (setRequest s i q) = turns s := by
  rw [turns, turns, hasWaited_setRequest hr hwaited]
  rfl

theorem RefreshRequest.Sound.mono (h : r.Sound now) (hle : now ≤ now') : r.Sound now' :=
  { h with
    woken := fun hstage => by
      obtain ⟨t, ht, hnow⟩ := h.woken hstage
      exact ⟨t, ht, Int.le_trans hnow hle⟩ }

variable {owed owed' : Nat}

theorem Core.mem_requests (h : Core owed s) (hr : s.requests[i]? = some r) : r.Sound s.now :=
  h.requests r (List.mem_of_getElem? hr)

/-- A request goes on; it stays in the queue or out of it. -/
theorem Core.setRequest (h : Core owed s) (hr : s.requests[i]? = some r) (hsound : q.Sound s.now)
    (hwaited : q.waited = r.waited)
    (howed : owed' + q.stage.holds.toNat = owed + r.stage.holds.toNat)
    (hqueued : q.stage = .queued ↔ r.stage = .queued)
    (hgranted : i ∈ s.resumptions → q.stage = .granted) : Core owed' (setRequest s i q) := by
  have hget := getElem?_setRequest hr q
  refine ⟨?_, h.bounded, ?_, ?_, ?_, ?_, h.distinct, ?_, ?_, h.spaced, h.pace⟩
  · have hcount := countP_set_add (b := q) (fun r : RefreshRequest => r.stage.holds) hr
    have hactive := h.active
    simp only [Auth.setRequest]
    omega
  · intro x hq
    rcases List.mem_or_eq_of_mem_set hq with hq | rfl
    · exact h.requests x hq
    · exact hsound
  · intro j hj
    obtain ⟨x, hq, hstage⟩ := h.queue j hj
    rw [hget]
    split
    · rename_i hij
      subst hij
      obtain rfl := Option.some.inj (hr.symm.trans hq)
      exact ⟨q, rfl, hqueued.mpr hstage⟩
    · exact ⟨x, hq, hstage⟩
  · intro j x hq hstage
    rw [hget] at hq
    split at hq
    · rename_i hij
      subst hij
      obtain rfl := Option.some.inj hq
      exact h.queued i r hr (hqueued.mp hstage)
    · exact h.queued j x hq hstage
  · intro j hj
    rw [hget]
    split
    · rename_i hij
      exact ⟨q, rfl, hgranted (hij ▸ hj)⟩
    · exact h.resumptions j hj
  · rw [turns_setRequest hr hwaited]
    exact h.order
  · intro e he
    rw [length_setRequest]
    exact h.reserved e he

/-- A request that waits leaves the queue, at its head. -/
theorem Core.over (h : Core owed s) (hr : s.requests[i]? = some r) (hout : i ∉ s.resumptions)
    (hqueued : r.stage ≠ .queued) (howed : owed' = owed + r.stage.holds.toNat)
    (hstarted : ∀ t, q.startedAt = some t → ∃ a, q.reservedAt = some a ∧ a ≤ t)
    (hsame : q.waited = r.waited ∧ q.settlements = r.settlements) (hover : q.stage = .ended) :
    Core owed' (Auth.setRequest s i q) := by
  have hsound := h.mem_requests hr
  have hleft : (r.stage != .queued) = true := bne_iff_ne.mpr hqueued
  refine h.setRequest hr ⟨?_, ?_, ?_, ?_, hstarted, ?_⟩ hsame.1 ?_ ?_ fun hmem => absurd hmem hout
  · rw [hsame.1, hsame.2, hsound.settlements, hover, hleft]
    rfl
  · simp [hover]
  · simp [hover]
  · simp [hover]
  · simp [hover]
  · simp [hover, Stage.holds, howed]
  · simp [hover, hqueued]

/-! ## Handing slots over -/

theorem isIdle_eq_false : s.isIdle = false ↔ s.active ≠ 0 ∨ s.queue ≠ [] := by
  simp only [ProviderGateState.isIdle, Bool.and_eq_false_iff, decide_eq_false_iff_not,
    List.isEmpty_eq_false_iff]

theorem Core.queue_sorted (h : Core owed s) : s.queue.Pairwise (· < ·) :=
  (List.pairwise_append.mp h.order).2.1

theorem Core.nodup_queue (h : Core owed s) : s.queue.Nodup :=
  h.queue_sorted.imp fun hlt => Nat.ne_of_lt hlt

theorem Core.stage_of_mem_queue (h : Core owed s) (hmem : i ∈ s.queue)
    (hr : s.requests[i]? = some r) : r.stage = .queued := by
  obtain ⟨x, hq, hstage⟩ := h.queue i hmem
  obtain rfl := Option.some.inj (hr.symm.trans hq)
  exact hstage

theorem Core.not_mem_resumptions (h : Core owed s) (hr : s.requests[i]? = some r)
    (hstage : r.stage ≠ .granted) : i ∉ s.resumptions := by
  intro hmem
  obtain ⟨x, hq, hstage'⟩ := h.resumptions i hmem
  obtain rfl := Option.some.inj (hr.symm.trans hq)
  exact hstage hstage'

theorem Core.pace_of_mem (h : Core owed s) (hmem : i ∈ s.queue) :
    ∀ e ∈ s.reservations, e.period = s.period →
      e.admissionAt + minAdmissionIntervalMs ≤ s.nextAdmissionAt :=
  h.pace (isIdle_eq_false.mpr (.inr (List.ne_nil_of_mem hmem)))

/-- The promise of a waiter is settled, once. -/
theorem RefreshRequest.Sound.settle (h : r.Sound now) (hqueued : r.stage = .queued)
    (hsame : q.waited = r.waited ∧ q.reservedAt = r.reservedAt ∧ q.startedAt = r.startedAt)
    (hsettlements : q.settlements = r.settlements + 1)
    (hstage : q.stage = .ended ∨ q.stage = .granted) : q.Sound now := by
  obtain ⟨hwaited, hreserved, hstarted⟩ := hsame
  have hold := h.settlements
  rw [hqueued, h.queued hqueued] at hold
  refine ⟨?_, ?_, ?_, ?_, ?_, fun _ => hstarted.trans (h.fresh (.inl hqueued))⟩
  · rw [hsettlements, hold, hwaited, h.queued hqueued]
    rcases hstage with hstage | hstage <;> rw [hstage] <;> rfl
  · rcases hstage with hstage | hstage <;> simp [hstage]
  · rcases hstage with hstage | hstage <;> simp [hstage]
  · rcases hstage with hstage | hstage <;> simp [hstage]
  · rw [hstarted, hreserved]
    exact h.started

/-- A waiter is rejected, and leaves the queue. -/
theorem Core.reject (h : Core owed s) (hmem : i ∈ s.queue) (hr : s.requests[i]? = some r)
    (hsame : q.waited = r.waited ∧ q.reservedAt = r.reservedAt ∧ q.startedAt = r.startedAt)
    (hsettlements : q.settlements = r.settlements + 1) (hover : q.stage = .ended) :
    Core owed { Auth.setRequest s i q with queue := s.queue.erase i } := by
  have hstage := h.stage_of_mem_queue hmem hr
  have hget := getElem?_setRequest hr q
  have hne : ∀ j, j ∈ s.queue.erase i → i ≠ j := by
    rintro j hj rfl
    exact h.nodup_queue.not_mem_erase hj
  refine ⟨?_, h.bounded, ?_, ?_, ?_, ?_, h.distinct, ?_, ?_, h.spaced, fun _ => h.pace_of_mem hmem⟩
  · have hcount := countP_set_add (b := q) (fun r : RefreshRequest => r.stage.holds) hr
    have hactive := h.active
    have hbefore : r.stage.holds.toNat = 0 := by rw [hstage]; rfl
    have hafter : q.stage.holds.toNat = 0 := by rw [hover]; rfl
    simp only [Auth.setRequest]
    omega
  · intro x hq
    rcases List.mem_or_eq_of_mem_set hq with hq | rfl
    · exact h.requests x hq
    · exact (h.mem_requests hr).settle hstage hsame hsettlements (.inl hover)
  · intro j hj
    obtain ⟨x, hq, hstage'⟩ := h.queue j (List.mem_of_mem_erase hj)
    exact ⟨x, (hget j).trans ((if_neg (hne j hj)).trans hq), hstage'⟩
  · intro j x hq hstage'
    rw [hget] at hq
    split at hq
    · obtain rfl := Option.some.inj hq
      simp [hover] at hstage'
    · rename_i hij
      exact (List.mem_erase_of_ne (Ne.symm hij)).mpr (h.queued j x hq hstage')
  · intro j hj
    obtain ⟨x, hq, hstage'⟩ := h.resumptions j hj
    refine ⟨x, (hget j).trans ((if_neg ?_).trans hq), hstage'⟩
    rintro rfl
    exact h.not_mem_resumptions hr (by simp [hstage]) hj
  · have hturns : turns { Auth.setRequest s i q with queue := s.queue.erase i } = turns s :=
      turns_setRequest hr hsame.1
    rw [hturns]
    exact h.order.sublist (List.Sublist.append_left List.erase_sublist _)
  · intro e he
    simp only [length_setRequest]
    exact h.reserved e he

/-- The waiter at the head of the queue gets a slot. -/
theorem Core.grant {queue : List Nat} (h : Core 0 s) (hqueue : s.queue = i :: queue)
    (hactive : s.active < maxConcurrentRefreshes) (hr : s.requests[i]? = some r)
    (hsame : q.waited = r.waited ∧ q.reservedAt = r.reservedAt ∧ q.startedAt = r.startedAt)
    (hsettlements : q.settlements = r.settlements + 1) (hgranted : q.stage = .granted) :
    Core 0
      { Auth.setRequest s i q with
        active := s.active + 1
        resumptions := s.resumptions ++ [i]
        queue := queue } := by
  have hmem : i ∈ s.queue := by simp [hqueue]
  have hstage := h.stage_of_mem_queue hmem hr
  have hget := getElem?_setRequest hr q
  have hnodup := h.nodup_queue
  rw [hqueue, List.nodup_cons] at hnodup
  have hout : i ∉ s.resumptions := h.not_mem_resumptions hr (by simp [hstage])
  refine ⟨?_, hactive, ?_, ?_, ?_, ?_, ?_, ?_, ?_, h.spaced, fun _ => h.pace_of_mem hmem⟩
  · have hcount := countP_set_add (b := q) (fun r : RefreshRequest => r.stage.holds) hr
    have hold := h.active
    have hbefore : r.stage.holds.toNat = 0 := by rw [hstage]; rfl
    have hafter : q.stage.holds.toNat = 1 := by rw [hgranted]; rfl
    simp only [Auth.setRequest]
    omega
  · intro x hq
    rcases List.mem_or_eq_of_mem_set hq with hq | rfl
    · exact h.requests x hq
    · exact (h.mem_requests hr).settle hstage hsame hsettlements (.inr hgranted)
  · intro j hj
    obtain ⟨x, hq, hstage'⟩ := h.queue j (by simp [hqueue, hj])
    refine ⟨x, (hget j).trans ((if_neg ?_).trans hq), hstage'⟩
    rintro rfl
    exact hnodup.1 hj
  · intro j x hq hstage'
    rw [hget] at hq
    split at hq
    · obtain rfl := Option.some.inj hq
      simp [hgranted] at hstage'
    · rename_i hij
      have hj := h.queued j x hq hstage'
      rw [hqueue, List.mem_cons] at hj
      exact hj.resolve_left (Ne.symm hij)
  · intro j hj
    rw [hget]
    split
    · exact ⟨q, rfl, hgranted⟩
    · rename_i hij
      refine h.resumptions j ((List.mem_append.mp hj).resolve_right fun hj => ?_)
      exact hij (List.mem_singleton.mp hj).symm
  · exact List.nodup_append.mpr ⟨h.distinct, by simp, by
      rintro a ha b hb rfl
      exact hout (List.mem_singleton.mp hb ▸ ha)⟩
  · have hwaited : hasWaited s i = true := by
      simp [hasWaited, hr, (h.mem_requests hr).queued hstage]
    have hturns : turns
        { Auth.setRequest s i q with
          active := s.active + 1
          resumptions := s.resumptions ++ [i]
          queue := queue } = turns s ++ [i] := by
      have hsame' : hasWaited
          { Auth.setRequest s i q with
            active := s.active + 1
            resumptions := s.resumptions ++ [i]
            queue := queue } = hasWaited s := hasWaited_setRequest hr hsame.1
      rw [turns, hsame', turns]
      simp [Auth.setRequest, ← List.append_assoc, hwaited]
    rw [hturns]
    have horder := h.order
    rw [hqueue] at horder
    simpa using horder
  · intro e he
    simp only [length_setRequest]
    exact h.reserved e he

theorem Core.handOver (queue : List Nat) :
    ∀ s : ProviderGateState, Core 0 { s with queue := queue } → Balanced (handOver s queue) := by
  induction queue with
  | nil => exact fun s h => ⟨h, fun hqueue => absurd rfl hqueue⟩
  | cons i queue ih =>
    intro s h
    unfold Auth.handOver
    split
    · rename_i hactive
      obtain ⟨r, hr, -⟩ := h.queue i List.mem_cons_self
      have hr' : s.requests[i]? = some r := hr
      simp only [hr']
      split
      · have hreject := h.reject (q := { r with stage := .ended, settlements := r.settlements + 1 })
          List.mem_cons_self hr ⟨rfl, rfl, rfl⟩ rfl rfl
        simp only [List.erase_cons_head] at hreject
        exact ih _ hreject
      · exact ih _ (h.grant (q := { r with stage := .granted, settlements := r.settlements + 1 })
          rfl hactive hr ⟨rfl, rfl, rfl⟩ rfl rfl)
    · rename_i hactive
      exact ⟨h, fun _ => Nat.le_antisymm h.bounded (Nat.not_lt.mp hactive)⟩

/-- The slot of a request that is over is given back. -/
theorem Core.pay (h : Core 1 s) : Core 0 { s with active := s.active - 1 } := by
  have hactive := h.active
  exact
    { h with
      active := by simp only; omega
      bounded := Nat.le_trans (Nat.sub_le _ _) h.bounded
      pace := fun hbusy => h.pace (by
        rw [isIdle_eq_false] at hbusy ⊢
        exact hbusy.imp_left fun hne hzero => hne (by simp [hzero])) }

theorem Stage.ne_queued_of_holds {stage : Stage} (h : stage.holds = true) : stage ≠ .queued := by
  rintro rfl
  contradiction

theorem Core.release (h : Core 0 s) (hr : s.requests[i]? = some r) (hholds : r.stage.holds = true)
    (hout : i ∉ s.resumptions)
    (hstarted : ∀ t, q.startedAt = some t → ∃ a, q.reservedAt = some a ∧ a ≤ t)
    (hsame : q.waited = r.waited ∧ q.settlements = r.settlements) :
    Balanced (release s i q) := by
  have hover : Core 1 (Auth.setRequest s i { q with stage := .ended }) :=
    h.over hr hout (Stage.ne_queued_of_holds hholds) (by simp [hholds]) hstarted hsame rfl
  have hgiven := Core.handOver s.queue
    { Auth.setRequest s i { q with stage := .ended } with active := s.active - 1 } hover.pay
  unfold Auth.release
  dsimp only
  split
  · rename_i hidle
    refine ⟨{ hgiven.toCore with pace := fun hbusy => ?_ }, hgiven.full⟩
    rw [isIdle_eq_false] at hbusy
    exact absurd hbusy (by simp [hidle])
  · exact hgiven

/-! ## Operations -/

theorem Balanced.setRequest (h : Balanced s) (hr : s.requests[i]? = some r)
    (hsound : q.Sound s.now) (hwaited : q.waited = r.waited) (hholds : r.stage.holds = true)
    (hholds' : q.stage.holds = true) (hout : i ∉ s.resumptions) :
    Balanced (Auth.setRequest s i q) :=
  ⟨h.toCore.setRequest hr hsound hwaited (by simp [hholds, hholds'])
    (by simp [Stage.ne_queued_of_holds hholds, Stage.ne_queued_of_holds hholds'])
    fun hmem => absurd hmem hout, h.full⟩

theorem Balanced.recordTransientFailure (h : Balanced s) : Balanced (recordTransientFailure s) := by
  unfold Auth.recordTransientFailure
  dsimp only
  split <;> exact ⟨{ h.toCore with }, h.full⟩

theorem Balanced.recordOutcome (h : Balanced s) (r : RefreshRequest) (outcome : Outcome) :
    Balanced (recordOutcome s r outcome) := by
  unfold Auth.recordOutcome
  split
  · split
    · exact h.recordTransientFailure
    · exact ⟨{ h.toCore with }, h.full⟩
  · split
    · exact h
    · exact h.recordTransientFailure

/-- An operation starts, not before the time that was reserved for it. -/
theorem Balanced.runOperation (h : Balanced s) (hr : s.requests[i]? = some r)
    (hholds : r.stage.holds = true) (hout : i ∉ s.resumptions)
    (hsame : q.waited = r.waited ∧ q.settlements = r.settlements)
    (hreserved : ∃ a, q.reservedAt = some a ∧ a ≤ s.now)
    (hstarted : ∀ t, q.startedAt = some t → ∃ a, q.reservedAt = some a ∧ a ≤ t) (throws : Bool) :
    Balanced (runOperation s i q throws) := by
  have hnow : ∀ t, some s.now = some t → ∃ a, q.reservedAt = some a ∧ a ≤ t := by
    rintro t ht
    exact Option.some.inj ht ▸ hreserved
  unfold Auth.runOperation
  split
  · exact h.release hr hholds hout hstarted hsame
  dsimp only
  split
  · have hfailed := h.recordTransientFailure
    have hrequests : (Auth.recordTransientFailure s).requests = s.requests := by
      unfold Auth.recordTransientFailure
      dsimp only
      split <;> rfl
    have hresumptions : (Auth.recordTransientFailure s).resumptions = s.resumptions := by
      unfold Auth.recordTransientFailure
      dsimp only
      split <;> rfl
    exact hfailed.release (q := { q with startedAt := some s.now }) (hrequests ▸ hr) hholds
      (hresumptions ▸ hout) hnow hsame
  · have hsettlements := (h.mem_requests hr).settlements
    have hleft : (r.stage != .queued) = true := bne_iff_ne.mpr (Stage.ne_queued_of_holds hholds)
    refine h.setRequest hr ⟨?_, by simp, by simp, by simp, hnow, by simp⟩ hsame.1 hholds rfl hout
    simp only [hsame.1, hsame.2, hsettlements, hleft]
    rfl

/-- A request that has its slot reserves the time of its admission. -/
theorem Balanced.letIn (h : Balanced s) (hr : s.requests[i]? = some r) (hstage : r.stage = .granted)
    (hout : i ∉ s.resumptions)
    (horder : ((s.reservations.map Reservation.request ++ [i] ++ s.resumptions).filter
      (hasWaited s) ++ s.queue).Pairwise (· < ·)) (throws : Bool) :
    Balanced (letIn s i r throws) := by
  have hholds : r.stage.holds = true := by rw [hstage]; rfl
  have hsound := h.mem_requests hr
  have hbusy : s.isIdle = false := by
    have hone := toNat_le_countP (fun r : RefreshRequest => r.stage.holds) hr
    have hactive := h.active
    simp only [hholds, Bool.toNat_true] at hone
    exact isIdle_eq_false.mpr (.inl (by omega))
  have hpace := h.pace hbusy
  unfold Auth.letIn
  split
  · exact h.release hr hholds hout hsound.started ⟨rfl, rfl⟩
  dsimp only
  have hreserved : Balanced
      { s with
        nextAdmissionAt := max s.now (max s.nextAdmissionAt s.deferUntil) + minAdmissionIntervalMs
        reservations := s.reservations ++
          [⟨i, max s.now (max s.nextAdmissionAt s.deferUntil), s.deferUntil, s.period⟩] } := by
    refine ⟨{ h.toCore with order := ?_, reserved := ?_, spaced := ?_, pace := ?_ }, h.full⟩
    · change (((s.reservations ++ [_]).map Reservation.request ++ s.resumptions).filter
        (hasWaited s) ++ s.queue).Pairwise (· < ·)
      rw [List.map_append]
      exact horder
    · intro e he
      rcases List.mem_append.mp he with he | he
      · exact h.reserved e he
      · obtain rfl := List.mem_singleton.mp he
        refine ⟨(List.getElem?_eq_some_iff.mp hr).1, Nat.le_refl _, ?_⟩
        simp only
        omega
    · refine List.pairwise_append.mpr ⟨h.spaced, List.pairwise_singleton _ _, fun e he e' he' => ?_⟩
      obtain rfl := List.mem_singleton.mp he'
      intro hperiod
      have hspace := hpace e he hperiod
      simp only
      omega
    · intro _ e he hperiod
      rcases List.mem_append.mp he with he | he
      · have hspace := hpace e he hperiod
        simp only [minAdmissionIntervalMs] at hspace ⊢
        omega
      · obtain rfl := List.mem_singleton.mp he
        exact Int.le_refl _
  have hstarted : ∀ t, r.startedAt = some t → ∃ a,
      some (max s.now (max s.nextAdmissionAt s.deferUntil)) = some a ∧ a ≤ t := by
    simp [hsound.fresh (.inr hstage)]
  split
  · refine hreserved.setRequest hr ⟨?_, by simp, ?_, by simp, hstarted, by simp⟩ rfl hholds rfl hout
    · have hsettlements := hsound.settlements
      rw [hstage] at hsettlements
      exact hsettlements
    · intro t ht
      exact congrArg some (Stage.delaying.inj ht)
  · rename_i hdue
    exact hreserved.runOperation
      (q := { r with reservedAt := some (max s.now (max s.nextAdmissionAt s.deferUntil)) }) hr hholds
      hout ⟨rfl, rfl⟩ ⟨_, rfl, Int.not_lt.mp hdue⟩ hstarted throws

/-! ## Steps -/

/-- The order of the turns does not change when a continuation runs and its request is admitted. -/
theorem Balanced.resume (h : Balanced s) (throws : Bool) : Balanced (resume s throws) := by
  unfold Auth.resume
  cases hresumptions : s.resumptions with
  | nil => exact h
  | cons i resumptions =>
    obtain ⟨r, hr, hstage⟩ := h.resumptions i (by simp [hresumptions])
    simp only [hr]
    have hnodup := h.distinct
    rw [hresumptions, List.nodup_cons] at hnodup
    have horder := h.order
    rw [turns, hresumptions] at horder
    have hpopped : Balanced { s with resumptions := resumptions } := by
      refine ⟨{ h.toCore with resumptions := ?_, distinct := hnodup.2, order := ?_ }, h.full⟩
      · exact fun j hj => h.resumptions j (by simp [hresumptions, hj])
      · refine horder.sublist (List.Sublist.append_right (List.Sublist.filter _ ?_) _)
        exact List.Sublist.append_left (List.sublist_cons_self i resumptions) _
    refine hpopped.letIn hr hstage hnodup.1 ?_ throws
    rw [List.append_assoc]
    exact horder

/-- A new request does not change the turns of those that are there. -/
theorem Core.turns_concat (h : Core owed s) (hrequests : s'.requests = s.requests ++ [r])
    (hreservations : s'.reservations = s.reservations)
    (hresumptions : s'.resumptions = s.resumptions) : turns s' = turns s := by
  rw [turns, turns, hreservations, hresumptions]
  refine List.filter_congr fun i hi => ?_
  have hlt : i < s.requests.length := by
    rcases List.mem_append.mp hi with hi | hi
    · obtain ⟨e, he, rfl⟩ := List.mem_map.mp hi
      exact (h.reserved e he).1
    · obtain ⟨x, hx, -⟩ := h.resumptions i hi
      exact (List.getElem?_eq_some_iff.mp hx).1
  simp only [hasWaited, hrequests, List.getElem?_append_left hlt]

theorem getElem?_concat_of_some (hx : s.requests[i]? = some x) (r : RefreshRequest) :
    (s.requests ++ [r])[i]? = some x :=
  (List.getElem?_append_left (List.getElem?_eq_some_iff.mp hx).1).trans hx

/-- A request that finds a slot takes it at once. -/
theorem Sound.take (h : Sound s) (hactive : s.active < maxConcurrentRefreshes)
    (hqueue : s.queue = []) :
    Balanced
      { s with
        active := s.active + 1
        requests := s.requests ++ [⟨.granted, false, false, 0, none, none⟩] } := by
  refine ⟨⟨?_, hactive, ?_, ?_, ?_, ?_, h.distinct, ?_, ?_, h.spaced, ?_⟩, by simp [hqueue]⟩
  · have hcount := h.active
    simp [List.countP_append, Stage.holds, hcount]
  · intro x hx
    rcases List.mem_append.mp hx with hx | hx
    · exact h.requests x hx
    · obtain rfl := List.mem_singleton.mp hx
      exact ⟨rfl, by simp, by simp, by simp, by simp, by simp⟩
  · simp [hqueue]
  · intro i x hx hstage
    rcases getElem?_concat_eq_some hx with hx | ⟨-, rfl⟩
    · exact h.queued i x hx hstage
    · contradiction
  · intro i hi
    obtain ⟨x, hx, hstage⟩ := h.resumptions i hi
    exact ⟨x, getElem?_concat_of_some hx _, hstage⟩
  · convert h.order using 2
    exact h.turns_concat rfl rfl rfl
  · intro e he
    obtain ⟨hlt, hrest⟩ := h.reserved e he
    exact ⟨by simp only [List.length_append]; omega, hrest⟩
  · intro _ e he hperiod
    cases hidle : s.isIdle with
    | true =>
      have hold := h.idle hidle e he
      simp only at hperiod
      omega
    | false => exact h.pace hidle e he hperiod

/-- The continuation of `acquire` will run for a request that has its slot. -/
theorem Balanced.schedule (h : Balanced s) (hr : s.requests[i]? = some r)
    (hstage : r.stage = .granted) (hwaited : r.waited = false) (hout : i ∉ s.resumptions) :
    Balanced { s with resumptions := s.resumptions ++ [i] } := by
  refine ⟨{ h.toCore with resumptions := ?_, distinct := ?_, order := ?_ }, h.full⟩
  · intro j hj
    rcases List.mem_append.mp hj with hj | hj
    · exact h.resumptions j hj
    · obtain rfl := List.mem_singleton.mp hj
      exact ⟨r, hr, hstage⟩
  · exact List.nodup_append.mpr ⟨h.distinct, by simp, by
      rintro a ha b hb rfl
      exact hout (List.mem_singleton.mp hb ▸ ha)⟩
  · have hnot : hasWaited s i = false := by simp [hasWaited, hr, hwaited]
    have hturns : turns { s with resumptions := s.resumptions ++ [i] } = turns s := by
      change (_ ++ (s.resumptions ++ [i])).filter (hasWaited s) = _
      simp [← List.append_assoc, hnot, turns]
    rw [hturns]
    exact h.order

/-- A request that finds no slot waits. -/
theorem Sound.wait (h : Sound s) (hfull : ¬ (s.active < maxConcurrentRefreshes ∧ s.queue = [])) :
    Balanced
      { s with
        requests := s.requests ++ [⟨.queued, false, true, 0, none, none⟩]
        queue := s.queue ++ [s.requests.length] } := by
  have hactive : s.active = maxConcurrentRefreshes := by
    by_cases hqueue : s.queue = []
    · have hbounded := h.bounded
      have hnot : ¬ s.active < maxConcurrentRefreshes := fun hlt => hfull ⟨hlt, hqueue⟩
      omega
    · exact h.full hqueue
  have hbusy : s.isIdle = false := isIdle_eq_false.mpr (.inl (by simp [hactive,
    maxConcurrentRefreshes]))
  refine ⟨⟨?_, h.bounded, ?_, ?_, ?_, ?_, h.distinct, ?_, ?_, h.spaced, fun _ => h.pace hbusy⟩,
    fun _ => hactive⟩
  · have hcount := h.active
    simp [List.countP_append, Stage.holds, hcount]
  · intro x hx
    rcases List.mem_append.mp hx with hx | hx
    · exact h.requests x hx
    · obtain rfl := List.mem_singleton.mp hx
      exact ⟨rfl, by simp, by simp, by simp, by simp, by simp⟩
  · intro i hi
    rcases List.mem_append.mp hi with hi | hi
    · obtain ⟨x, hx, hstage⟩ := h.queue i hi
      exact ⟨x, getElem?_concat_of_some hx _, hstage⟩
    · obtain rfl := List.mem_singleton.mp hi
      exact ⟨_, List.getElem?_concat_length, rfl⟩
  · intro i x hx hstage
    rcases getElem?_concat_eq_some hx with hx | ⟨rfl, -⟩
    · exact List.mem_append_left _ (h.queued i x hx hstage)
    · simp
  · intro i hi
    obtain ⟨x, hx, hstage⟩ := h.resumptions i hi
    exact ⟨x, getElem?_concat_of_some hx _, hstage⟩
  · have hlast : (turns s ++ s.queue ++ [s.requests.length]).Pairwise (· < ·) := by
      refine List.pairwise_append.mpr ⟨h.order, List.pairwise_singleton _ _, fun i hi j hj => ?_⟩
      obtain rfl := List.mem_singleton.mp hj
      rcases List.mem_append.mp hi with hi | hi
      · rcases List.mem_append.mp (List.mem_of_mem_filter hi) with hi | hi
        · obtain ⟨e, he, rfl⟩ := List.mem_map.mp hi
          exact (h.reserved e he).1
        · obtain ⟨x, hx, -⟩ := h.resumptions i hi
          exact (List.getElem?_eq_some_iff.mp hx).1
      · obtain ⟨x, hx, -⟩ := h.queue i hi
        exact (List.getElem?_eq_some_iff.mp hx).1
    rw [List.append_assoc] at hlast
    convert hlast using 2
    exact h.turns_concat rfl rfl rfl
  · intro e he
    obtain ⟨hlt, hrest⟩ := h.reserved e he
    exact ⟨by simp only [List.length_append]; omega, hrest⟩

theorem Balanced.elapse (h : Balanced s) (ms : Nat) : Balanced { s with now := s.now + ms } :=
  ⟨{ h.toCore with requests := fun r hr => (h.requests r hr).mono (by simp only; omega) }, h.full⟩

theorem Sound.request (h : Sound s) (aborted throws : Bool) (elapsed : Nat) :
    Balanced (runOAuthRefreshRequest s aborted throws elapsed) := by
  have hnew : ∀ r : RefreshRequest, (s.requests ++ [r])[s.requests.length]? = some r := fun _ =>
    List.getElem?_concat_length
  have hout : s.requests.length ∉ s.resumptions := by
    intro hmem
    obtain ⟨x, hx, -⟩ := h.resumptions _ hmem
    exact absurd (List.getElem?_eq_some_iff.mp hx).1 (Nat.lt_irrefl _)
  unfold Auth.runOAuthRefreshRequest
  split
  · exact h.toBalanced
  split
  · rename_i hfast
    have htaken := (h.take hfast.1 hfast.2.1).elapse elapsed
    refine htaken.letIn (hnew _) rfl hout ?_ throws
    have hnot : hasWaited
        { s with
          active := s.active + 1
          requests := s.requests ++ [⟨.granted, false, false, 0, none, none⟩]
          now := s.now + elapsed } s.requests.length = false := by
      simp [hasWaited]
    have horder := htaken.order
    simp only [turns] at horder
    simpa [hnot] using horder
  · unfold Auth.acquire
    split
    · rename_i hslot
      exact (h.take hslot.1 hslot.2).schedule (hnew _) rfl rfl hout
    · rename_i hfull
      exact h.wait hfull

theorem setRequest_recordTransientFailure (s : ProviderGateState) (i : Nat) (q : RefreshRequest) :
    setRequest (recordTransientFailure s) i q = recordTransientFailure (setRequest s i q) := by
  by_cases hfew : s.transientFailures + 1 < 3 <;> simp [recordTransientFailure, setRequest, hfew]

theorem setRequest_recordOutcome (s : ProviderGateState) (r : RefreshRequest) (outcome : Outcome)
    (i : Nat) (q : RefreshRequest) :
    setRequest (recordOutcome s r outcome) i q = recordOutcome (setRequest s i q) r outcome := by
  unfold recordOutcome
  cases outcome with
  | response status =>
    dsimp only
    split
    · exact setRequest_recordTransientFailure s i q
    · rfl
  | error =>
    dsimp only
    split
    · rfl
    · exact setRequest_recordTransientFailure s i q

theorem Balanced.wake (h : Balanced s) (hr : s.requests[i]? = some r) : Balanced (wake s i r) := by
  have hsound := h.mem_requests hr
  unfold Auth.wake
  split
  · rename_i admissionAt hstage
    split
    · rename_i hdue
      have hout := h.not_mem_resumptions hr (by simp [hstage])
      have hsettlements := hsound.settlements
      rw [hstage] at hsettlements
      exact h.setRequest hr ⟨hsettlements, by simp, by simp,
        fun _ => ⟨admissionAt, hsound.delaying _ hstage, hdue⟩, hsound.started, by simp⟩ rfl
        (by rw [hstage]; rfl) rfl hout
    · exact h
  · exact h

theorem Balanced.abort (h : Balanced s) (hr : s.requests[i]? = some r) : Balanced (abort s i r) := by
  have hsound := h.mem_requests hr
  have hmarked : Balanced (Auth.setRequest s i { r with aborted := true }) := by
    refine ⟨h.toCore.setRequest hr ?_ rfl rfl Iff.rfl fun hmem => ?_, h.full⟩
    · exact ⟨hsound.settlements, hsound.queued, hsound.delaying, hsound.woken, hsound.started,
        hsound.fresh⟩
    · obtain ⟨x, hx, hstage⟩ := h.resumptions i hmem
      obtain rfl := Option.some.inj (hr.symm.trans hx)
      exact hstage
  unfold Auth.abort
  split
  · exact h
  cases hstage : r.stage with
  | queued =>
    refine ⟨h.toCore.reject (h.queued i r hr hstage) hr ⟨rfl, rfl, rfl⟩ rfl rfl, fun hne => ?_⟩
    refine h.full fun hempty => hne ?_
    simp [hempty]
  | delaying admissionAt =>
    have hsettlements := hsound.settlements
    rw [hstage] at hsettlements
    exact h.setRequest hr ⟨hsettlements, by simp, by simp, by simp, hsound.started, by simp⟩ rfl
      (by rw [hstage]; rfl) rfl (h.not_mem_resumptions hr (by simp [hstage]))
  | granted | woken | operating | settled | ended =>
    rw [hstage] at hmarked
    exact hmarked

theorem Sound.apply (h : Sound s) (event : Event) : Balanced (apply s event) := by
  have hwith : ∀ (i : Nat) (f : RefreshRequest → ProviderGateState),
      (∀ r, s.requests[i]? = some r → Balanced (f r)) → Balanced (withRequest s i f) := by
    intro i f hf
    unfold withRequest
    split
    · exact hf _ ‹_›
    · exact h.toBalanced
  cases event with
  | request aborted throws elapsed => exact h.request aborted throws elapsed
  | resume throws => exact h.toBalanced.resume throws
  | timer i => exact hwith i _ fun r hr => h.toBalanced.wake hr
  | proceed i throws =>
    refine hwith i _ fun r hr => ?_
    split
    · rename_i hstage
      have hsound := h.mem_requests hr
      exact h.runOperation hr (by rw [hstage]; rfl) (h.not_mem_resumptions hr (by simp [hstage]))
        ⟨rfl, rfl⟩ (hsound.woken hstage) hsound.started throws
    · exact h.toBalanced
  | settle i outcome =>
    refine hwith i _ fun r hr => ?_
    split
    · rename_i hstage
      have hsound := h.mem_requests hr
      have hsettlements := hsound.settlements
      rw [hstage] at hsettlements
      rw [setRequest_recordOutcome]
      refine Balanced.recordOutcome ?_ r outcome
      exact h.toBalanced.setRequest hr
        ⟨hsettlements, by simp, by simp, by simp, hsound.started, by simp⟩ rfl (by rw [hstage]; rfl)
        rfl (h.not_mem_resumptions hr (by simp [hstage]))
    · exact h.toBalanced
  | finish i =>
    refine hwith i _ fun r hr => ?_
    split
    · rename_i hstage
      exact h.release hr (by rw [hstage]; rfl) (h.not_mem_resumptions hr (by simp [hstage]))
        (h.mem_requests hr).started ⟨rfl, rfl⟩
    · exact h.toBalanced
  | abort i => exact hwith i _ fun r hr => h.toBalanced.abort hr
  | elapse ms => exact h.toBalanced.elapse ms

/-- A busy period ends when the gate is idle, so that the pace has to be kept for nobody. -/
theorem Sound.step (h : Sound s) (event : Event) : Sound (step s event) := by
  have hnext := h.apply event
  unfold Auth.step
  dsimp only
  split
  · rename_i hidle
    refine ⟨⟨{ hnext.toCore with reserved := ?_, pace := ?_ }, hnext.full⟩, ?_⟩
    · intro e he
      obtain ⟨hlt, hperiod, hdefer⟩ := hnext.reserved e he
      exact ⟨hlt, Nat.le_succ_of_le hperiod, hdefer⟩
    · intro hbusy
      exact absurd hidle (by simp [show (Auth.apply s event).isIdle = false from hbusy])
    · intro _ e he
      exact Nat.lt_succ_of_le (hnext.reserved e he).2.1
  · rename_i hbusy
    exact ⟨hnext, fun hidle => absurd hidle hbusy⟩

theorem sound_initial (now : Int) : Sound (.initial now) := by
  refine ⟨⟨⟨rfl, ?_, ?_, ?_, ?_, ?_, ?_, ?_, ?_, ?_, ?_⟩, ?_⟩, ?_⟩ <;>
    simp [ProviderGateState.initial, turns]

/-! ## The gate over a run -/

/-- What the gate promises: requests are numbered as they came, and two reservations of one period
have no idle gate between them. -/
structure Fair (s : ProviderGateState) : Prop where
  active : s.active = s.requests.countP fun r => r.stage.holds
  bounded : s.active ≤ 2
  /-- Waiters that have been admitted, those whose turn has come, and those in the queue. -/
  order : ((s.reservations.map Reservation.request ++ s.resumptions).filter (hasWaited s) ++
    s.queue).Pairwise (· < ·)
  settlements : ∀ r ∈ s.requests, r.waited = true →
    r.settlements = if r.stage = .queued then 0 else 1
  slots : s.active < 2 → s.queue = []
  spaced : s.reservations.Pairwise fun e e' =>
    e.period = e'.period → e.admissionAt + 100 ≤ e'.admissionAt
  deferred : ∀ e ∈ s.reservations, e.deferUntil ≤ e.admissionAt
  started : ∀ r ∈ s.requests, ∀ t, r.startedAt = some t → ∃ a, r.reservedAt = some a ∧ a ≤ t

theorem Sound.fair (h : Sound s) : Fair s where
  active := h.active
  bounded := h.bounded
  order := h.order
  settlements := by
    intro r hr hwaited
    rw [(h.requests r hr).settlements, hwaited]
    by_cases hqueued : r.stage = .queued <;> simp [hqueued]
  slots := by
    intro hactive
    by_contra hne
    have hfull := h.full hne
    simp only [maxConcurrentRefreshes] at hfull
    omega
  spaced := h.spaced
  deferred := fun e he => (h.reserved e he).2.2
  started := fun r hr => (h.requests r hr).started

/-- In every run of requests, aborts, outcomes and the clock. -/
theorem fair_run (now : Int) (events : List Event) : Fair (run step (.initial now) events) :=
  (invariant_run Sound (fun _ event h => h.step event) (sound_initial now) events).fair

/-- Three requests come at once: the third one waits, and it starts 100 ms after the second. -/
example :
    let s := run step (.initial 1000)
      [.request false false 0, .request false false 0, .request false false 0, .resume false,
        .elapse 100, .timer 1, .proceed 1 false, .settle 0 (.response 200), .finish 0, .resume false,
        .elapse 100, .timer 2, .proceed 2 false]
    s.requests.map (·.startedAt) = [some 1000, some 1100, some 1200] ∧ s.active = 2 := by
  decide +kernel

end StonePlus.Auth
