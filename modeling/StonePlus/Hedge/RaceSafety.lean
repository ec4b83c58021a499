import StonePlus.Hedge.Race

/-!
# StonePlus.Hedge.RaceSafety

What holds of a hedged request after any events, in any order: the starts and the permit, what may
be returned, what becomes of the losing lane, and what the returned body yields.

A lane that has settled stays as it is until its body is cancelled, so that what the function has
seen of it when it went on still holds.
-/

namespace StonePlus.Hedge

open Lib

/-! ## Lanes -/

theorem Lane.outcome?_eq_some {lane : Lane} :
    lane.outcome? = some outcome ↔ lane.stage = .settled outcome := by
  unfold Lane.outcome?
  cases lane.stage <;> simp

/-- The body of a response yields the upstream body it was made from. -/
def TimedFetchResponse.Exact (result : TimedFetchResponse) : Prop :=
  match result.upstream, result.body with
  | none, none => True
  | some u, some body => Yields body u
  | _, _ => False

/-- What the stage of a lane says about its response and its body. -/
def Lane.Ok (lane : Lane) : Prop :=
  match lane.stage with
  | .idle => lane.body = .none
  | .fetching => lane.body = .none
  | .reading _ => True
  | .settled .error => lane.body ≠ .opened
  | .settled (.result result) => result.Exact ∧ (lane.body = .opened → result.body.isSome = true)

/-- What an event on a lane leaves as it is. -/
structure Lane.Le (lane later : Lane) : Prop where
  idle : later.stage = .idle ↔ lane.stage = .idle
  aborted : later.aborted = lane.aborted
  settled : ∀ outcome, lane.outcome? = some outcome → later = lane

theorem Lane.Le.refl (lane : Lane) : lane.Le lane := ⟨.rfl, rfl, fun _ _ => rfl⟩

theorem Lane.onHeaders_spec (hedged ok : Bool) (upstream : Option Upstream) (lane : Lane) :
    lane.Le (lane.onHeaders hedged ok upstream) ∧
      (lane.Ok → (lane.onHeaders hedged ok upstream).Ok) := by
  unfold onHeaders
  split
  · rename_i hstage
    have hopen : ∀ l' : Lane, l'.stage ≠ .idle → l'.aborted = lane.aborted → lane.Le l' :=
      fun l' hstarted haborted => ⟨by simp [hstarted, hstage], haborted, fun o ho => by
        simp [outcome?, hstage] at ho⟩
    dsimp only
    split
    · refine ⟨hopen _ (by simp [settle]) rfl, fun _ => ?_⟩
      cases upstream with
      | none => simp [Ok, settle, TimedFetchResponse.Exact]
      | some u => simp [Ok, settle, TimedFetchResponse.Exact, yields_body]
    · split
      · exact ⟨hopen _ (by simp [settle]) rfl, fun _ => by simp [Ok, settle]⟩
      · exact ⟨hopen _ (by simp) rfl, fun _ => trivial⟩
  · exact ⟨.refl lane, id⟩

theorem Lane.onFetchFailed_spec (lane : Lane) :
    lane.Le lane.onFetchFailed ∧ (lane.Ok → lane.onFetchFailed.Ok) := by
  unfold onFetchFailed
  split
  · rename_i hstage
    refine ⟨⟨by simp [settle, hstage], rfl, fun o ho => by simp [outcome?, hstage] at ho⟩, ?_⟩
    intro h
    unfold Ok at h ⊢
    simp_all [settle]
  · exact ⟨.refl lane, id⟩

theorem Lane.onPrefetched_spec {σ : Type} (reading : Reading σ) (lane : Lane) :
    lane.Le (lane.onPrefetched reading) ∧ (lane.Ok → (lane.onPrefetched reading).Ok) := by
  unfold onPrefetched
  split
  · rename_i u hstage
    have hle : ∀ l' : Lane, l'.stage ≠ .idle → l'.aborted = lane.aborted → lane.Le l' :=
      fun l' hstarted haborted => ⟨by simp [hstarted, hstage], haborted, fun o ho => by
        simp [outcome?, hstage] at ho⟩
    split
    · rename_i body err hok
      refine ⟨hle _ (by simp [settle]) rfl, fun _ => ?_⟩
      simp [Ok, settle, TimedFetchResponse.Exact, yields_of_prefetched hok]
    · exact ⟨hle _ (by simp [settle]) rfl, fun _ => by simp [Ok, settle]⟩
    · exact ⟨hle _ (by simp [settle]) rfl, fun _ => by simp [Ok, settle]⟩
  · exact ⟨.refl lane, id⟩

theorem Lane.onPrefetchFailed_spec (lane : Lane) :
    lane.Le lane.onPrefetchFailed ∧ (lane.Ok → lane.onPrefetchFailed.Ok) := by
  unfold onPrefetchFailed
  split
  · rename_i u hstage
    exact ⟨⟨by simp [settle, hstage], rfl, fun o ho => by simp [outcome?, hstage] at ho⟩,
      fun _ => by simp [Ok, settle]⟩
  · exact ⟨.refl lane, id⟩

theorem Lane.Le.outcome {lane : Lane} (h : lane.Le later) {outcome : Outcome}
    (ho : lane.outcome? = some outcome) : later.outcome? = some outcome := by
  rw [h.settled outcome ho, ho]

@[simp] theorem Source.other_other (source : Source) : source.other.other = source := by
  cases source <;> rfl

def Outcome.healthy : Outcome → Bool
  | .result response => healthyHedgeResult response
  | .error => false

namespace Race

variable {s s' : Race}

@[simp] theorem lane_setLane (source x : Source) (l : Lane) :
    (s.setLane source l).lane x = if x = source then l else s.lane x := by
  cases source <;> cases x <;> rfl

/-! ## The invariant -/

/-- What is returned is healthy; or the other lane was not sent, failed or unhealthy, or had no
successful headers when the grace window was over. -/
def Justified (outcome : Outcome) (other : Lane) (graceOver : Bool) : Prop :=
  outcome.healthy = true ∨ other.stage = .idle ∨
    (∃ o, other.outcome? = some o ∧ o.healthy = false) ∨
    (other.successfulHeaders = false ∧ graceOver = true)

/-- Both lanes have been sent, and nothing has been decided. -/
def Racing (s : Race) : Prop :=
  s.secondary.stage ≠ .idle ∧ (s.permit = .none ∨ s.permit = .held) ∧ s.cleanup = .none

/-- A lane that has lost and has settled. -/
def Lost (s : Race) (source loser : Source) : Prop :=
  loser = source.other ∧ s.secondary.stage ≠ .idle ∧ (s.lane loser).aborted = true

/-- What is left behind when the function has returned. -/
def Left (s : Race) (source : Source) (outcome : Outcome) : Prop :=
  match s.cleanup with
  | .none =>
    (s.secondary.stage = .idle ∧ s.permit = .none) ∨
      (outcome = .error ∧ (s.lane source.other).outcome? = some .error ∧
        (s.permit = .none ∨ s.permit = .released))
  | .waiting loser => s.Lost source loser ∧ (s.permit = .none ∨ s.permit = .afterLoser)
  | .cancelling loser =>
    s.Lost source loser ∧ (∃ o, (s.lane loser).outcome? = some o) ∧
      (s.lane loser).body = .cancelled ∧ (s.permit = .none ∨ s.permit = .afterLoser)
  | .finished loser =>
    s.Lost source loser ∧ (∃ o, (s.lane loser).outcome? = some o) ∧
      (s.lane loser).body ≠ .opened ∧ (s.permit = .none ∨ s.permit = .released)

def PointOk (s : Race) : Prop :=
  match s.point with
  | .single | .delaying | .following =>
    s.secondary.stage = .idle ∧ s.permit = .none ∧ s.cleanup = .none
  | .racing => s.Racing
  | .awaiting failed => s.Racing ∧ (s.lane failed).outcome? = some .error
  | .grace winner result | .confirming winner result =>
    s.Racing ∧ (s.lane winner).outcome? = some (.result result)
  | .returned source outcome other graceOver =>
    Justified outcome other graceOver ∧ (s.lane source).outcome? = some outcome ∧
      s.Left source outcome

structure Inv (options : Options) (s : Race) : Prop where
  primary : s.primary.stage ≠ .idle
  ok : ∀ source, (s.lane source).Ok
  starts : s.starts = if s.secondary.stage = .idle then 1 else 2
  acquires : s.acquires = if s.permit = .none then 0 else 1
  releases : s.releases = if s.permit = .released then 1 else 0
  slots : options.slots = true → s.secondary.stage ≠ .idle → s.permit ≠ .none
  point : s.PointOk

theorem inv_new (options : Options) : Inv options (new options) where
  primary := by simp [new, Lane.started]
  ok source := by cases source <;> rfl
  starts := rfl
  acquires := rfl
  releases := rfl
  slots _ h := absurd rfl h
  point := by cases h : options.hedged <;> simp [PointOk, new, h, Lane.idle]

/-! ## Events on the lanes -/

theorem PointOk.mono (h : s.PointOk) (hpoint : s'.point = s.point) (hpermit : s'.permit = s.permit)
    (hcleanup : s'.cleanup = s.cleanup) (hle : ∀ x, (s.lane x).Le (s'.lane x)) : s'.PointOk := by
  have hidle : s'.secondary.stage = .idle ↔ s.secondary.stage = .idle := (hle .secondary).idle
  have hstarted : s'.secondary.stage ≠ .idle ↔ s.secondary.stage ≠ .idle := not_congr hidle
  have hracing : s.Racing → s'.Racing := by
    unfold Racing
    rw [hpermit, hcleanup, hstarted]
    exact id
  have hlost : ∀ source loser, s.Lost source loser → s'.Lost source loser := by
    intro source loser
    unfold Lost
    rw [(hle loser).aborted, hstarted]
    exact id
  have hsame : ∀ x, (∃ o, (s.lane x).outcome? = some o) → s'.lane x = s.lane x :=
    fun x ⟨o, ho⟩ => (hle x).settled o ho
  unfold PointOk at h ⊢
  rw [hpoint]
  split at h
  · rwa [hpermit, hcleanup, hidle]
  · rwa [hpermit, hcleanup, hidle]
  · rwa [hpermit, hcleanup, hidle]
  · exact hracing h
  · exact ⟨hracing h.1, (hle _).outcome h.2⟩
  · exact ⟨hracing h.1, (hle _).outcome h.2⟩
  · exact ⟨hracing h.1, (hle _).outcome h.2⟩
  · obtain ⟨hjust, hsource, hleft⟩ := h
    refine ⟨hjust, (hle _).outcome hsource, ?_⟩
    unfold Left at hleft ⊢
    rw [hcleanup]
    split at hleft
    · rw [hpermit, hidle]
      exact hleft.imp_right fun ⟨ho, hother, hp⟩ => ⟨ho, (hle _).outcome hother, hp⟩
    · rw [hpermit]
      exact ⟨hlost _ _ hleft.1, hleft.2⟩
    · rw [hpermit, hsame _ hleft.2.1]
      exact ⟨hlost _ _ hleft.1, hleft.2⟩
    · rw [hpermit, hsame _ hleft.2.1]
      exact ⟨hlost _ _ hleft.1, hleft.2⟩

theorem Inv.setLane (h : Inv options s) (source : Source) (hle : (s.lane source).Le l)
    (hok : (s.lane source).Ok → l.Ok) : Inv options (s.setLane source l) := by
  have hlanes : ∀ x, (s.lane x).Le ((s.setLane source l).lane x) := by
    intro x
    rw [lane_setLane]
    split
    · rename_i heq
      rw [heq]
      exact hle
    · exact .refl _
  have hfields : (s.setLane source l).point = s.point ∧ (s.setLane source l).permit = s.permit ∧
      (s.setLane source l).cleanup = s.cleanup ∧ (s.setLane source l).starts = s.starts ∧
      (s.setLane source l).acquires = s.acquires ∧
      (s.setLane source l).releases = s.releases := by
    cases source <;> exact ⟨rfl, rfl, rfl, rfl, rfl, rfl⟩
  obtain ⟨hpoint, hpermit, hcleanup, hstarts, hacquires, hreleases⟩ := hfields
  have hidle : (s.setLane source l).secondary.stage = .idle ↔ s.secondary.stage = .idle :=
    (hlanes .secondary).idle
  constructor
  · exact mt (hlanes .primary).idle.mp h.primary
  · intro x
    rw [lane_setLane]
    split
    · rename_i heq
      exact hok (heq ▸ h.ok x)
    · exact h.ok x
  · rw [hstarts, h.starts]
    exact if_congr hidle.symm rfl rfl
  · rw [hacquires, hpermit, h.acquires]
  · rw [hreleases, hpermit, h.releases]
  · rw [hpermit]
    exact fun hslots hstarted => h.slots hslots (mt hidle.mpr hstarted)
  · exact h.point.mono hpoint hpermit hcleanup hlanes

/-! ## The function -/

variable {options : Options}

/-- What a lane that has settled with a response has is exact. -/
theorem Inv.exact (h : Inv options s) (hresult : (s.lane source).outcome? = some (.result result)) :
    result.Exact := by
  have hok := h.ok source
  unfold Lane.Ok at hok
  rw [Lane.outcome?_eq_some.mp hresult] at hok
  exact hok.1

/-- The function returns while only the first lane has been sent. -/
theorem Inv.leave (h : Inv options s) (hidle : s.secondary.stage = .idle)
    (hpermit : s.permit = .none) (hcleanup : s.cleanup = .none)
    (houtcome : s.primary.outcome? = some outcome) : Inv options (s.leave .primary outcome) := by
  refine ⟨h.primary, h.ok, h.starts, h.acquires, h.releases, h.slots, ?_⟩
  refine ⟨.inr (.inl hidle), houtcome, ?_⟩
  unfold Left
  rw [show (s.leave .primary outcome).cleanup = .none from hcleanup]
  exact .inl ⟨hidle, hpermit⟩

theorem Inv.acquire (h : Inv options s) (hidle : s.secondary.stage = .idle)
    (hpermit : s.permit = .none) (hcleanup : s.cleanup = .none) (granted : Bool) :
    Inv options (s.acquire options granted) := by
  unfold Race.acquire
  split
  · exact ⟨h.primary, h.ok, h.starts, h.acquires, h.releases, h.slots, hidle, hpermit, hcleanup⟩
  · have hacquires := h.acquires
    have hreleases := h.releases
    have hstarts := h.starts
    rw [if_pos hpermit] at hacquires
    rw [if_pos hidle] at hstarts
    rw [if_neg (by rw [hpermit]; decide)] at hreleases
    refine ⟨h.primary, ?_, ?_, ?_, ?_, ?_, ?_⟩
    · intro source
      cases source with
      | primary => exact h.ok .primary
      | secondary => rfl
    · simp [hstarts, Lane.started]
    · cases options.slots <;> simp [hacquires]
    · cases options.slots <;> simp [hreleases]
    · intro hslots _
      simp [hslots]
    · refine ⟨by simp [Lane.started], ?_, hcleanup⟩
      cases options.slots
      · exact .inl rfl
      · exact .inr rfl

theorem lane_finish (winner : Source) (result : TimedFetchResponse) (x : Source) :
    (s.finish winner result).lane x =
      if x = winner.other then { s.lane winner.other with aborted := true } else s.lane x := by
  cases winner <;> cases x <;> rfl

theorem stage_finish (winner : Source) (result : TimedFetchResponse) (x : Source) :
    ((s.finish winner result).lane x).stage = (s.lane x).stage := by
  rw [lane_finish]
  split
  · rename_i h
    rw [h]
  · rfl

theorem finish_fields (winner : Source) (result : TimedFetchResponse) :
    (s.finish winner result).point =
        .returned winner (.result result) (s.lane winner.other) s.graceFired ∧
      (s.finish winner result).permit =
        (if s.permit = .held then .afterLoser else s.permit) ∧
      (s.finish winner result).cleanup = .waiting winner.other ∧
      (s.finish winner result).starts = s.starts ∧
      (s.finish winner result).acquires = s.acquires ∧
      (s.finish winner result).releases = s.releases := by
  cases winner <;> exact ⟨rfl, rfl, rfl, rfl, rfl, rfl⟩

theorem pointOk_of_returned (hpoint : s.point = .returned source outcome other graceOver)
    (hjust : Justified outcome other graceOver)
    (hsource : (s.lane source).outcome? = some outcome) (hleft : s.Left source outcome) :
    s.PointOk := by
  unfold PointOk
  rw [hpoint]
  exact ⟨hjust, hsource, hleft⟩

/-- A race is decided. -/
theorem Inv.finish (h : Inv options s) (hracing : s.Racing)
    (hresult : (s.lane winner).outcome? = some (.result result))
    (hjust : Justified (.result result) (s.lane winner.other) s.graceFired) :
    Inv options (s.finish winner result) := by
  obtain ⟨hstarted, hpermit, -⟩ := hracing
  have hstage := stage_finish (s := s) winner result
  have hsecondary : (s.finish winner result).secondary.stage = s.secondary.stage :=
    hstage .secondary
  have hprimary : (s.finish winner result).primary.stage = s.primary.stage := hstage .primary
  obtain ⟨hpoint, hnew, hcleanup, hstarts, hacquires, hreleases⟩ :=
    @finish_fields s winner result
  have hold := h.acquires
  have hreleased := h.releases
  refine ⟨hprimary ▸ h.primary, fun source => ?_, ?_, ?_, ?_, ?_, ?_⟩
  · have hok := h.ok source
    rw [lane_finish]
    split
    · rename_i heq
      rw [heq] at hok
      exact hok
    · exact hok
  · rw [hstarts, hsecondary, h.starts]
  · rw [hacquires, hnew, hold]
    obtain hp | hp := hpermit <;> simp [hp]
  · rw [hreleases, hnew, hreleased]
    obtain hp | hp := hpermit <;> simp [hp]
  · intro hslots _
    have := h.slots hslots hstarted
    rw [hnew]
    obtain hp | hp := hpermit
    · exact absurd hp this
    · simp [hp]
  · refine pointOk_of_returned hpoint hjust ?_ ?_
    · rw [lane_finish, if_neg (by cases winner <;> decide), hresult]
    · unfold Left
      rw [hcleanup]
      refine ⟨⟨rfl, hsecondary ▸ hstarted, ?_⟩, ?_⟩
      · rw [lane_finish, if_pos rfl]
      · rw [hnew]
        obtain hp | hp := hpermit
        · exact .inl (by simp [hp])
        · exact .inr (by simp [hp])

/-- Both lanes have failed. -/
theorem Inv.fail (h : Inv options s) (hracing : s.Racing)
    (hsource : (s.lane source).outcome? = some .error)
    (hother : (s.lane source.other).outcome? = some .error) : Inv options (s.fail source) := by
  obtain ⟨hstarted, hpermit, hcleanup⟩ := hracing
  have hjust : Justified .error (s.lane source.other) s.graceFired :=
    .inr (.inr (.inl ⟨.error, hother, rfl⟩))
  have hpoint : ∀ s' : Race, s'.point = .returned source .error (s.lane source.other) s.graceFired →
      s'.cleanup = .none → (∀ x, s'.lane x = s.lane x) →
        (s'.permit = .none ∨ s'.permit = .released) → s'.PointOk := by
    intro s' hs' hnone hlanes hp
    refine pointOk_of_returned hs' hjust (by rw [hlanes, hsource]) ?_
    unfold Left
    rw [hnone, hlanes]
    exact .inr ⟨rfl, hother, hp⟩
  unfold Race.fail
  dsimp only
  have hacquires := h.acquires
  have hreleases := h.releases
  have hheld : (s.leave source .error).permit = s.permit := rfl
  obtain hp | hp := hpermit
  · rw [hheld, hp, if_neg (by decide)]
    exact ⟨h.primary, h.ok, h.starts, hacquires, hreleases, h.slots,
      hpoint _ rfl hcleanup (fun x => by cases x <;> rfl) (.inl hp)⟩
  · rw [hheld, hp, if_pos rfl]
    rw [hp] at hacquires hreleases
    refine ⟨h.primary, h.ok, h.starts, hacquires, ?_, fun _ _ => by simp [release],
      hpoint _ rfl hcleanup (fun x => by cases x <;> rfl) (.inr rfl)⟩
    show s.releases + 1 = 1
    rw [hreleases]
    rfl

theorem Inv.unconfirmed (h : Inv options s) (hracing : s.Racing)
    (hresult : (s.lane winner).outcome? = some (.result result))
    (hother : s.graceFired = true ∨
      ∃ o, (s.lane winner.other).outcome? = some o ∧ o.healthy = false) :
    Inv options (s.unconfirmed winner result) := by
  unfold Race.unconfirmed
  split
  · exact ⟨h.primary, h.ok, h.starts, h.acquires, h.releases, h.slots, hracing, hresult⟩
  · rename_i hheaders
    refine h.finish hracing hresult ?_
    obtain hgrace | hunhealthy := hother
    · exact .inr (.inr (.inr ⟨by simpa using hheaders, hgrace⟩))
    · exact .inr (.inr (.inl hunhealthy))

theorem Inv.resume (h : Inv options s) (settled : Option Source) (granted : Bool) :
    Inv options (s.resume options settled granted) := by
  have hpoint := h.point
  unfold PointOk at hpoint
  have halone : s.secondary.stage = .idle ∧ s.permit = .none ∧ s.cleanup = .none →
      ∀ outcome, s.primary.outcome? = some outcome → Inv options (s.leave .primary outcome) := by
    rintro ⟨hidle, hpermit, hcleanup⟩ outcome houtcome
    exact h.leave hidle hpermit hcleanup houtcome
  unfold Race.resume
  split
  · rename_i hs
    rw [hs] at hpoint
    split
    · rename_i houtcome
      exact halone hpoint _ houtcome
    · exact h
  · rename_i hs
    rw [hs] at hpoint
    split
    · rename_i houtcome
      exact halone hpoint _ houtcome
    · exact h
  · rename_i hs
    rw [hs] at hpoint
    obtain ⟨hidle, hpermit, hcleanup⟩ := hpoint
    split
    · rename_i result hresult
      exact h.leave hidle hpermit hcleanup hresult
    · exact h.acquire hidle hpermit hcleanup granted
    · exact h
  · rename_i hs
    rw [hs] at hpoint
    obtain ⟨hidle, hpermit, hcleanup⟩ := hpoint
    split
    · exact h.acquire hidle hpermit hcleanup granted
    · exact h
  · rename_i source hs
    rw [hs] at hpoint
    split
    · rename_i result hresult
      split
      · rename_i hhealthy
        exact h.finish hpoint hresult (.inl hhealthy)
      · exact ⟨h.primary, h.ok, h.starts, h.acquires, h.releases, h.slots, hpoint, hresult⟩
    · rename_i herror
      exact ⟨h.primary, h.ok, h.starts, h.acquires, h.releases, h.slots, hpoint, herror⟩
    · exact h
  · rename_i failed _ hs
    rw [hs] at hpoint
    obtain ⟨hracing, hfailed⟩ := hpoint
    have hback : (s.lane failed.other.other).outcome? = some .error := by
      rw [Source.other_other, hfailed]
    split
    · rename_i result hresult
      exact h.finish hracing hresult (.inr (.inr (.inl ⟨.error, hback, rfl⟩)))
    · rename_i herror
      exact h.fail hracing herror hback
    · exact h
  · rename_i winner result _ hs
    rw [hs] at hpoint
    obtain ⟨hracing, hwinner⟩ := hpoint
    split
    · rename_i other hother
      split
      · rename_i hhealthy
        exact h.finish hracing hother (.inl hhealthy)
      · rename_i hhealthy
        exact h.unconfirmed hracing hwinner (.inr ⟨_, hother, eq_false_of_ne_true hhealthy⟩)
    · rename_i hother
      exact h.unconfirmed hracing hwinner (.inr ⟨_, hother, rfl⟩)
    · exact h
  · rename_i winner result hs
    rw [hs] at hpoint
    obtain ⟨hracing, hwinner⟩ := hpoint
    split
    · rename_i hgrace
      exact h.unconfirmed hracing hwinner (.inl hgrace)
    · exact h
  · rename_i winner result _ hs
    rw [hs] at hpoint
    obtain ⟨hracing, hwinner⟩ := hpoint
    split
    · rename_i other hother
      split
      · rename_i hhealthy
        exact h.finish hracing hother (.inl hhealthy)
      · rename_i hhealthy
        exact h.finish hracing hwinner (.inr (.inr (.inl ⟨_, hother, eq_false_of_ne_true hhealthy⟩)))
    · rename_i hother
      exact h.finish hracing hwinner (.inr (.inr (.inl ⟨_, hother, rfl⟩)))
    · exact h
  · exact h

/-! ## The losing lane -/

/-- There is only something to clean up when the function has returned. -/
theorem PointOk.returned (h : s.PointOk) (hcleanup : s.cleanup ≠ .none) :
    ∃ source outcome other graceOver, s.point = .returned source outcome other graceOver ∧
      Justified outcome other graceOver ∧ (s.lane source).outcome? = some outcome ∧
      s.Left source outcome := by
  unfold PointOk at h
  split at h
  · exact absurd h.2.2 hcleanup
  · exact absurd h.2.2 hcleanup
  · exact absurd h.2.2 hcleanup
  · exact absurd h.2.2 hcleanup
  · exact absurd h.1.2.2 hcleanup
  · exact absurd h.1.2.2 hcleanup
  · exact absurd h.1.2.2 hcleanup
  · rename_i source outcome other graceOver hpoint
    exact ⟨source, outcome, other, graceOver, hpoint, h⟩

/-- The cleanup ends with a lane whose body is not open. -/
theorem Inv.cleaned (h : Inv options s)
    (hcleanup : s.cleanup = .waiting loser ∨ s.cleanup = .cancelling loser)
    (hsettled : ∃ o, (s.lane loser).outcome? = some o) (hbody : (s.lane loser).body ≠ .opened) :
    Inv options (s.cleaned loser) := by
  have hne : s.cleanup ≠ .none := by
    obtain hc | hc := hcleanup <;> simp [hc]
  obtain ⟨source, outcome, other, graceOver, hpoint, hjust, hsource, hleft⟩ :=
    h.point.returned hne
  have hlost : s.Lost source loser ∧ (s.permit = .none ∨ s.permit = .afterLoser) := by
    unfold Left at hleft
    obtain hc | hc := hcleanup
    · rwa [hc] at hleft
    · rw [hc] at hleft
      exact ⟨hleft.1, hleft.2.2.2⟩
  have hpointOk : ∀ s' : Race, s'.point = s.point → s'.cleanup = .finished loser →
      (∀ x, s'.lane x = s.lane x) → (s'.permit = .none ∨ s'.permit = .released) → s'.PointOk := by
    intro s' hs' hfinished hlanes hp
    have hsecondary : s'.secondary = s.secondary := hlanes .secondary
    refine pointOk_of_returned (hs'.trans hpoint) hjust (by rw [hlanes, hsource]) ?_
    unfold Left
    rw [hfinished]
    dsimp only
    rw [Lost, hlanes loser, hsecondary]
    exact ⟨hlost.1, hsettled, hbody, hp⟩
  have hacquires := h.acquires
  have hreleases := h.releases
  unfold Race.cleaned
  dsimp only
  obtain hp | hp := hlost.2
  · have hnot : ¬s.permit = .afterLoser := by rw [hp]; decide
    rw [if_neg hnot]
    exact ⟨h.primary, h.ok, h.starts, hacquires, hreleases, h.slots,
      hpointOk _ rfl rfl (fun x => by cases x <;> rfl) (.inl hp)⟩
  · rw [if_pos hp]
    rw [hp] at hacquires hreleases
    refine ⟨h.primary, h.ok, h.starts, hacquires, ?_, fun _ _ => by simp [release],
      hpointOk _ rfl rfl (fun x => by cases x <;> rfl) (.inr rfl)⟩
    show s.releases + 1 = 1
    rw [hreleases]
    rfl

/-- A settled lane without a body that is open. -/
theorem Inv.body_of_error (h : Inv options s) (hx : (s.lane x).outcome? = some .error) :
    (s.lane x).body ≠ .opened := by
  have hok := h.ok x
  unfold Lane.Ok at hok
  rwa [Lane.outcome?_eq_some.mp hx] at hok

/-- The body of the losing response is cancelled. -/
theorem Inv.cancelBody (h : Inv options s) {loser : Source}
    (hcleanup : s.cleanup = .waiting loser) {result : TimedFetchResponse}
    (hresult : (s.lane loser).outcome? = some (.result result)) :
    Inv options { s.setLane loser { s.lane loser with body := .cancelled } with
      cleanup := .cancelling loser } := by
  obtain ⟨source, outcome, other, graceOver, hpoint, hjust, hsource, hleft⟩ :=
    h.point.returned (by simp [hcleanup])
  unfold Left at hleft
  rw [hcleanup] at hleft
  obtain ⟨⟨hloser, hstarted, haborted⟩, hpermit⟩ := hleft
  generalize hs' : { s.setLane loser { s.lane loser with body := .cancelled } with
    cleanup := .cancelling loser } = s'
  have hfields : s'.point = s.point ∧ s'.permit = s.permit ∧ s'.cleanup = .cancelling loser ∧
      s'.starts = s.starts ∧ s'.acquires = s.acquires ∧ s'.releases = s.releases := by
    subst hs'
    cases loser <;> exact ⟨rfl, rfl, rfl, rfl, rfl, rfl⟩
  obtain ⟨hpoint', hpermit', hcleanup', hstarts, hacquires, hreleases⟩ := hfields
  have hlane : ∀ x, s'.lane x =
      if x = loser then { s.lane loser with body := .cancelled } else s.lane x := by
    subst hs'
    intro x
    cases loser <;> cases x <;> rfl
  have hstage : ∀ x, (s'.lane x).stage = (s.lane x).stage := by
    intro x
    rw [hlane]
    split
    · rename_i heq
      rw [heq]
    · rfl
  have hsecondary : s'.secondary.stage = s.secondary.stage := hstage .secondary
  have hprimary : s'.primary.stage = s.primary.stage := hstage .primary
  refine ⟨hprimary ▸ h.primary, fun x => ?_, ?_, ?_, ?_, ?_, ?_⟩
  · rw [hlane]
    split
    · unfold Lane.Ok
      dsimp only
      rw [Lane.outcome?_eq_some.mp hresult]
      exact ⟨h.exact hresult, fun hopen => (by cases hopen)⟩
    · exact h.ok x
  · rw [hstarts, hsecondary, h.starts]
  · rw [hacquires, hpermit', h.acquires]
  · rw [hreleases, hpermit', h.releases]
  · rw [hpermit', hsecondary]
    exact h.slots
  · have hsame : (s'.lane source).outcome? = some outcome := by
      rw [Lane.outcome?_eq_some] at hsource ⊢
      rw [hstage, hsource]
    refine pointOk_of_returned (hpoint'.trans hpoint) hjust hsame ?_
    unfold Left
    rw [hcleanup']
    dsimp only
    rw [Lost, hlane loser, if_pos rfl, hsecondary, hpermit']
    exact ⟨⟨hloser, hstarted, haborted⟩, ⟨_, hresult⟩, rfl, hpermit⟩

theorem Inv.onLoserSettled (h : Inv options s) : Inv options s.onLoserSettled := by
  unfold Race.onLoserSettled
  split
  · rename_i loser hcleanup
    split
    · rename_i result hresult
      split
      · exact h.cancelBody hcleanup hresult
      · rename_i hbody
        refine h.cleaned (.inl hcleanup) ⟨_, hresult⟩ fun hopen => hbody ?_
        have hok := h.ok loser
        unfold Lane.Ok at hok
        rw [Lane.outcome?_eq_some.mp hresult] at hok
        exact hok.2 hopen
    · rename_i herror
      exact h.cleaned (.inl hcleanup) ⟨_, herror⟩ (h.body_of_error herror)
    · exact h
  · exact h

theorem Inv.onCancelSettled (h : Inv options s) : Inv options s.onCancelSettled := by
  unfold Race.onCancelSettled
  split
  · rename_i loser hcleanup
    obtain ⟨source, outcome, other, graceOver, -, -, -, hleft⟩ := h.point.returned (by simp [hcleanup])
    unfold Left at hleft
    rw [hcleanup] at hleft
    refine h.cleaned (.inr hcleanup) hleft.2.1 ?_
    rw [hleft.2.2.1]
    decide
  · exact h

/-! ## Runs -/

section
variable {σ : Type} (reading : Reading σ) (options : Options)

theorem Inv.step (h : Inv options s) (event : Event) : Inv options (s.step reading options event) := by
  cases event with
  | headers source ok upstream =>
    obtain ⟨hle, hok⟩ := (s.lane source).onHeaders_spec options.hedged ok upstream
    exact h.setLane source hle hok
  | fetchFailed source =>
    obtain ⟨hle, hok⟩ := (s.lane source).onFetchFailed_spec
    exact h.setLane source hle hok
  | prefetched source =>
    obtain ⟨hle, hok⟩ := (s.lane source).onPrefetched_spec reading
    exact h.setLane source hle hok
  | prefetchFailed source =>
    obtain ⟨hle, hok⟩ := (s.lane source).onPrefetchFailed_spec
    exact h.setLane source hle hok
  | delayTimer =>
    exact ⟨h.primary, h.ok, h.starts, h.acquires, h.releases, h.slots,
      h.point.mono rfl rfl rfl fun x => .refl _⟩
  | graceTimer =>
    rw [Race.step]
    split
    · exact ⟨h.primary, h.ok, h.starts, h.acquires, h.releases, h.slots,
        h.point.mono rfl rfl rfl fun x => .refl _⟩
    · exact h
  | resume settled granted => exact h.resume settled granted
  | loserSettled => exact h.onLoserSettled
  | cancelSettled => exact h.onCancelSettled

theorem inv_run (events : List Event) :
    Inv options (run (step reading options) (new options) events) :=
  invariant_run (Inv options) (fun _ event h => h.step reading options event) (inv_new options)
    events

/-- The function and the cleanup have nothing left to do. -/
structure Quiet (s : Race) : Prop where
  resume : ∀ settled granted, s.resume options settled granted = s
  loserSettled : s.onLoserSettled = s
  cancelSettled : s.onCancelSettled = s

variable {options}

theorem point_finish_ne
    (hpoint : ∀ source outcome other graceOver, s.point ≠ .returned source outcome other graceOver) :
    s.finish winner result ≠ s := fun heq =>
  hpoint _ _ _ _ (heq ▸ (finish_fields winner result).1)

theorem point_fail_ne
    (hpoint : ∀ source outcome other graceOver, s.point ≠ .returned source outcome other graceOver) :
    s.fail source ≠ s := by
  have hfail : (s.fail source).point =
      .returned source .error (s.lane source.other) s.graceFired := by
    unfold fail
    dsimp only
    split <;> rfl
  exact fun heq => hpoint _ _ _ _ (heq ▸ hfail)

theorem acquire_ne (granted : Bool) (hpoint : s.point = .delaying) :
    s.acquire options granted ≠ s := by
  intro heq
  have := congrArg Race.point heq
  rw [hpoint] at this
  unfold acquire at this
  split at this <;> cases this

theorem unconfirmed_ne (hpoint : s.point = .grace winner result) :
    s.unconfirmed winner result ≠ s := by
  unfold unconfirmed
  split
  · intro heq
    have := congrArg Race.point heq
    rw [hpoint] at this
    cases this
  · exact point_finish_ne fun _ _ _ _ h => by rw [hpoint] at h; cases h

/-- The function goes on once the lanes have settled. -/
theorem resume_ne (h : Inv options s) (hprimary : ∃ o, s.primary.outcome? = some o)
    (hsecondary : s.secondary.stage = .idle ∨ ∃ o, s.secondary.outcome? = some o)
    (hne : ∀ source outcome other graceOver, s.point ≠ .returned source outcome other graceOver) :
    s.resume options (some .primary) true ≠ s := by
  obtain ⟨first, hfirst⟩ := hprimary
  have hpoint := h.point
  have hlanes : s.Racing → ∀ x, ∃ o, (s.lane x).outcome? = some o := by
    rintro ⟨hstarted, -, -⟩ x
    cases x with
    | primary => exact ⟨first, hfirst⟩
    | secondary => exact hsecondary.resolve_left hstarted
  intro hstep
  have hmoved := congrArg Race.point hstep
  unfold PointOk at hpoint
  unfold resume at hstep hmoved
  cases hs : s.point with
  | single | following =>
    rw [hs, hfirst] at hmoved
    cases hmoved
  | delaying =>
    cases first with
    | result result =>
      rw [hs, hfirst] at hmoved
      cases hmoved
    | error =>
      rw [hs, hfirst] at hstep
      exact acquire_ne true hs hstep
  | racing =>
    have hlane : (s.lane .primary).outcome? = some first := hfirst
    rw [hs] at hstep hmoved
    dsimp only at hstep hmoved
    rw [hlane] at hstep hmoved
    cases first with
    | result result =>
      dsimp only at hstep hmoved
      split at hstep
      · exact point_finish_ne hne hstep
      · rename_i hhealthy
        rw [if_neg hhealthy] at hmoved
        cases hmoved
    | error => cases hmoved
  | awaiting failed =>
    rw [hs] at hpoint hstep
    obtain ⟨o, ho⟩ := hlanes hpoint.1 failed.other
    dsimp only at hstep
    rw [ho] at hstep
    cases o with
    | result result => exact point_finish_ne hne hstep
    | error => exact point_fail_ne hne hstep
  | grace winner result =>
    rw [hs] at hpoint hstep
    obtain ⟨o, ho⟩ := hlanes hpoint.1 winner.other
    dsimp only at hstep
    rw [ho] at hstep
    cases o with
    | result other =>
      dsimp only at hstep
      split at hstep
      · exact point_finish_ne hne hstep
      · exact unconfirmed_ne hs hstep
    | error => exact unconfirmed_ne hs hstep
  | confirming winner result =>
    rw [hs] at hpoint hstep
    obtain ⟨o, ho⟩ := hlanes hpoint.1 winner.other
    dsimp only at hstep
    rw [ho] at hstep
    cases o with
    | result other =>
      dsimp only at hstep
      split at hstep
      · exact point_finish_ne hne hstep
      · exact point_finish_ne hne hstep
    | error => exact point_finish_ne hne hstep
  | returned source outcome other graceOver => exact hne _ _ _ _ hs

theorem cleanup_cleaned (loser : Source) : (s.cleaned loser).cleanup = .finished loser := by
  unfold cleaned
  dsimp only
  split <;> rfl

/-- What is left of the losing lane when there is nothing left to do. -/
theorem Quiet.left (hquiet : s.Quiet options) (h : Inv options s)
    (hlane : s.secondary.stage ≠ .idle → ∃ o, (s.lane source.other).outcome? = some o)
    (hleft : s.Left source outcome) : s.releases = s.acquires ∧
      (s.secondary.stage ≠ .idle → (s.lane source.other).body ≠ .opened) := by
  have hacquires := h.acquires
  have hreleases := h.releases
  unfold Left at hleft
  cases hcleanup : s.cleanup with
  | none =>
    rw [hcleanup] at hleft
    obtain ⟨hidle, hpermit⟩ | ⟨-, hother, hpermit⟩ := hleft
    · rw [hpermit] at hacquires hreleases
      exact ⟨hreleases.trans hacquires.symm, fun hstarted => absurd hidle hstarted⟩
    · refine ⟨?_, fun _ => h.body_of_error hother⟩
      obtain hp | hp := hpermit <;> rw [hp] at hacquires hreleases <;>
        exact hreleases.trans hacquires.symm
  | waiting loser =>
    rw [hcleanup] at hleft
    obtain ⟨⟨rfl, hstarted, -⟩, -⟩ := hleft
    obtain ⟨o, ho⟩ := hlane hstarted
    have hmoved := congrArg Race.cleanup hquiet.loserSettled
    unfold onLoserSettled at hmoved
    rw [hcleanup] at hmoved
    dsimp only at hmoved
    rw [ho] at hmoved
    cases o with
    | result result =>
      dsimp only at hmoved
      split at hmoved
      · cases hmoved
      · rw [cleanup_cleaned] at hmoved
        cases hmoved
    | error =>
      rw [cleanup_cleaned] at hmoved
      cases hmoved
  | cancelling loser =>
    have hmoved := congrArg Race.cleanup hquiet.cancelSettled
    unfold onCancelSettled at hmoved
    rw [hcleanup] at hmoved
    dsimp only at hmoved
    rw [cleanup_cleaned] at hmoved
    cases hmoved
  | finished loser =>
    rw [hcleanup] at hleft
    obtain ⟨⟨rfl, -, -⟩, -, hbody, hpermit⟩ := hleft
    refine ⟨?_, fun _ => hbody⟩
    obtain hp | hp := hpermit <;> rw [hp] at hacquires hreleases <;>
      exact hreleases.trans hacquires.symm

/-- A permit that was given back: the losing lane has settled, and its body is not open. -/
theorem Inv.of_released (h : Inv options s) (hp : s.permit = .released) :
    ∃ source outcome other graceOver, s.point = .returned source outcome other graceOver ∧
      (∃ o, (s.lane source.other).outcome? = some o) ∧ (s.lane source.other).body ≠ .opened := by
  have hracing : ¬s.Racing := by
    rintro ⟨-, hpermit, -⟩
    rw [hp] at hpermit
    obtain hpermit | hpermit := hpermit <;> cases hpermit
  have halone : ¬(s.secondary.stage = .idle ∧ s.permit = .none ∧ s.cleanup = .none) := by
    rintro ⟨-, hpermit, -⟩
    rw [hp] at hpermit
    cases hpermit
  have hwaits : ¬(s.permit = .none ∨ s.permit = .afterLoser) := by
    rw [hp]
    decide
  have hpoint := h.point
  unfold PointOk at hpoint
  split at hpoint
  · exact absurd hpoint halone
  · exact absurd hpoint halone
  · exact absurd hpoint halone
  · exact absurd hpoint hracing
  · exact absurd hpoint.1 hracing
  · exact absurd hpoint.1 hracing
  · exact absurd hpoint.1 hracing
  · rename_i source outcome other graceOver hs
    obtain ⟨-, -, hleft⟩ := hpoint
    refine ⟨source, outcome, other, graceOver, hs, ?_⟩
    unfold Left at hleft
    split at hleft
    · obtain ⟨-, hpermit⟩ | ⟨-, hother, -⟩ := hleft
      · rw [hp] at hpermit
        cases hpermit
      · exact ⟨⟨_, hother⟩, h.body_of_error hother⟩
    · exact absurd hleft.2 hwaits
    · exact absurd hleft.2.2.2 hwaits
    · obtain ⟨⟨rfl, -, -⟩, hsettled, hbody, -⟩ := hleft
      exact ⟨hsettled, hbody⟩

/-- After any events: at most two requests are sent, the second with a permit if slots are given;
a permit is released at most once and only when the losing lane has settled and its body is not
open; what is returned is justified, the response's body yields the winner's upstream body, and the
other lane was aborted; and when both lanes have settled and nothing is left to do, the function
has returned, the permit is released and the other lane's body is not open. -/
theorem race_safe {σ : Type} (reading : Reading σ) (options : Options) (events : List Event) :
    let s := run (step reading options) (new options) events
    s.starts ≤ 2 ∧ (options.slots = true → s.starts = 2 → s.acquires = 1) ∧
    s.acquires ≤ 1 ∧ s.releases ≤ s.acquires ∧
    (s.releases = 1 → ∃ source outcome other graceOver,
      s.point = .returned source outcome other graceOver ∧
      (∃ o, (s.lane source.other).outcome? = some o) ∧
      (s.lane source.other).body ≠ .opened) ∧
    (∀ source outcome other graceOver, s.point = .returned source outcome other graceOver →
      Justified outcome other graceOver ∧ (s.lane source).outcome? = some outcome ∧
      ∀ result, outcome = .result result → result.Exact ∧
        (s.secondary.stage ≠ .idle → (s.lane source.other).aborted = true)) ∧
    (s.Quiet options → (∃ o, s.primary.outcome? = some o) →
      (s.secondary.stage = .idle ∨ ∃ o, s.secondary.outcome? = some o) →
      ∃ source outcome other graceOver, s.point = .returned source outcome other graceOver ∧
        s.releases = s.acquires ∧
        (s.secondary.stage ≠ .idle → (s.lane source.other).body ≠ .opened)) := by
  intro s
  have h : Inv options s := inv_run reading options events
  have hstarts := h.starts
  have hacquires := h.acquires
  have hreleases := h.releases
  refine ⟨?_, ?_, ?_, ?_, ?_, ?_, ?_⟩
  · rw [hstarts]
    split <;> decide
  · intro hslots htwo
    have hstarted : s.secondary.stage ≠ .idle := fun hidle => by
      rw [if_pos hidle] at hstarts
      omega
    rw [hacquires, if_neg (h.slots hslots hstarted)]
  · rw [hacquires]
    split <;> decide
  · rw [hacquires, hreleases]
    cases s.permit <;> decide
  · intro hreleased
    refine h.of_released ?_
    by_contra hp
    rw [if_neg hp] at hreleases
    omega
  · intro source outcome other graceOver hpoint
    have hok := h.point
    unfold PointOk at hok
    rw [hpoint] at hok
    obtain ⟨hjust, hsource, hleft⟩ := hok
    refine ⟨hjust, hsource, fun result hresult => ⟨h.exact (hresult ▸ hsource), fun hstarted => ?_⟩⟩
    unfold Left at hleft
    split at hleft
    · obtain ⟨hidle, -⟩ | ⟨herror, -⟩ := hleft
      · exact absurd hidle hstarted
      · rw [hresult] at herror
        cases herror
    · obtain ⟨⟨rfl, -, haborted⟩, -⟩ := hleft
      exact haborted
    · obtain ⟨⟨rfl, -, haborted⟩, -⟩ := hleft
      exact haborted
    · obtain ⟨⟨rfl, -, haborted⟩, -⟩ := hleft
      exact haborted
  · intro hquiet hprimary hsecondary
    have hreturned : ∃ source outcome other graceOver,
        s.point = .returned source outcome other graceOver := by
      by_contra hnone
      refine resume_ne h hprimary hsecondary ?_ (hquiet.resume (some .primary) true)
      exact fun source outcome other graceOver hs =>
        hnone ⟨source, outcome, other, graceOver, hs⟩
    obtain ⟨source, outcome, other, graceOver, hs⟩ := hreturned
    have hpoint := h.point
    unfold PointOk at hpoint
    rw [hs] at hpoint
    refine ⟨source, outcome, other, graceOver, hs, hquiet.left h (fun hstarted => ?_) hpoint.2.2⟩
    cases source with
    | primary => exact hsecondary.resolve_left hstarted
    | secondary => exact hprimary

/-- A parser that recognizes every chunk as an event. -/
def everyChunk : Reading Nat where
  initial := 0
  guard n _ := some n
  push n _ := some ([false], n + 1)
  finish n := some ([], n)
  getRecognizedEventCount n := n
  maxStreamFrameBytes := 16

/-- The second request wins, and the first one fails when it is aborted: the permit is back. -/
theorem race_safe_hedged :
    let s := run (step everyChunk ⟨true, true⟩) (new ⟨true, true⟩)
      [.delayTimer, .resume none true, .headers .secondary true (some ⟨[[1], [2]], false⟩),
        .prefetched .secondary, .resume (some .secondary) false, .fetchFailed .primary,
        .loserSettled]
    ∃ source outcome other graceOver, s.point = .returned source outcome other graceOver ∧
      (∃ o, (s.lane source.other).outcome? = some o) ∧
      (s.lane source.other).body ≠ .opened :=
  (race_safe everyChunk ⟨true, true⟩ _).2.2.2.2.1 (by decide)

end

end Race

end StonePlus.Hedge
