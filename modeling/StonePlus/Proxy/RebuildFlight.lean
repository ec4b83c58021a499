import StonePlus.Js.Str
import StonePlus.Lib.Run
import StonePlus.Lib.Tally

/-!
# StonePlus.Proxy.RebuildFlight

The rebuild flight of `proxy/built-in/route-coordinator.ts`, microtask by microtask.

`rebuild` joins the flight that is running.  Between the last look at the pending origins and
the `finally` that takes the flight away lie microtasks, and a call may come in any of them.
The log of the warm rounds and of the calls is kept for the specification.
-/

namespace StonePlus.Proxy.Flights

open Lib

/-- `this.route.kind`, with the two built-in kinds as one. -/
inductive RouteKind
  | external
  | builtIn
  | blocked
  deriving DecidableEq

/-- Where a flight is: the `await` of `runRebuild` it is at, and then the promises that settle one
after the other, that of `runRebuild`, that of `then` and that of `finally`. -/
inductive Phase
  | scheduled
  | yielding
  | retrying
  | refreshing
  | warming (round : Nat)
  | finished (succeeded : Bool)
  | adopted (succeeded : Bool)
  | cleared (succeeded : Bool)
  | settled (succeeded : Bool)
  deriving DecidableEq

/-- A call of `warm` by a flight; it succeeds if all its targets answer. -/
structure WarmRound where
  targets : List JsString
  succeeded : Option Bool
  deriving DecidableEq

/-- A call of `rebuild`: the flight whose promise it got, and the rounds that had started. -/
structure Call where
  origins : List JsString
  flight : Nat
  started : Nat
  deriving DecidableEq

structure Coordinator where
  pendingRebuildOrigins : List JsString
  rebuildFlight : Option Nat
  flights : List Phase
  rounds : List WarmRound
  calls : List Call
  deriving DecidableEq

def Coordinator.initial : Coordinator := ⟨[], none, [], [], []⟩

structure Options where
  /-- The root URL of an origin, unless it is no URL or on a loopback host. -/
  target? : JsString → Option JsString
  /-- Whether there is a retry handler. -/
  retry : Bool

variable (options : Options)

def normalizeWarmTargets (origins : List JsString) : List JsString :=
  (origins.filterMap options.target?).eraseDups

/-- `rebuild`; it throws when the coordinator is closed, which leaves everything as it is. -/
def rebuild (s : Coordinator) (origins : List JsString) : Coordinator :=
  let s :=
    { s with
      pendingRebuildOrigins :=
        s.pendingRebuildOrigins ++ (normalizeWarmTargets options origins).filter
          (· ∉ s.pendingRebuildOrigins) }
  match s.rebuildFlight with
  | some flight => { s with calls := s.calls ++ [⟨origins, flight, s.rounds.length⟩] }
  | none =>
    { s with
      rebuildFlight := some s.flights.length
      flights := s.flights ++ [.scheduled]
      calls := s.calls ++ [⟨origins, s.flights.length, s.rounds.length⟩] }

def setPhase (s : Coordinator) (flight : Nat) (phase : Phase) : Coordinator :=
  { s with flights := s.flights.set flight phase }

/-- The head of the loop: another round, or the end of `runRebuild`. -/
def warmPending (s : Coordinator) (flight : Nat) : Coordinator :=
  if s.pendingRebuildOrigins.isEmpty then setPhase s flight (.finished true)
  else
    setPhase
      { s with
        pendingRebuildOrigins := []
        rounds := s.rounds ++ [⟨s.pendingRebuildOrigins, none⟩] }
      flight (.warming s.rounds.length)

def settleRound (s : Coordinator) (round : Nat) (succeeds : Bool) : Coordinator :=
  { s with rounds := s.rounds.modify round fun r => { r with succeeded := some succeeds } }

/-- The route that is to be refreshed, once it is not blocked any more. -/
def refreshRoute (s : Coordinator) (flight : Nat) (route : RouteKind) : Coordinator :=
  setPhase s flight (if route = .builtIn then .refreshing else .finished false)

/-- A flight goes on, with the route it then finds; `succeeds` is how what it awaited settled. -/
def advance (s : Coordinator) (flight : Nat) (route : RouteKind) (succeeds : Bool) : Coordinator :=
  match s.flights[flight]? with
  | none => s
  | some .scheduled => setPhase s flight .yielding
  | some .yielding =>
    if route = .blocked ∧ options.retry then setPhase s flight .retrying
    else refreshRoute s flight route
  | some .retrying =>
    if succeeds then refreshRoute s flight route else setPhase s flight (.finished false)
  | some .refreshing =>
    if succeeds then warmPending s flight else setPhase s flight (.finished false)
  | some (.warming round) =>
    let s := settleRound s round succeeds
    if succeeds then warmPending s flight else setPhase s flight (.finished false)
  | some (.finished succeeded) => setPhase s flight (.adopted succeeded)
  | some (.adopted succeeded) =>
    let s := if s.rebuildFlight = some flight then { s with rebuildFlight := none } else s
    setPhase s flight (.cleared succeeded)
  | some (.cleared succeeded) => setPhase s flight (.settled succeeded)
  | some (.settled _) => s

inductive Event
  | rebuild (origins : List JsString)
  | advance (flight : Nat) (route : RouteKind) (succeeds : Bool)

def step (s : Coordinator) : Event → Coordinator
  | .rebuild origins => rebuild options s origins
  | .advance flight route succeeds => advance options s flight route succeeds

end StonePlus.Proxy.Flights

/-!
## Targets

When a rebuild that resolves has warmed the targets of its caller: as long as no call brings
targets to a flight that has looked at the pending origins for the last time.
-/

namespace StonePlus.Proxy.Flights

open Lib

variable {options : Options} {s s' : Coordinator} {c : Call} {flight : Nat} {p : Phase}

/-- A round that started after the call has warmed the target. -/
def Warmed (options : Options) (s : Coordinator) (c : Call) (target : JsString) : Prop :=
  ∃ i round, c.started ≤ i ∧ s.rounds[i]? = some round ∧ round.succeeded = some true ∧
    target ∈ normalizeWarmTargets options round.targets

/-- If the promise of a call has resolved, every valid origin of its list that is not on a
loopback host has been warmed since. -/
def WarmsCalls (options : Options) (s : Coordinator) : Prop :=
  ∀ c ∈ s.calls, s.flights[c.flight]? = some (.settled true) →
    ∀ origin ∈ c.origins, ∀ target ∈ options.target? origin, Warmed options s c target

/-- `runRebuild` has returned, and the flight is still there to be joined. -/
def Phase.hasReturned : Phase → Bool
  | .finished true | .adopted true => true
  | _ => false

/-- A call that joins a flight whose `runRebuild` has returned brings no targets. -/
def JoinsInTime (options : Options) (s : Coordinator) : Event → Prop
  | .rebuild origins => ∀ flight ∈ s.rebuildFlight, ∀ p ∈ s.flights[flight]?,
      p.hasReturned = true → normalizeWarmTargets options origins = []
  | .advance .. => True

theorem mem_normalizeWarmTargets : target ∈ normalizeWarmTargets options origins ↔
      ∃ origin ∈ origins, options.target? origin = some target := by
  simp [normalizeWarmTargets]

/-! ## The invariant -/

/-- The flight has not been taken away. -/
def Phase.isOpen : Phase → Bool
  | .cleared _ | .settled _ => false
  | _ => true

/-- What the flight of a call owes it. -/
def Fulfils (options : Options) (s : Coordinator) (c : Call) : Phase → Prop
  | .scheduled | .yielding | .retrying | .refreshing =>
    ∀ target ∈ normalizeWarmTargets options c.origins,
      target ∈ s.pendingRebuildOrigins ∨ Warmed options s c target
  | .warming i =>
    ∀ target ∈ normalizeWarmTargets options c.origins,
      target ∈ s.pendingRebuildOrigins ∨ Warmed options s c target ∨
        c.started ≤ i ∧ ∃ round, s.rounds[i]? = some round ∧
          target ∈ normalizeWarmTargets options round.targets
  | .finished true | .adopted true | .cleared true | .settled true =>
    ∀ target ∈ normalizeWarmTargets options c.origins, Warmed options s c target
  | .finished false | .adopted false | .cleared false | .settled false => True

structure Sound (options : Options) (s : Coordinator) : Prop where
  /-- Only one flight is open, the one that is joined. -/
  current : ∀ (flight : Nat) (p : Phase), s.flights[flight]? = some p → p.isOpen = true →
    s.rebuildFlight = some flight
  joined : ∀ flight, s.rebuildFlight = some flight →
    ∃ p, s.flights[flight]? = some p ∧ p.isOpen = true
  warming : ∀ flight i : Nat, s.flights[flight]? = some (.warming i) →
    ∃ round, s.rounds[i]? = some round ∧ round.succeeded = none
  calls : ∀ c ∈ s.calls, c.started ≤ s.rounds.length ∧
    ∃ p, s.flights[c.flight]? = some p ∧ Fulfils options s c p

theorem sound_initial : Sound options Coordinator.initial := by
  constructor <;> simp [Coordinator.initial]

/-- Rounds that have succeeded stay. -/
def KeepsRounds (s s' : Coordinator) : Prop :=
  ∀ (i : Nat) (round : WarmRound), s.rounds[i]? = some round → round.succeeded = some true →
    s'.rounds[i]? = some round

theorem Warmed.mono (hkeeps : KeepsRounds s s') (h : Warmed options s c target) :
    Warmed options s' c target := by
  obtain ⟨i, round, hstarted, hround, hsucceeded, hmem⟩ := h
  exact ⟨i, round, hstarted, hkeeps i round hround hsucceeded, hsucceeded, hmem⟩

/-- More pending origins and the same rounds. -/
theorem Fulfils.mono (hpending : ∀ target ∈ s.pendingRebuildOrigins,
      target ∈ s'.pendingRebuildOrigins)
    (hrounds : s'.rounds = s.rounds) (h : Fulfils options s c p) : Fulfils options s' c p := by
  have hwarmed : ∀ target, Warmed options s c target → Warmed options s' c target := fun target =>
    Warmed.mono fun i round hround _ => by rwa [hrounds]
  cases p with
  | scheduled | yielding | retrying | refreshing =>
    exact fun target ht => (h target ht).imp (hpending target) (hwarmed target)
  | warming i =>
    intro target ht
    refine (h target ht).imp (hpending target) (Or.imp (hwarmed target) fun hround => ?_)
    rwa [hrounds]
  | finished ok | adopted ok | cleared ok | settled ok =>
    cases ok with
    | true => exact fun target ht => hwarmed target (h target ht)
    | false => trivial

/-- Once a flight is taken away only what has been warmed counts. -/
theorem Fulfils.of_closed (hkeeps : KeepsRounds s s') (hp : p.isOpen = false)
    (h : Fulfils options s c p) : Fulfils options s' c p := by
  cases p with
  | cleared ok | settled ok =>
    cases ok with
    | true => exact fun target ht => (h target ht).mono hkeeps
    | false => trivial
  | _ => simp [Phase.isOpen] at hp

/-! ## Steps -/

/-- A flight goes on, from one phase to the next. -/
theorem Sound.advance_of (h : Sound options s) (hold : s.flights[flight]? = some old)
    (hflights : s'.flights = s.flights.set flight new) (hcalls : s'.calls = s.calls)
    (hkeeps : KeepsRounds s s') (hlength : s.rounds.length ≤ s'.rounds.length)
    (hopen : new.isOpen = true → old.isOpen = true)
    (hcurrent : s'.rebuildFlight =
      if new.isOpen = true ∨ old.isOpen = false then s.rebuildFlight else none)
    (hothers : old.isOpen = true ∨ s'.pendingRebuildOrigins = s.pendingRebuildOrigins ∧
      s'.rounds = s.rounds)
    (hwarming : ∀ i, new = .warming i → ∃ round, s'.rounds[i]? = some round ∧
      round.succeeded = none)
    (hfulfils : ∀ c ∈ s.calls, c.flight = flight → c.started ≤ s.rounds.length →
      Fulfils options s c old → Fulfils options s' c new) : Sound options s' := by
  have hlt : flight < s.flights.length := (List.getElem?_eq_some_iff.mp hold).1
  have hget : ∀ i, s'.flights[i]? = if flight = i then some new else s.flights[i]? := by
    intro i
    rw [hflights]
    exact getElem?_set_of_some hold new i
  -- Where the flight was open, it was the only one.
  have hclosed : ∀ i p, flight ≠ i → s.flights[i]? = some p → old.isOpen = true →
      p.isOpen = false := by
    intro i p hne hp hold'
    by_contra hopen'
    have h₁ := h.current i p hp (by simpa using hopen')
    have h₂ := h.current flight old hold hold'
    exact hne (Option.some.inj (h₂.symm.trans h₁))
  refine ⟨?_, ?_, ?_, ?_⟩
  · intro i p hp hopen'
    rw [hget] at hp
    split at hp
    · rename_i hi
      obtain rfl := Option.some.inj hp
      rw [hcurrent, if_pos (.inl hopen'), ← hi]
      exact h.current flight old hold (hopen hopen')
    · rename_i hi
      have hold' : old.isOpen = false := by
        by_contra hne
        simp [hclosed i p hi hp (by simpa using hne)] at hopen'
      rw [hcurrent, if_pos (.inr hold')]
      exact h.current i p hp hopen'
  · intro i hi
    rw [hcurrent] at hi
    split at hi
    · rename_i hstays
      obtain ⟨p, hp, hopen'⟩ := h.joined i hi
      rw [hget]
      by_cases hif : flight = i
      · subst hif
        obtain rfl : p = old := Option.some.inj (hp.symm.trans hold)
        exact ⟨new, if_pos rfl, hstays.resolve_right (by simp [hopen'])⟩
      · exact ⟨p, by rw [if_neg hif, hp], hopen'⟩
    · contradiction
  · intro i r hp
    rw [hget] at hp
    split at hp
    · exact hwarming r (Option.some.inj hp)
    · rename_i hi
      rcases hothers with hold' | ⟨-, hrounds⟩
      · simpa [Phase.isOpen] using hclosed i _ hi hp hold'
      · rw [hrounds]
        exact h.warming i r hp
  · intro c hc
    rw [hcalls] at hc
    obtain ⟨hstarted, p, hp, hfulfilled⟩ := h.calls c hc
    refine ⟨hstarted.trans hlength, ?_⟩
    rw [hget]
    by_cases hi : flight = c.flight
    · rw [← hi] at hp
      obtain rfl : p = old := Option.some.inj (hp.symm.trans hold)
      exact ⟨new, if_pos hi, hfulfils c hc hi.symm hstarted hfulfilled⟩
    · refine ⟨p, by rw [if_neg hi, hp], ?_⟩
      rcases hothers with hold' | ⟨hpending, hrounds⟩
      · exact hfulfilled.of_closed hkeeps (hclosed _ p hi hp hold')
      · exact hfulfilled.mono (by simp [hpending]) hrounds

/-- Only the phase of the flight changes. -/
theorem Sound.setPhase (h : Sound options s) (hold : s.flights[flight]? = some old)
    (hopen : old.isOpen = true) (hnew : new.isOpen = true) (hwarming : ∀ i, new ≠ .warming i)
    (hfulfils : ∀ c, Fulfils options s c old → Fulfils options s c new) :
    Sound options (setPhase s flight new) :=
  h.advance_of hold rfl rfl (fun _ _ hround _ => hround) le_rfl (fun _ => hopen)
    (by simp [Flights.setPhase, hnew]) (.inl hopen) (fun i hi => absurd hi (hwarming i))
    fun c _ _ _ hc => (hfulfils c hc).mono (fun _ => id) rfl

theorem Sound.fail (h : Sound options s) (hold : s.flights[flight]? = some old)
    (hopen : old.isOpen = true) : Sound options (Flights.setPhase s flight (.finished false)) :=
  h.setPhase hold hopen rfl (by simp) fun _ _ => trivial

/-- Before the first round the targets of a call are pending or warmed. -/
def Phase.isBefore : Phase → Bool
  | .scheduled | .yielding | .retrying | .refreshing => true
  | _ => false

theorem Fulfils.of_before (hold : old.isBefore = true) (hnew : new.isBefore = true)
    (h : Fulfils options s c old) : Fulfils options s c new := by
  cases old <;> cases new <;> simp_all [Phase.isBefore, Fulfils]

theorem Sound.before (h : Sound options s) (hold : s.flights[flight]? = some old)
    (hbefore : old.isBefore = true) (hnew : new.isBefore = true) :
    Sound options (Flights.setPhase s flight new) :=
  h.setPhase hold (by cases old <;> simp_all [Phase.isBefore, Phase.isOpen])
    (by cases new <;> simp_all [Phase.isBefore, Phase.isOpen])
    (by rintro i rfl; simp [Phase.isBefore] at hnew) fun _ => .of_before hbefore hnew

theorem Sound.refreshRoute (h : Sound options s) (hold : s.flights[flight]? = some old)
    (hbefore : old.isBefore = true) (route : RouteKind) :
    Sound options (refreshRoute s flight route) := by
  unfold Flights.refreshRoute
  split
  · exact h.before hold hbefore rfl
  · exact h.fail hold (by cases old <;> simp_all [Phase.isBefore, Phase.isOpen])

/-- The head of the loop, where the targets of every call of the flight are pending or warmed. -/
theorem Sound.warmPending (h : Sound options s)
    (hroot : ∀ origin target, options.target? origin = some target →
      options.target? target = some target) (hold : s.flights[flight]? = some old)
    (hopen : old.isOpen = true)
    (hfulfils : ∀ c, Fulfils options s c old → Fulfils options s c .refreshing) :
    Sound options (warmPending s flight) := by
  unfold Flights.warmPending
  split
  · rename_i hempty
    refine h.setPhase hold hopen rfl (by simp) fun c hc target ht => ?_
    have hnone : s.pendingRebuildOrigins = [] := by simpa using hempty
    exact (hfulfils c hc target ht).resolve_left (by simp [hnone])
  · have hkeeps : KeepsRounds s (Flights.setPhase
        { s with
          pendingRebuildOrigins := []
          rounds := s.rounds ++ [⟨s.pendingRebuildOrigins, none⟩] }
        flight (.warming s.rounds.length)) := by
      intro i round hround _
      exact (List.getElem?_append_left (List.getElem?_eq_some_iff.mp hround).1).trans hround
    refine h.advance_of hold rfl rfl hkeeps (by simp [Flights.setPhase]) (fun _ => hopen)
      (by simp [Flights.setPhase, Phase.isOpen]) (.inl hopen) ?_ ?_
    · rintro i hi
      obtain rfl := Phase.warming.inj hi
      exact ⟨_, List.getElem?_concat_length, rfl⟩
    · intro c _ _ hstarted hc target ht
      obtain ⟨origin, -, horigin⟩ := mem_normalizeWarmTargets.mp ht
      rcases hfulfils c hc target ht with hpending | hwarmed
      · refine .inr (.inr ⟨hstarted, _, List.getElem?_concat_length, ?_⟩)
        exact mem_normalizeWarmTargets.mpr ⟨target, hpending, hroot origin target horigin⟩
      · exact .inr (.inl (hwarmed.mono hkeeps))

/-- A round settles; if it has warmed its targets, nothing else is owed for them. -/
theorem settleRound_spec (h : Sound options s) (hold : s.flights[flight]? = some (.warming i))
    (succeeds : Bool) :
    KeepsRounds s (settleRound s i succeeds) ∧ (settleRound s i succeeds).rounds.length =
      s.rounds.length ∧ ∀ round, s.rounds[i]? = some round →
        (settleRound s i succeeds).rounds[i]? = some { round with succeeded := some succeeds } := by
  obtain ⟨round, hround, hnone⟩ := h.warming flight i hold
  refine ⟨?_, by simp [settleRound], ?_⟩
  · intro j round' hround' hsucceeded
    have hne : i ≠ j := by
      rintro rfl
      obtain rfl := Option.some.inj (hround.symm.trans hround')
      simp [hnone] at hsucceeded
    simpa [settleRound, List.getElem?_modify, hne] using hround'
  · intro round' hround'
    simp [settleRound, List.getElem?_modify, hround']

theorem warmPending_setPhase (s : Coordinator) (flight : Nat) (p : Phase) :
    warmPending (Flights.setPhase s flight p) flight = warmPending s flight := by
  by_cases h : s.pendingRebuildOrigins = [] <;>
    simp [warmPending, Flights.setPhase, h, List.set_set]

theorem Sound.advance (h : Sound options s)
    (hroot : ∀ origin target, options.target? origin = some target →
      options.target? target = some target) (flight : Nat) (route : RouteKind) (succeeds : Bool) :
    Sound options (advance options s flight route succeeds) := by
  unfold Flights.advance
  cases hold : s.flights[flight]? with
  | none => exact h
  | some p =>
    cases p with
    | scheduled => exact h.before hold rfl rfl
    | yielding =>
      simp only
      split
      · exact h.before hold rfl rfl
      · exact h.refreshRoute hold rfl route
    | retrying =>
      simp only
      split
      · exact h.refreshRoute hold rfl route
      · exact h.fail hold rfl
    | refreshing =>
      simp only
      split
      · exact h.warmPending hroot hold rfl fun _ hc => hc
      · exact h.fail hold rfl
    | warming i =>
      obtain ⟨hkeeps, hlength, hround⟩ := settleRound_spec h hold succeeds
      simp only
      split
      · rename_i hsucceeds
        rw [← warmPending_setPhase _ flight .refreshing]
        have hget : (Flights.setPhase (settleRound s i succeeds) flight .refreshing).flights[flight]? =
            some .refreshing := by
          have hlt := (List.getElem?_eq_some_iff.mp hold).1
          simp [Flights.setPhase, settleRound, hlt]
        refine Sound.warmPending ?_ hroot hget rfl fun _ hc => hc
        refine h.advance_of hold rfl rfl hkeeps hlength.ge (fun _ => rfl)
          (by simp [Flights.setPhase, settleRound, Phase.isOpen]) (.inl rfl) (by simp) ?_
        intro c _ _ _ hc target ht
        rcases hc target ht with hpending | hwarmed | ⟨hstarted, round, hget', hmem⟩
        · exact .inl hpending
        · exact .inr (hwarmed.mono hkeeps)
        · exact .inr ⟨i, _, hstarted, hround round hget', by rw [hsucceeds], hmem⟩
      · exact h.advance_of hold rfl rfl hkeeps hlength.ge (fun _ => rfl)
          (by simp [Flights.setPhase, settleRound, Phase.isOpen]) (.inl rfl) (by simp)
          fun _ _ _ _ _ => trivial
    | finished ok =>
      refine h.setPhase hold rfl rfl (by simp) fun c hc => ?_
      cases ok <;> exact hc
    | adopted ok =>
      have hcurrent := h.current flight _ hold rfl
      simp only [hcurrent, if_true]
      refine h.advance_of hold rfl rfl (fun _ _ hround _ => hround) le_rfl
        (by simp [Phase.isOpen]) (by simp [Flights.setPhase, Phase.isOpen]) (.inl rfl) (by simp) ?_
      intro c _ _ _ hc
      cases ok <;> exact hc
    | cleared ok =>
      refine h.advance_of hold rfl rfl (fun _ _ hround _ => hround) le_rfl
        (by simp [Phase.isOpen]) (by simp [Flights.setPhase, Phase.isOpen]) (.inr ⟨rfl, rfl⟩)
        (by simp) ?_
      intro c _ _ _ hc
      cases ok <;> exact hc
    | settled ok => exact h

/-- A call brings its targets to the pending ones; it may join any flight but one that has
returned. -/
theorem Sound.rebuild (h : Sound options s) (hjoins : JoinsInTime options s (.rebuild origins)) :
    Sound options (rebuild options s origins) := by
  have hpending : ∀ target ∈ normalizeWarmTargets options origins,
      target ∈ s.pendingRebuildOrigins ++ (normalizeWarmTargets options origins).filter
        (· ∉ s.pendingRebuildOrigins) := by
    intro target ht
    by_cases hmem : target ∈ s.pendingRebuildOrigins <;> simp [ht, hmem]
  unfold Flights.rebuild
  cases hflight : s.rebuildFlight with
  | some flight =>
    obtain ⟨p, hp, hopen⟩ := h.joined flight hflight
    refine ⟨fun i q hq hq' => ?_, fun i hi => h.joined i (hflight.trans ?_), h.warming, ?_⟩
    · exact (h.current i q hq hq').symm.trans hflight |>.symm ▸ rfl
    · simpa using hi
    · intro c hc
      rcases List.mem_append.mp hc with hc | hc
      · obtain ⟨hstarted, q, hq, hfulfils⟩ := h.calls c hc
        exact ⟨hstarted, q, hq, hfulfils.mono (fun _ hmem => List.mem_append_left _ hmem) rfl⟩
      · obtain rfl := List.mem_singleton.mp hc
        refine ⟨le_rfl, p, hp, ?_⟩
        have hreturned := hjoins flight hflight p hp
        cases p with
        | scheduled | yielding | retrying | refreshing | warming _ =>
          exact fun target ht => .inl (hpending target ht)
        | finished ok | adopted ok =>
          cases ok with
          | true => simp [Fulfils, hreturned rfl]
          | false => trivial
        | cleared ok | settled ok => simp [Phase.isOpen] at hopen
  | none =>
    have hclosed : ∀ (i : Nat) (q : Phase), s.flights[i]? = some q → q.isOpen = false := by
      intro i q hq
      by_contra hopen
      simp [h.current i q hq (by simpa using hopen)] at hflight
    refine ⟨?_, ?_, ?_, ?_⟩
    · intro i q hq hopen
      rcases getElem?_concat_eq_some hq with hq | ⟨rfl, -⟩
      · simp [hclosed i q hq] at hopen
      · rfl
    · intro i hi
      obtain rfl := Option.some.inj hi
      exact ⟨.scheduled, by simp, rfl⟩
    · intro i r hq
      rcases getElem?_concat_eq_some hq with hq | ⟨-, hphase⟩
      · exact h.warming i r hq
      · contradiction
    · intro c hc
      rcases List.mem_append.mp hc with hc | hc
      · obtain ⟨hstarted, q, hq, hfulfils⟩ := h.calls c hc
        refine ⟨hstarted, q, ?_, hfulfils.mono (fun _ hmem => List.mem_append_left _ hmem) rfl⟩
        exact (List.getElem?_append_left (List.getElem?_eq_some_iff.mp hq).1).trans hq
      · obtain rfl := List.mem_singleton.mp hc
        exact ⟨le_rfl, .scheduled, by simp, fun target ht => .inl (hpending target ht)⟩

theorem Sound.step (h : Sound options s)
    (hroot : ∀ origin target, options.target? origin = some target →
      options.target? target = some target) (event : Event)
    (hjoins : JoinsInTime options s event) : Sound options (step options s event) := by
  cases event with
  | rebuild origins => exact h.rebuild hjoins
  | advance flight route succeeds => exact h.advance hroot flight route succeeds

theorem Sound.warmsCalls (h : Sound options s) : WarmsCalls options s := by
  intro c hc hsettled origin horigin target htarget
  obtain ⟨-, p, hp, hfulfils⟩ := h.calls c hc
  obtain rfl : p = .settled true := Option.some.inj (hp.symm.trans hsettled)
  exact hfulfils target (mem_normalizeWarmTargets.mpr ⟨origin, horigin, htarget⟩)

/-- As long as no call brings targets to a flight that has returned, a call that resolves has
warmed its targets; the root of a root URL is the URL itself. -/
theorem warmsCalls_of_joinsInTime
    (hroot : ∀ origin target, options.target? origin = some target →
      options.target? target = some target) (events : List Event)
    (h : Along (step options) (JoinsInTime options) Coordinator.initial events) :
    ∀ before, before <+: events →
      WarmsCalls options (run (step options) Coordinator.initial before) := by
  rintro before ⟨rest, rfl⟩
  refine Sound.warmsCalls (invariant_of_along (Sound options)
    (fun s event hs hjoins => hs.step hroot event hjoins) sound_initial (along_append.mp h).1)

instance JoinsInTime.decidable : ∀ s event, Decidable (JoinsInTime options s event)
  | s, .rebuild origins => inferInstanceAs (Decidable (∀ flight ∈ s.rebuildFlight,
      ∀ p ∈ s.flights[flight]?, p.hasReturned = true →
        normalizeWarmTargets options origins = []))
  | _, .advance .. => .isTrue trivial

/-- Every origin is its own root URL. -/
def allTargets : Options := ⟨some, false⟩

/-- A flight whose warm rounds all succeed goes on. -/
def goOn : Event := .advance 0 .builtIn true

/-- A second call comes during the first round, and gets a second one. -/
theorem warmsCalls_of_joinsInTime_two :
    let events : List Event :=
      [.rebuild [js "a"], goOn, goOn, goOn, .rebuild [js "b"], goOn, goOn, goOn, goOn, goOn]
    Along (step allTargets) (JoinsInTime allTargets) Coordinator.initial events ∧
      ∀ before, before <+: events →
        WarmsCalls allTargets (run (step allTargets) Coordinator.initial before) := by
  intro events
  have h : Along (step allTargets) (JoinsInTime allTargets) Coordinator.initial events := by
    decide +kernel
  exact ⟨h, warmsCalls_of_joinsInTime (fun _ _ _ => rfl) events h⟩

/-- A second call comes when `runRebuild` has returned: its promise resolves, and `b` is not
warmed. -/
theorem warmsCalls_fails :
    ¬ WarmsCalls allTargets (run (step allTargets) Coordinator.initial
      [.rebuild [js "a"], goOn, goOn, goOn, goOn, .rebuild [js "b"], goOn, goOn, goOn]) := by
  intro h
  obtain ⟨i, round, hstarted, hround, -, -⟩ :=
    h ⟨[js "b"], 0, 1⟩ (by decide +kernel) (by decide +kernel) (js "b") (by simp) (js "b") rfl
  have hrounds : (run (step allTargets) Coordinator.initial
      [.rebuild [js "a"], goOn, goOn, goOn, goOn, .rebuild [js "b"], goOn, goOn, goOn]).rounds =
        [⟨[js "a"], some true⟩] := by decide +kernel
  rw [hrounds, List.getElem?_eq_none hstarted] at hround
  contradiction

end StonePlus.Proxy.Flights
