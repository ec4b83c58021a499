import StonePlus.Js.Unicode
import StonePlus.Lib.Run

/-!
# StonePlus.Hedge.Race

`responseWithPrefetchedCanonicalEvent` of `server.ts`: a response is read up to its first
canonical event, and gets a body that yields what was read and then the rest.

The parser and the frame guard are inputs.  The deadline and the abort signal, which can end the
reading at any time, belong to the race.
-/

namespace StonePlus.Hedge

/-- The body of a response: its chunks, and whether it fails behind them. -/
structure Upstream where
  chunks : List Bytes
  failed : Bool
  deriving DecidableEq

/-- What the prefetch asks of the parser and the guard: of the events only whether they are
errors; `none` is an exception. -/
structure Reading (σ : Type) where
  initial : σ
  guard : σ → Bytes → Option σ
  push : σ → Bytes → Option (List Bool × σ)
  finish : σ → Option (List Bool × σ)
  getRecognizedEventCount : σ → Nat
  maxStreamFrameBytes : Nat

/-- The `ReadableStream` around a response: what was prefetched, and the rest of its body. -/
structure Body where
  prefetched : List Bytes
  reachedEof : Bool
  rest : List Bytes
  failed : Bool
  deriving DecidableEq

/-- A body that nobody has read from. -/
def Upstream.body (u : Upstream) : Body := ⟨[], false, u.chunks, u.failed⟩

/-! ## The prefetch -/

/-- Why there is no response: an exception, upon which the reader is cancelled, or the end of
the body. -/
inductive PrefetchFailure
  | thrown
  | ended
  deriving DecidableEq

section
variable {σ : Type} (reading : Reading σ)

/-- The loop, with what it has read and whether an event was an error. -/
def prefetchLoop (failed : Bool) (s : σ) (prefetched : List Bytes) (prefetchedBytes : Nat)
    (canonicalError : Bool) : List Bytes → Except PrefetchFailure (Body × Bool)
  | [] =>
    if failed then .error .thrown
    else
      match reading.finish s with
      | none => .error .thrown
      | some (events, s) =>
        if reading.getRecognizedEventCount s = 0 then .error .ended
        else .ok (⟨prefetched, true, [], failed⟩, canonicalError || events.any id)
  | value :: rest =>
    if value.length = 0 then prefetchLoop failed s prefetched prefetchedBytes canonicalError rest
    else
      match reading.guard s value with
      | none => .error .thrown
      | some s =>
        if prefetchedBytes + value.length > reading.maxStreamFrameBytes then .error .thrown
        else
          match reading.push s value with
          | none => .error .thrown
          | some (events, s) =>
            let canonicalError := canonicalError || events.any id
            if reading.getRecognizedEventCount s > 0 then
              .ok (⟨prefetched ++ [value], false, rest, failed⟩, canonicalError)
            else
              prefetchLoop failed s (prefetched ++ [value]) (prefetchedBytes + value.length)
                canonicalError rest

/-- The response that is made of an upstream body, with its `canonicalError`. -/
def responseWithPrefetchedCanonicalEvent (u : Upstream) : Except PrefetchFailure (Body × Bool) :=
  prefetchLoop reading u.failed reading.initial [] 0 false u.chunks

end

/-! ## Reading the body -/

inductive Pulled
  | enqueue (chunk : Bytes)
  | close
  | error

structure PullState where
  prefetchedIndex : Nat
  rest : List Bytes

/-- `pull` of the stream. -/
def Body.pull (body : Body) (s : PullState) : Pulled × PullState :=
  match body.prefetched[s.prefetchedIndex]? with
  | some chunk => (.enqueue chunk, { s with prefetchedIndex := s.prefetchedIndex + 1 })
  | none =>
    if body.reachedEof then (.close, s)
    else
      match s.rest with
      | chunk :: rest => (.enqueue chunk, { s with rest := rest })
      | [] => (if body.failed then .error else .close, s)

/-- What so many pulls yield, and whether the stream has ended by then: `some true` is an error. -/
def Body.pulls (body : Body) : Nat → PullState → List Bytes × Option Bool
  | 0, _ => ([], none)
  | n + 1, s =>
    match body.pull s with
    | (.enqueue chunk, s) => (chunk :: (body.pulls n s).1, (body.pulls n s).2)
    | (.close, _) => ([], some false)
    | (.error, _) => ([], some true)

/-- What a reader of the body has after so many pulls. -/
def Body.read (body : Body) (n : Nat) : List Bytes × Option Bool := body.pulls n ⟨0, body.rest⟩

/-- A body yields the octets of an upstream body, once and in order, and ends as it does. -/
def Yields (body : Body) (u : Upstream) : Prop :=
  (∀ n, (body.read n).1.flatten <+: u.chunks.flatten) ∧
    ∃ n, (body.read n).1.flatten = u.chunks.flatten ∧ (body.read n).2 = some u.failed

/-- What is left of a body. -/
def Body.left (body : Body) (s : PullState) : List Bytes :=
  body.prefetched.drop s.prefetchedIndex ++ (if body.reachedEof then [] else s.rest)

/-- A body that ended while it was prefetched did not fail. -/
def Body.Proper (body : Body) : Prop := body.reachedEof = true → body.failed = false

theorem Body.pull_spec {body : Body} (h : body.Proper) (s : PullState) :
    match body.pull s with
    | (.enqueue chunk, s') => body.left s = chunk :: body.left s'
    | (.close, _) => body.left s = [] ∧ body.failed = false
    | (.error, _) => body.left s = [] ∧ body.failed = true := by
  unfold Body.pull Body.left
  cases hnext : body.prefetched[s.prefetchedIndex]? with
  | some chunk =>
    obtain ⟨hlt, hget⟩ := List.getElem?_eq_some_iff.mp hnext
    simp [List.drop_eq_getElem_cons hlt, hget]
  | none =>
    have hdrop := List.drop_eq_nil_of_le (List.getElem?_eq_none_iff.mp hnext)
    cases heof : body.reachedEof with
    | true => simp [hdrop, h heof]
    | false =>
      cases hrest : s.rest with
      | cons chunk rest => simp [hdrop]
      | nil => cases hfailed : body.failed <;> simp [hdrop]

theorem Body.pulls_spec {body : Body} (h : body.Proper) (n : Nat) (s : PullState) :
    (body.pulls n s).1 <+: body.left s ∧
      ((body.left s).length < n → body.pulls n s = (body.left s, some body.failed)) := by
  induction n generalizing s with
  | zero => exact ⟨List.nil_prefix, fun hlt => absurd hlt (Nat.not_lt_zero _)⟩
  | succ n ih =>
    have hpull := body.pull_spec h s
    rw [Body.pulls]
    generalize body.pull s = pulled at hpull ⊢
    obtain ⟨_ | _ | _, s'⟩ := pulled
    · dsimp only at hpull ⊢
      obtain ⟨hfront, hall⟩ := ih s'
      rw [hpull, List.length_cons]
      refine ⟨List.cons_prefix_cons.mpr ⟨rfl, hfront⟩, fun hlt => ?_⟩
      rw [hall (by omega)]
    · dsimp only at hpull ⊢
      rw [hpull.1, hpull.2]
      exact ⟨List.prefix_rfl, fun _ => rfl⟩
    · dsimp only at hpull ⊢
      rw [hpull.1, hpull.2]
      exact ⟨List.prefix_rfl, fun _ => rfl⟩

/-- A body yields what is left of it at the start. -/
theorem Body.yields {body : Body} (h : body.Proper)
    (hleft : (body.left ⟨0, body.rest⟩).flatten = u.chunks.flatten)
    (hfailed : body.failed = u.failed) : Yields body u := by
  constructor
  · intro n
    rw [← hleft]
    obtain ⟨more, hmore⟩ := (body.pulls_spec h n ⟨0, body.rest⟩).1
    rw [← hmore, List.flatten_append]
    exact List.prefix_append _ _
  · refine ⟨(body.left ⟨0, body.rest⟩).length + 1, ?_⟩
    rw [Body.read, (body.pulls_spec h _ _).2 (Nat.lt_succ_self _)]
    exact ⟨hleft, congrArg some hfailed⟩

theorem yields_body (u : Upstream) : Yields u.body u :=
  Body.yields (fun h => by cases h) (by simp [Body.left, Upstream.body]) rfl

/-- A prefetched response loses nothing of the body and yields nothing twice. -/
theorem prefetchLoop_eq_ok {σ : Type} {reading : Reading σ} {s : σ}
    (h : prefetchLoop reading failed s prefetched prefetchedBytes canonicalError chunks =
      .ok (body, err)) : body.Proper ∧ body.failed = failed ∧
      (body.left ⟨0, body.rest⟩).flatten = prefetched.flatten ++ chunks.flatten := by
  induction chunks generalizing s prefetched prefetchedBytes canonicalError with
  | nil =>
    rw [prefetchLoop] at h
    split at h
    · cases h
    · rename_i hfailed
      split at h
      · cases h
      · split at h
        · cases h
        · cases h
          exact ⟨fun _ => by simpa using hfailed, rfl, by simp [Body.left]⟩
  | cons value rest ih =>
    rw [prefetchLoop] at h
    split at h
    · rename_i hempty
      obtain ⟨hproper, hfailed, hleft⟩ := ih h
      exact ⟨hproper, hfailed, by simp [hleft, List.length_eq_zero_iff.mp hempty]⟩
    · split at h
      · cases h
      · split at h
        · cases h
        · split at h
          · cases h
          · dsimp only at h
            split at h
            · cases h
              exact ⟨fun heof => (by cases heof), rfl, by simp [Body.left]⟩
            · obtain ⟨hproper, hfailed, hleft⟩ := ih h
              exact ⟨hproper, hfailed, by simp [hleft]⟩

theorem yields_of_prefetched {σ : Type} {reading : Reading σ} {u : Upstream}
    (h : responseWithPrefetchedCanonicalEvent reading u = .ok (body, err)) : Yields body u := by
  obtain ⟨hproper, hfailed, hleft⟩ := prefetchLoop_eq_ok h
  exact Body.yields hproper hleft hfailed

end StonePlus.Hedge

/-!
## The race

`fetchWithOptionalHedge` of `server.ts`: when a request takes long, a second one is sent, and the
first healthy response wins.

Everything the function waits for is an event: headers, the end of a prefetch, timers.  The
function goes on at any time after that (`resume`), and the losing lane is cleaned up behind it.
Permits and starts are counted for the specification.
-/

namespace StonePlus.Hedge

open Lib

inductive Source
  | primary
  | secondary
  deriving DecidableEq

def Source.other : Source → Source
  | .primary => .secondary
  | .secondary => .primary

/-! ## Lanes -/

/-- A response; `upstream` is the body it was made from. -/
structure TimedFetchResponse where
  ok : Bool
  canonicalError : Bool
  body : Option Body
  upstream : Option Upstream
  deriving DecidableEq

def healthyHedgeResult (result : TimedFetchResponse) : Bool :=
  result.ok && !result.canonicalError

inductive Outcome
  | result (result : TimedFetchResponse)
  | error
  deriving DecidableEq

inductive Stage
  | idle
  | fetching
  | reading (upstream : Upstream)
  | settled (outcome : Outcome)
  deriving DecidableEq

/-- Where the body of a lane is; one that is not open needs no `cancel`. -/
inductive BodyState
  | none
  | opened
  | cancelled
  | ended
  deriving DecidableEq

structure Lane where
  stage : Stage
  successfulHeaders : Bool
  aborted : Bool
  body : BodyState
  deriving DecidableEq

namespace Lane

def idle : Lane := ⟨.idle, false, false, .none⟩
def started : Lane := ⟨.fetching, false, false, .none⟩

def settle (lane : Lane) (outcome : Outcome) : Lane := { lane with stage := .settled outcome }

def outcome? (lane : Lane) : Option Outcome :=
  match lane.stage with
  | .settled outcome => some outcome
  | _ => none

/-- `fetch` resolves: the response is returned as it is, or read up to its first event. -/
def onHeaders (prefetch : Bool) (ok : Bool) (upstream : Option Upstream) (lane : Lane) : Lane :=
  match lane.stage with
  | .fetching =>
    let lane :=
      { lane with
        successfulHeaders := ok
        body := if upstream.isSome then .opened else .none }
    if !prefetch || !ok then lane.settle (.result ⟨ok, false, upstream.map (·.body), upstream⟩)
    else
      match upstream with
      | none => lane.settle .error
      | some u => { lane with stage := .reading u }
  | _ => lane

def onFetchFailed (lane : Lane) : Lane :=
  match lane.stage with
  | .fetching => lane.settle .error
  | _ => lane

/-- The prefetch comes to its end. -/
def onPrefetched {σ : Type} (reading : Reading σ) (lane : Lane) : Lane :=
  match lane.stage with
  | .reading u =>
    match responseWithPrefetchedCanonicalEvent reading u with
    | .ok (body, canonicalError) =>
      lane.settle (.result ⟨true, canonicalError, some body, some u⟩)
    | .error .thrown => { lane.settle .error with body := .cancelled }
    | .error .ended => { lane.settle .error with body := .ended }
  | _ => lane

/-- The prefetch is given up: a deadline or an abort. -/
def onPrefetchFailed (lane : Lane) : Lane :=
  match lane.stage with
  | .reading _ => { lane.settle .error with body := .cancelled }
  | _ => lane

end Lane

/-! ## The function -/

/-- Whether there is a delay, and whether `tryAcquireHedgeSlot` is given. -/
structure Options where
  hedged : Bool
  slots : Bool

/-- The `await` the function is at.  For the specification the end keeps the other lane as it was
then, and whether the grace window was over. -/
inductive Point
  | single
  | delaying
  | following
  | racing
  | awaiting (failed : Source)
  | grace (winner : Source) (result : TimedFetchResponse)
  | confirming (winner : Source) (result : TimedFetchResponse)
  | returned (source : Source) (outcome : Outcome) (other : Lane) (graceOver : Bool)
  deriving DecidableEq

inductive Permit
  | none
  | held
  | afterLoser
  | released
  deriving DecidableEq

/-- What is left to do for the losing lane. -/
inductive Cleanup
  | none
  | waiting (loser : Source)
  | cancelling (loser : Source)
  | finished (loser : Source)
  deriving DecidableEq

structure Race where
  primary : Lane
  secondary : Lane
  point : Point
  delayFired : Bool
  graceFired : Bool
  permit : Permit
  cleanup : Cleanup
  starts : Nat
  acquires : Nat
  releases : Nat
  deriving DecidableEq

inductive Event
  | headers (source : Source) (ok : Bool) (upstream : Option Upstream)
  | fetchFailed (source : Source)
  | prefetched (source : Source)
  | prefetchFailed (source : Source)
  | delayTimer
  | graceTimer
  /-- The function goes on, with a lane that has settled or with a timer, and `tryAcquireHedgeSlot`
  may grant a permit. -/
  | resume (lane : Option Source) (granted : Bool)
  | loserSettled
  | cancelSettled

namespace Race

def lane (s : Race) : Source → Lane
  | .primary => s.primary
  | .secondary => s.secondary

def setLane (s : Race) (source : Source) (lane : Lane) : Race :=
  match source with
  | .primary => { s with primary := lane }
  | .secondary => { s with secondary := lane }

section
variable {σ : Type} (reading : Reading σ) (options : Options)

def new : Race :=
  { primary := .started, secondary := .idle
    point := if options.hedged then .delaying else .single
    delayFired := false, graceFired := false, permit := .none, cleanup := .none
    starts := 1, acquires := 0, releases := 0 }

/-- The call of the release function the permit consists in. -/
def release (s : Race) : Race := { s with permit := .released, releases := s.releases + 1 }

/-- The function returns a promise or throws without a race having been decided. -/
def leave (s : Race) (source : Source) (outcome : Outcome) : Race :=
  { s with point := .returned source outcome (s.lane source.other) s.graceFired }

/-- `throw winner.error`, with the `finally`. -/
def fail (s : Race) (source : Source) : Race :=
  let s := s.leave source .error
  if s.permit = .held then s.release else s

/-- The winner is returned: the other lane is aborted and left to its cleanup. -/
def finish (s : Race) (winner : Source) (result : TimedFetchResponse) : Race :=
  let loser := winner.other
  let s := s.leave winner (.result result)
  { s.setLane loser { s.lane loser with aborted := true } with
    permit := if s.permit = .held then .afterLoser else s.permit
    cleanup := .waiting loser }

/-- `tryAcquireHedgeSlot`, and the second request. -/
def acquire (s : Race) (granted : Bool) : Race :=
  if options.slots && !granted then { s with point := .following }
  else
    { s with
      point := .racing
      secondary := .started
      starts := s.starts + 1
      permit := if options.slots then .held else .none
      acquires := if options.slots then s.acquires + 1 else s.acquires }

/-- The other lane is not healthy so far: it is waited for if its headers were. -/
def unconfirmed (s : Race) (winner : Source) (result : TimedFetchResponse) : Race :=
  if (s.lane winner.other).successfulHeaders then { s with point := .confirming winner result }
  else s.finish winner result

/-- The function goes on after an `await`. -/
def resume (s : Race) (settled : Option Source) (granted : Bool) : Race :=
  match s.point, settled with
  | .single, some .primary | .following, some .primary =>
    match s.primary.outcome? with
    | some outcome => s.leave .primary outcome
    | none => s
  | .delaying, some .primary =>
    match s.primary.outcome? with
    | some (.result result) => s.leave .primary (.result result)
    | some .error => s.acquire options granted
    | none => s
  | .delaying, none => if s.delayFired then s.acquire options granted else s
  | .racing, some source =>
    match (s.lane source).outcome? with
    | some (.result result) =>
      if healthyHedgeResult result then s.finish source result
      else { s with point := .grace source result }
    | some .error => { s with point := .awaiting source }
    | none => s
  | .awaiting failed, some _ =>
    match (s.lane failed.other).outcome? with
    | some (.result result) => s.finish failed.other result
    | some .error => s.fail failed.other
    | none => s
  | .grace winner result, some _ =>
    match (s.lane winner.other).outcome? with
    | some (.result other) =>
      if healthyHedgeResult other then s.finish winner.other other
      else s.unconfirmed winner result
    | some .error => s.unconfirmed winner result
    | none => s
  | .grace winner result, none => if s.graceFired then s.unconfirmed winner result else s
  | .confirming winner result, some _ =>
    match (s.lane winner.other).outcome? with
    | some (.result other) =>
      if healthyHedgeResult other then s.finish winner.other other else s.finish winner result
    | some .error => s.finish winner result
    | none => s
  | _, _ => s

/-- The end of the cleanup: the extra permit is given back. -/
def cleaned (s : Race) (loser : Source) : Race :=
  let s := { s with cleanup := .finished loser }
  if s.permit = .afterLoser then s.release else s

/-- `loserOutcome.then`: a response's body is cancelled. -/
def onLoserSettled (s : Race) : Race :=
  match s.cleanup with
  | .waiting loser =>
    match (s.lane loser).outcome? with
    | some (.result result) =>
      if result.body.isSome then
        { s.setLane loser { s.lane loser with body := .cancelled } with cleanup := .cancelling loser }
      else s.cleaned loser
    | some .error => s.cleaned loser
    | none => s
  | _ => s

def onCancelSettled (s : Race) : Race :=
  match s.cleanup with
  | .cancelling loser => s.cleaned loser
  | _ => s

def step (s : Race) : Event → Race
  | .headers source ok upstream =>
    s.setLane source ((s.lane source).onHeaders options.hedged ok upstream)
  | .fetchFailed source => s.setLane source (s.lane source).onFetchFailed
  | .prefetched source => s.setLane source ((s.lane source).onPrefetched reading)
  | .prefetchFailed source => s.setLane source (s.lane source).onPrefetchFailed
  | .delayTimer => { s with delayFired := true }
  | .graceTimer =>
    match s.point with
    | .grace _ _ => { s with graceFired := true }
    | _ => s
  | .resume settled granted => s.resume options settled granted
  | .loserSettled => s.onLoserSettled
  | .cancelSettled => s.onCancelSettled

end

end Race

end StonePlus.Hedge
