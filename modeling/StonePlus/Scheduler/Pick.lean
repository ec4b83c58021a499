import StonePlus.Scheduler.State

/-!
# StonePlus.Scheduler.Pick

The pool strategies: how one account is picked among the eligible
candidates.  Each strategy returns a candidate (`pick_mem`); the round-robin
offsets, the smooth weighted scores and the random source are the only state
they touch.
-/

namespace StonePlus.Scheduler

/-- `new Map(entries)`: a repeated key keeps its position and takes the last
value. -/
def mapOf {ν : Type} (entries : List (JsString × ν)) : JsMap JsString ν :=
  entries.foldl (fun m e => m.set e.1 e.2) ∅

/-! ## Aggregate pools -/

structure AggregatePoolIndex where
  orderedAccountIds : List JsString
  orderByAccountId : JsMap JsString Nat
  weightByAccountId : JsMap JsString Rat
  smoothConfiguration : JsMap JsString Rat

def positiveWeight (weight : Option Rat) : Rat :=
  match weight with
  | some w => if 0 < w then w else 1
  | none => 1

def getAggregatePoolIndex (pool : Pool) : AggregatePoolIndex :=
  let ordered := (pool.members.zipIdx.map fun m => (m.1.order.getD m.2, m.2, m.1)).insertionSort
    fun a b => a.1 < b.1 ∨ (a.1 = b.1 ∧ a.2.1 ≤ b.2.1)
  let members := ordered.map fun entry => entry.2.2
  let ids := members.map PoolMember.accountId
  { orderedAccountIds := ids
    orderByAccountId := mapOf ids.zipIdx
    weightByAccountId := mapOf (pool.members.map fun m => (m.accountId, positiveWeight m.weight))
    smoothConfiguration := mapOf ((members.filter PoolMember.enabled).map
      fun m => (m.accountId, positiveWeight m.weight)) }

def isRelayAggregate (pool : Pool) : Bool := decide (pool.kind = .relayAggregate)

/-- The index of a relay aggregate; standard pools have none. -/
def aggregateIndex (pool : Pool) : Option AggregatePoolIndex :=
  if isRelayAggregate pool then some (getAggregatePoolIndex pool) else none

/-- Candidates in member order, then those the index does not know, by id. -/
def orderAggregateCandidates (env : Env) (index : AggregatePoolIndex)
    (candidates : List Account) : List Account :=
  let candidatesById := mapOf (candidates.map fun account => (account.id, account))
  index.orderedAccountIds.filterMap candidatesById.get? ++
    (candidates.filter fun account => !index.orderByAccountId.has account.id).insertionSort
      fun a b => env.localeCompare a.id b.id ≤ 0

/-- The candidates in the order a strategy walks them. -/
def orderedCandidates (env : Env) (index : Option AggregatePoolIndex)
    (candidates : List Account) : List Account :=
  match index with
  | some index => orderAggregateCandidates env index candidates
  | none => candidates

/-! ## Ranking -/

/-- The candidate with the least score; ties go to `tieBreak`, then to the
earlier one. -/
def selectMinimum (score : Account → Rat) (tieBreak : Account → Account → Rat) :
    List Account → Option Account
  | [] => none
  | first :: rest => some (rest.foldl
      (fun selected candidate =>
        if score candidate < score selected ∨
            (score candidate = score selected ∧ tieBreak candidate selected < 0) then candidate
        else selected) first)

/-- `a || b` on numbers. -/
def orElseNonzero (a b : Rat) : Rat := if a ≠ 0 then a else b

namespace PoolScheduler

/-- One call of the random source. -/
def nextRandom (env : Env) (s : PoolScheduler) : Rat × PoolScheduler :=
  (env.random s.randomCalls, { s with randomCalls := s.randomCalls + 1 })

/-- `list[Math.min(list.length - 1, Math.floor(random * list.length))]`. -/
def randomElement (random : Rat) (accounts : List Account) : Option Account :=
  accounts[min (accounts.length - 1) ⌊random * accounts.length⌋.toNat]?

def pickPriority (s : PoolScheduler) (index : Option AggregatePoolIndex)
    (candidates : List Account) (now : Millis) : Option Account :=
  selectMinimum
    (fun account => match index with
      | some index => (index.orderByAccountId.getD account.id (2 ^ 53 - 1) : Nat)
      | none => effectivePriority account now)
    (fun a b => s.inFlight a - s.inFlight b) candidates

def pickBalanced (env : Env) (s : PoolScheduler) (candidates : List Account) (now : Millis) :
    Option Account :=
  selectMinimum (fun account => s.inFlight account / s.concurrencyLimit account false)
    (fun a b => orElseNonzero (quotaPressure a now - quotaPressure b now)
      (orElseNonzero (a.priority - b.priority) (env.localeCompare a.id b.id))) candidates

def pickRoundRobin (env : Env) (s : PoolScheduler) (pool : Pool)
    (index : Option AggregatePoolIndex) (candidates : List Account) :
    Option Account × PoolScheduler :=
  let ordered := orderedCandidates env index candidates
  let offset := s.roundRobinOffsets.getD pool.id 0
  (ordered[offset % ordered.length]?,
    { s with roundRobinOffsets :=
        s.roundRobinOffsets.set pool.id ((offset + 1) % ordered.length) })

/-! ## Smooth weighted round robin -/

/-- The state a call starts from: the stored one unless membership, order or
weights changed. -/
def smoothWeightedState (s : PoolScheduler) (pool : Pool) (index : Option AggregatePoolIndex)
    (configuredAccounts : List Account) (now : Millis) : SmoothWeightedState :=
  let configured := configuredAccounts.map fun account => (account.id, effectiveWeight account now)
  let fresh : SmoothWeightedState := match index with
    | some index => ⟨index.smoothConfiguration, ∅⟩
    | none => ⟨mapOf configured, ∅⟩
  match s.smoothWeighted.get? pool.id with
  | none => fresh
  | some state =>
      let unchanged := match index with
        | some index => decide (state.configuration = index.smoothConfiguration)
        | none => decide (state.configuration.entries = configured)
      if unchanged then state else fresh

structure SmoothWeightedScan where
  current : JsMap JsString Rat
  totalWeight : Rat
  selected : Option (Account × Rat)

/-- Raise each candidate's score by its weight and keep the first greatest. -/
def smoothWeightedScan (weight : Account → Rat) (current : JsMap JsString Rat)
    (ordered : List Account) : SmoothWeightedScan :=
  ordered.foldl
    (fun scan account =>
      let score := scan.current.getD account.id 0 + weight account
      { current := scan.current.set account.id score
        totalWeight := scan.totalWeight + weight account
        selected := match scan.selected with
          | none => some (account, score)
          | some (best, bestScore) =>
              if bestScore < score then some (account, score) else some (best, bestScore) })
    ⟨current, 0, none⟩

/-- Smooth weighted round robin: over a complete weight window the exact
configured ratio, without bursts. -/
def pickSmoothWeighted (env : Env) (s : PoolScheduler) (pool : Pool) (candidates : List Account)
    (configuredAccounts : List Account) (now : Millis) : Option Account × PoolScheduler :=
  let index := aggregateIndex pool
  let ordered := orderedCandidates env index candidates
  let state := s.smoothWeightedState pool index configuredAccounts now
  let weightFor (account : Account) : Rat := match index with
    | some index => index.weightByAccountId.getD account.id 1
    | none => effectiveWeight account now
  let hasPositiveWeight := ordered.any fun account => decide (0 < weightFor account)
  let scan := smoothWeightedScan (fun account => if hasPositiveWeight then weightFor account else 1)
    state.current ordered
  match scan.selected with
  | none => (none, { s with smoothWeighted := s.smoothWeighted.set pool.id state })
  | some (selected, score) =>
      let state : SmoothWeightedState :=
        { state with current := scan.current.set selected.id (score - scan.totalWeight) }
      (some selected, { s with smoothWeighted := s.smoothWeighted.set pool.id state })

/-! ## Weighted random -/

/-- The first candidate at which the running threshold becomes negative. -/
def thresholdPick (weight : Account → Rat) : Rat → List Account → Option Account
  | _, [] => none
  | threshold, account :: rest =>
      if threshold - weight account < 0 then some account
      else thresholdPick weight (threshold - weight account) rest

def pickWeightedRandom (env : Env) (s : PoolScheduler) (candidates : List Account)
    (now : Millis) : Option Account × PoolScheduler :=
  let weight (account : Account) := effectiveWeight account now
  let total := (candidates.map weight).sum
  let (random, s) := s.nextRandom env
  if total ≤ 0 then (candidates[⌊random * candidates.length⌋.toNat]?, s)
  else ((thresholdPick weight (random * total) candidates).or candidates.getLast?, s)

/-! ## Autobalanced -/

def autoBalancedExplorationRate : Rat := 1 / 20
def concurrentStickySessionPenalty : Rat := 120

def hasPerformanceSample (s : PoolScheduler) (accountId : JsString) : Bool :=
  (s.performance.get? accountId).any fun p => decide (0 < p.performanceSampleCount)

/-- The prior cost of an unmeasured account among these candidates. -/
def performancePrior (env : Env) (s : PoolScheduler) (candidates : List Account) (now : Millis) :
    Rat :=
  conservativePerformancePrior ((candidates.filter fun a => s.hasPerformanceSample a.id).map
    fun a => performanceCost env (s.performance.get? a.id) now)

def autoBalancedCost (env : Env) (s : PoolScheduler) (account : Account) (unmeasuredPrior : Rat)
    (stickyKey : Option JsString) (now : Millis) : Rat :=
  s.inFlight account / s.concurrencyLimit account true * 1000 +
    s.activeStickySessionCount account.id stickyKey * concurrentStickySessionPenalty +
    quotaPressure account now * 200 +
    estimatedPerformanceCost env (s.performance.get? account.id) unmeasuredPrior now * 10 +
    account.priority

/-- Collect the candidates within a thousandth of the running minimum. -/
def cheapest (cost : Account → Rat) (candidates : List Account) : List Account :=
  (candidates.foldl
    (fun (best : Option Rat × List Account) account => match best with
      | (none, _) => (some (cost account), [account])
      | (some minimum, accounts) =>
          if cost account < minimum - 1 / 1000 then (some (cost account), [account])
          else if |cost account - minimum| < 1 / 1000 then (some minimum, accounts ++ [account])
          else (some minimum, accounts)) (none, [])).2

/-- Pick among equally cheap candidates at random. -/
def pickCheapest (env : Env) (s : PoolScheduler) (candidates : List Account)
    (stickyKey : Option JsString) (now : Millis) : Option Account × PoolScheduler :=
  let prior := s.performancePrior env candidates now
  let best := cheapest (fun account => s.autoBalancedCost env account prior stickyKey now) candidates
  if 1 < best.length then
    let (random, s) := s.nextRandom env
    (randomElement random best, s)
  else (best.head?, s)

def pickAutoBalanced (env : Env) (s : PoolScheduler) (candidates : List Account)
    (stickyKey : Option JsString) (now : Millis) : Option Account × PoolScheduler :=
  let measured := candidates.filter fun account => s.hasPerformanceSample account.id
  let unmeasured := candidates.filter fun account => !s.hasPerformanceSample account.id
  if unmeasured ≠ [] ∧ measured ≠ [] then
    let (explore, s) := s.nextRandom env
    if explore < autoBalancedExplorationRate then
      let (random, s) := s.nextRandom env
      (randomElement random unmeasured, s)
    else s.pickCheapest env candidates stickyKey now
  else s.pickCheapest env candidates stickyKey now

/-! ## Dispatch -/

def pick (env : Env) (s : PoolScheduler) (pool : Pool) (candidates : List Account)
    (configuredAccounts : List Account) (stickyKey : Option JsString) (now : Millis) :
    Option Account × PoolScheduler :=
  match pool.strategy with
  | .priority => (s.pickPriority (aggregateIndex pool) candidates now, s)
  | .balanced => (s.pickBalanced env candidates now, s)
  | .autobalanced => s.pickAutoBalanced env candidates stickyKey now
  | .roundRobin => s.pickRoundRobin env pool (aggregateIndex pool) candidates
  | .weightedRoundRobin => s.pickSmoothWeighted env pool candidates configuredAccounts now
  | .weightedRandom => s.pickWeightedRandom env candidates now
  | .other _ => (none, s)

end PoolScheduler

/-! ## Picked accounts are candidates -/

theorem mem_or_of_get?_foldl_set {ν : Type} {entries : List (JsString × ν)} {m : JsMap JsString ν}
    {value : ν} (h : (entries.foldl (fun m e => m.set e.1 e.2) m).get? key = some value) :
    (key, value) ∈ entries ∨ m.get? key = some value := by
  induction entries generalizing m with
  | nil => exact .inr h
  | cons e es ih =>
      rcases ih h with hes | hset
      · exact .inl (List.mem_cons_of_mem e hes)
      · rw [JsMap.get?_set] at hset
        split at hset
        · next hkey =>
            cases hset
            exact .inl (hkey ▸ List.mem_cons_self)
        · exact .inr hset

theorem mem_of_get?_mapOf {ν : Type} {entries : List (JsString × ν)} {key : JsString} {value : ν}
    (h : (mapOf entries).get? key = some value) : (key, value) ∈ entries :=
  (mem_or_of_get?_foldl_set h).resolve_right (by simp)

theorem mem_of_mem_orderAggregateCandidates {index : AggregatePoolIndex}
    (h : account ∈ orderAggregateCandidates env index candidates) : account ∈ candidates := by
  rcases List.mem_append.mp h with hknown | hunknown
  · obtain ⟨id, _, hget⟩ := List.mem_filterMap.mp hknown
    obtain ⟨a, ha, heq⟩ := List.mem_map.mp (mem_of_get?_mapOf hget)
    cases heq
    exact ha
  · rw [List.mem_insertionSort] at hunknown
    exact List.mem_of_mem_filter hunknown

theorem mem_of_mem_orderedCandidates (h : account ∈ orderedCandidates env index candidates) :
    account ∈ candidates := by
  cases index with
  | none => exact h
  | some index => exact mem_of_mem_orderAggregateCandidates h

theorem selectMinimum_mem (h : selectMinimum score tieBreak accounts = some selected) :
    selected ∈ accounts := by
  cases accounts with
  | nil => cases h
  | cons first rest =>
      cases h
      refine List.foldlRecOn rest _ List.mem_cons_self fun selected hselected candidate hmem => ?_
      split
      · exact List.mem_cons_of_mem first hmem
      · exact hselected

namespace PoolScheduler

theorem smoothWeightedScan_mem
    (h : (smoothWeightedScan weight current ordered).selected = some (selected, score)) :
    selected ∈ ordered := by
  suffices hscan : ∀ a w, (smoothWeightedScan weight current ordered).selected = some (a, w) →
      a ∈ ordered from hscan selected score h
  refine List.foldlRecOn (motive := fun scan : SmoothWeightedScan =>
    ∀ a w, scan.selected = some (a, w) → a ∈ ordered) ordered _ (fun _ _ h => by cases h) ?_
  intro scan hscan account haccount a w ha
  dsimp only at ha
  split at ha
  · cases ha
    exact haccount
  · next heq =>
      split at ha
      · cases ha
        exact haccount
      · exact hscan a w (heq.trans ha)

theorem thresholdPick_mem (h : thresholdPick weight threshold accounts = some selected) :
    selected ∈ accounts := by
  induction accounts generalizing threshold with
  | nil => cases h
  | cons account rest ih =>
      unfold thresholdPick at h
      split at h
      · cases h; exact List.mem_cons_self
      · exact List.mem_cons_of_mem account (ih h)

theorem mem_of_mem_cheapest (h : account ∈ cheapest cost candidates) : account ∈ candidates := by
  refine List.foldlRecOn (motive := fun best : Option Rat × List Account =>
    ∀ a ∈ best.2, a ∈ candidates) candidates _ (fun _ h => by cases h) ?_ account h
  rintro ⟨_ | minimum, kept⟩ hkept first hfirst a ha
  · exact List.mem_singleton.mp ha ▸ hfirst
  · dsimp only at ha
    split at ha
    · exact List.mem_singleton.mp ha ▸ hfirst
    · split at ha
      · rcases List.mem_append.mp ha with ha | ha
        · exact hkept a ha
        · exact List.mem_singleton.mp ha ▸ hfirst
      · exact hkept a ha

variable {s : PoolScheduler}

theorem pickSmoothWeighted_mem
    (h : (s.pickSmoothWeighted env pool candidates configuredAccounts now).1 = some selected) :
    selected ∈ candidates := by
  unfold pickSmoothWeighted at h
  dsimp only at h
  split at h
  · cases h
  · next heq =>
      cases h
      exact mem_of_mem_orderedCandidates (smoothWeightedScan_mem heq)

theorem pickWeightedRandom_mem (h : (s.pickWeightedRandom env candidates now).1 = some selected) :
    selected ∈ candidates := by
  unfold pickWeightedRandom at h
  dsimp only at h
  split at h
  · exact List.mem_of_getElem? h
  · rcases Option.or_eq_some_iff.mp h with h | ⟨_, h⟩
    · exact thresholdPick_mem h
    · exact List.mem_of_getLast? h

theorem pickCheapest_mem (h : (s.pickCheapest env candidates stickyKey now).1 = some selected) :
    selected ∈ candidates := by
  unfold pickCheapest at h
  dsimp only at h
  split at h
  · exact mem_of_mem_cheapest (List.mem_of_getElem? h)
  · exact mem_of_mem_cheapest (List.mem_of_mem_head? h)

theorem pickAutoBalanced_mem
    (h : (s.pickAutoBalanced env candidates stickyKey now).1 = some selected) :
    selected ∈ candidates := by
  unfold pickAutoBalanced at h
  dsimp only at h
  split at h
  · split at h
    · exact List.mem_of_mem_filter (List.mem_of_getElem? h)
    · exact pickCheapest_mem h
  · exact pickCheapest_mem h

/-- Every strategy picks one of the candidates it is given. -/
theorem pick_mem {env : Env}
    (h : (s.pick env pool candidates configuredAccounts stickyKey now).1 = some selected) :
    selected ∈ candidates := by
  unfold pick at h
  cases hs : pool.strategy with
  | balanced | priority => rw [hs] at h; exact selectMinimum_mem h
  | autobalanced => rw [hs] at h; exact pickAutoBalanced_mem h
  | roundRobin =>
      rw [hs] at h
      exact mem_of_mem_orderedCandidates (List.mem_of_getElem? h)
  | weightedRandom => rw [hs] at h; exact pickWeightedRandom_mem h
  | weightedRoundRobin => rw [hs] at h; exact pickSmoothWeighted_mem h
  | other name => rw [hs] at h; cases h

end PoolScheduler

end StonePlus.Scheduler
