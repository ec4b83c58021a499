import StonePlus.Scheduler.Circuits

/-!
# StonePlus.Scheduler.Sticky

The sticky-session cache of `PoolScheduler`: assignments and one-shot failure
avoidances sharing one LRU, lazily deleted expiry heaps, and a reverse index
by account.

Keys are length-prefixed pool and session ids.  The array heaps are lists;
the sift loops and the eviction loops run on a fuel argument that their
bounds make sufficient.
-/

namespace StonePlus.Scheduler

def maxStickySessionIdLength : Nat := 256
def maxStickyPoolIdLength : Nat := 256
def maxStickyTtlMinutes : Int := 1440

/-- Length-prefixing avoids collisions between pool and session ids that
contain `:`. -/
def boundedStickyKey (poolId : JsString) (sessionId : Option JsString) : Option JsString :=
  match sessionId with
  | none => none
  | some sessionId =>
      if sessionId = [] ∨ maxStickySessionIdLength < sessionId.length ∨ poolId = [] ∨
          maxStickyPoolIdLength < poolId.length ∨
          Circuits.containsControlCharacter sessionId = true ∨
          Circuits.containsControlCharacter poolId = true then none
      else some (natToString poolId.length ++ js ":" ++ poolId ++ sessionId)

def boundedStickyTtlMs (minutes : Rat) : Millis :=
  (max 1 (min maxStickyTtlMinutes ⌊minutes⌋)).toNat * 60000

/-! ## Expiry heaps -/

structure StickyExpiryEntry where
  key : JsString
  expiresAt : Millis
  deriving DecidableEq

/-- Move the hole at `index` up past later parents, then fill it. -/
def siftUp (entry : StickyExpiryEntry) : Nat → List StickyExpiryEntry → Nat → List StickyExpiryEntry
  | 0, heap, index => heap.set index entry
  | fuel + 1, heap, index =>
      if index = 0 then heap.set index entry
      else match heap[(index - 1) / 2]? with
        | none => heap.set index entry
        | some parent =>
            if parent.expiresAt ≤ entry.expiresAt then heap.set index entry
            else siftUp entry fuel (heap.set index parent) ((index - 1) / 2)

def pushExpiry (heap : List StickyExpiryEntry) (entry : StickyExpiryEntry) :
    List StickyExpiryEntry :=
  siftUp entry heap.length (heap ++ [entry]) heap.length

/-- Move the hole at `index` down past earlier children, then fill it. -/
def siftDown (last : StickyExpiryEntry) : Nat → List StickyExpiryEntry → Nat → List StickyExpiryEntry
  | 0, heap, index => heap.set index last
  | fuel + 1, heap, index =>
      let left := index * 2 + 1
      match heap[left]? with
      | none => heap.set index last
      | some leftEntry =>
          let (child, childEntry) := match heap[left + 1]? with
            | none => (left, leftEntry)
            | some rightEntry =>
                if rightEntry.expiresAt < leftEntry.expiresAt then (left + 1, rightEntry)
                else (left, leftEntry)
          if last.expiresAt ≤ childEntry.expiresAt then heap.set index last
          else siftDown last fuel (heap.set index childEntry) child

/-- The least entry and the heap without it. -/
def popExpiry (heap : List StickyExpiryEntry) : Option StickyExpiryEntry × List StickyExpiryEntry :=
  match heap.head?, heap.getLast? with
  | some first, some last =>
      let rest := heap.dropLast
      if rest = [] then (some first, rest) else (some first, siftDown last rest.length rest 0)
  | _, _ => (none, heap)

/-- Rebuild a heap that lazy deletion has let grow past the live records. -/
def compactExpiryHeap (heap : List StickyExpiryEntry) (current : List (JsString × Millis)) :
    List StickyExpiryEntry :=
  if heap.length ≤ current.length * 4 + 64 then heap
  else current.foldl (fun heap record => pushExpiry heap ⟨record.1, record.2⟩) []

/-! ## The cache -/

/-- A session's account, or the account it avoids once, until `expiresAt`. -/
structure StickyRecord where
  poolId : JsString
  accountId : JsString
  expiresAt : Millis
  deriving DecidableEq

inductive StickyKind
  | assignment | avoidance
  deriving DecidableEq, Repr

structure StickyLruEntry where
  poolId : JsString
  kind : StickyKind
  deriving DecidableEq

structure StickyCache where
  sticky : JsMap JsString StickyRecord
  stickyExpiry : List StickyExpiryEntry
  stickyKeysByAccount : JsMap JsString (JsMap JsString Unit)
  stickyFailureAvoidance : JsMap JsString StickyRecord
  stickyFailureExpiry : List StickyExpiryEntry
  stickyLru : JsMap JsString StickyLruEntry
  stickyLruByPool : JsMap JsString (JsMap JsString StickyKind)
  maxStickyEntries : Nat
  maxStickyEntriesPerPool : Nat
  deriving DecidableEq

namespace StickyCache

def init (maxStickyEntries maxStickyEntriesPerPool : Nat) : StickyCache :=
  ⟨∅, [], ∅, ∅, [], ∅, ∅, maxStickyEntries, maxStickyEntriesPerPool⟩

/-- `clear()` keeps only the bounds. -/
def clear (c : StickyCache) : StickyCache := init c.maxStickyEntries c.maxStickyEntriesPerPool

def deleteStickyLru (c : StickyCache) (stickyKey : JsString) (expectedKind : Option StickyKind) :
    StickyCache :=
  match c.stickyLru.get? stickyKey with
  | none => c
  | some entry =>
      if expectedKind.any fun kind => decide (entry.kind ≠ kind) then c
      else
        let byPool := match c.stickyLruByPool.get? entry.poolId with
          | none => c.stickyLruByPool
          | some poolLru =>
              let poolLru := poolLru.delete stickyKey
              if poolLru.size = 0 then c.stickyLruByPool.delete entry.poolId
              else c.stickyLruByPool.set entry.poolId poolLru
        { c with stickyLru := c.stickyLru.delete stickyKey, stickyLruByPool := byPool }

def touchStickyLru (c : StickyCache) (stickyKey poolId : JsString) (kind : StickyKind) :
    StickyCache :=
  let c := c.deleteStickyLru stickyKey none
  { c with
    stickyLru := c.stickyLru.set stickyKey ⟨poolId, kind⟩
    stickyLruByPool :=
      c.stickyLruByPool.set poolId ((c.stickyLruByPool.getD poolId ∅).set stickyKey kind) }

def deleteSticky (c : StickyCache) (stickyKey : JsString) : StickyCache :=
  match c.sticky.get? stickyKey with
  | none => c
  | some assignment =>
      let c := { c with sticky := c.sticky.delete stickyKey }.deleteStickyLru stickyKey
        (some .assignment)
      match c.stickyKeysByAccount.get? assignment.accountId with
      | none => c
      | some keys =>
          let keys := keys.delete stickyKey
          { c with stickyKeysByAccount :=
              if keys.size = 0 then c.stickyKeysByAccount.delete assignment.accountId
              else c.stickyKeysByAccount.set assignment.accountId keys }

def deleteStickyFailureAvoidance (c : StickyCache) (stickyKey : JsString) : StickyCache :=
  if c.stickyFailureAvoidance.has stickyKey then
    { c with stickyFailureAvoidance :=
        c.stickyFailureAvoidance.delete stickyKey }.deleteStickyLru stickyKey (some .avoidance)
  else c

def evictStickyEntry (c : StickyCache) (stickyKey : JsString) : StickyKind → StickyCache
  | .assignment => c.deleteSticky stickyKey
  | .avoidance => c.deleteStickyFailureAvoidance stickyKey

/-- Evict the pool's least recently used entries down to its bound. -/
def enforcePoolCapacity (poolId : JsString) : Nat → StickyCache → StickyCache
  | 0, c => c
  | fuel + 1, c =>
      let poolLru := c.stickyLruByPool.getD poolId ∅
      if c.maxStickyEntriesPerPool ≤ poolLru.size then
        match poolLru.entries with
        | [] => c
        | oldest :: _ => enforcePoolCapacity poolId fuel (c.evictStickyEntry oldest.1 oldest.2)
      else c

/-- Evict the least recently used entries down to the global bound. -/
def enforceGlobalCapacity : Nat → StickyCache → StickyCache
  | 0, c => c
  | fuel + 1, c =>
      if c.maxStickyEntries ≤ c.stickyLru.size then
        match c.stickyLru.entries with
        | [] => c
        | oldest :: _ => enforceGlobalCapacity fuel (c.evictStickyEntry oldest.1 oldest.2.kind)
      else c

def enforceStickyCapacity (c : StickyCache) (poolId : JsString) : StickyCache :=
  let c := enforcePoolCapacity poolId (c.stickyLruByPool.getD poolId ∅).size c
  enforceGlobalCapacity c.stickyLru.size c

/-- Pop the entries of one heap that have expired; `drop` deletes the record an
entry still describes. -/
def popExpired (now : Millis) (heapOf : StickyCache → List StickyExpiryEntry)
    (withHeap : StickyCache → List StickyExpiryEntry → StickyCache)
    (drop : StickyCache → StickyExpiryEntry → StickyCache) : Nat → StickyCache → StickyCache
  | 0, c => c
  | fuel + 1, c =>
      match heapOf c with
      | [] => c
      | first :: _ =>
          if first.expiresAt ≤ now then
            match popExpiry (heapOf c) with
            | (none, _) => c
            | (some expired, heap) =>
                popExpired now heapOf withHeap drop fuel (drop (withHeap c heap) expired)
          else c

/-- Expiry is global: it does not rely on the same session being selected
again.  An entry whose record was renewed or deleted is discarded. -/
def cleanupExpiredSticky (c : StickyCache) (now : Millis) : StickyCache :=
  let c := popExpired now stickyExpiry (fun c heap => { c with stickyExpiry := heap })
    (fun c expired =>
      if (c.sticky.get? expired.key).any fun r => decide (r.expiresAt = expired.expiresAt) then
        c.deleteSticky expired.key
      else c) c.stickyExpiry.length c
  popExpired now stickyFailureExpiry (fun c heap => { c with stickyFailureExpiry := heap })
    (fun c expired =>
      if (c.stickyFailureAvoidance.get? expired.key).any fun r =>
          decide (r.expiresAt = expired.expiresAt) then
        c.deleteStickyFailureAvoidance expired.key
      else c) c.stickyFailureExpiry.length c

def liveExpiries (m : JsMap JsString StickyRecord) : List (JsString × Millis) :=
  m.entries.map fun e => (e.1, e.2.expiresAt)

def setSticky (c : StickyCache) (stickyKey : JsString) (assignment : StickyRecord) (now : Millis) :
    StickyCache :=
  let c := (((c.cleanupExpiredSticky now).deleteSticky stickyKey).deleteStickyFailureAvoidance
    stickyKey).enforceStickyCapacity assignment.poolId
  let c := { c with
    sticky := c.sticky.set stickyKey assignment
    stickyKeysByAccount := c.stickyKeysByAccount.set assignment.accountId
      ((c.stickyKeysByAccount.getD assignment.accountId ∅).set stickyKey ()) }
  let c := c.touchStickyLru stickyKey assignment.poolId .assignment
  { c with
    stickyExpiry := compactExpiryHeap
      (pushExpiry c.stickyExpiry ⟨stickyKey, assignment.expiresAt⟩) (liveExpiries c.sticky) }

def setStickyFailureAvoidance (c : StickyCache) (stickyKey : JsString) (avoidance : StickyRecord)
    (now : Millis) : StickyCache :=
  let c := (((c.cleanupExpiredSticky now).deleteSticky stickyKey).deleteStickyFailureAvoidance
    stickyKey).enforceStickyCapacity avoidance.poolId
  let c := { c with stickyFailureAvoidance := c.stickyFailureAvoidance.set stickyKey avoidance }
  let c := c.touchStickyLru stickyKey avoidance.poolId .avoidance
  { c with
    stickyFailureExpiry := compactExpiryHeap
      (pushExpiry c.stickyFailureExpiry ⟨stickyKey, avoidance.expiresAt⟩)
      (liveExpiries c.stickyFailureAvoidance) }

/-- Drop an assignment that points at a failed account, leaving a one-shot
avoidance while the assignment would still have been valid. -/
def failAssignment (c : StickyCache) (stickyKey accountId : JsString) (now : Millis) :
    Bool × StickyCache :=
  match c.sticky.get? stickyKey with
  | none => (false, c)
  | some assignment =>
      if assignment.accountId ≠ accountId then (false, c)
      else
        let c := c.deleteSticky stickyKey
        if now < assignment.expiresAt then
          (true, c.setStickyFailureAvoidance stickyKey
            ⟨assignment.poolId, accountId, assignment.expiresAt⟩ now)
        else (true, c)

def recordStickyFailure (c : StickyCache) (poolId : JsString) (sessionId : Option JsString)
    (accountId : JsString) (now : Millis) : Bool × StickyCache :=
  match boundedStickyKey poolId sessionId with
  | none => (false, c)
  | some stickyKey => (c.cleanupExpiredSticky now).failAssignment stickyKey accountId now

/-- The sticky part of an applied `recordFailure`: every session pinned to the
failed account loses its assignment. -/
def failAccount (c : StickyCache) (accountId : JsString) (now : Millis) : StickyCache :=
  let c := c.cleanupExpiredSticky now
  ((c.stickyKeysByAccount.getD accountId ∅).keys).foldl
    (fun c stickyKey => (c.failAssignment stickyKey accountId now).2) c

end StickyCache

end StonePlus.Scheduler
