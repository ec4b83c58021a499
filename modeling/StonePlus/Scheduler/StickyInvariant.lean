import StonePlus.Scheduler.StickyUpdates
import StonePlus.Scheduler.System

/-!
# StonePlus.Scheduler.StickyInvariant

The representation invariant of the sticky cache over whole runs of the scheduler.

A new record is put in once there is room for it; a failure turns assignments into
avoidances.  Every operation of the scheduler changes the cache through these updates only.
-/

namespace StonePlus.Scheduler

open Lib

namespace StickyCache

variable {c : StickyCache}

/-! ## Putting a record in -/

/-- What both setters do first: drop what has expired, the key's own records and the least
recently used entries. -/
def makeRoom (c : StickyCache) (stickyKey poolId : JsString) (now : Millis) : StickyCache :=
  (((c.cleanupExpiredSticky now).deleteSticky stickyKey).deleteStickyFailureAvoidance
    stickyKey).enforceStickyCapacity poolId

/-- A consistent cache with room for one more entry, and no record of `k`. -/
structure Roomy (c : StickyCache) (k poolId : JsString) : Prop extends Consistent c where
  pool_pos : 0 < c.maxStickyEntriesPerPool
  pool_le : c.maxStickyEntriesPerPool ≤ c.maxStickyEntries
  size_lt : c.stickyLru.size < c.maxStickyEntries
  pool_size_lt : (c.stickyLruByPool.group poolId).size < c.maxStickyEntriesPerPool
  pool_size_le : ∀ p, (c.stickyLruByPool.group p).size ≤ c.maxStickyEntriesPerPool
  sticky_none : c.sticky.get? k = none
  avoidance_none : c.stickyFailureAvoidance.get? k = none

theorem Valid.cleanupExpiredSticky (h : c.Valid) (now : Millis) :
    (c.cleanupExpiredSticky now).Valid :=
  have hclean := (h.toConsistent.cleanupExpiredSticky now).1
  h.of_within hclean.2 hclean.1

theorem Valid.deleteSticky (h : c.Valid) (k : JsString) : (c.deleteSticky k).Valid :=
  h.of_within (h.deleteSticky_within k) (h.toConsistent.deleteSticky k)

theorem Valid.deleteAvoidance (h : c.Valid) (k : JsString) :
    (c.deleteStickyFailureAvoidance k).Valid :=
  h.of_within (h.deleteAvoidance_within k) (h.toConsistent.deleteAvoidance k)

theorem Valid.touchStickyLru (h : c.Valid) (hk : c.recordEntry k = some ⟨poolId, kind⟩) :
    (c.touchStickyLru k poolId kind).Valid :=
  h.of_within (h.touchStickyLru_within hk) (h.toConsistent.touchStickyLru hk)

theorem Valid.makeRoom (h : c.Valid) (k poolId : JsString) (now : Millis) :
    (c.makeRoom k poolId now).Roomy k poolId := by
  unfold StickyCache.makeRoom
  have hclean := h.cleanupExpiredSticky now
  have hsticky := hclean.deleteSticky k
  have havoidance := hsticky.deleteAvoidance k
  obtain ⟨hroom, hwithin, hpool, hsize⟩ := havoidance.enforceStickyCapacity poolId
  have hvalid := havoidance.of_within hwithin hroom
  rw [← hwithin.maxStickyEntriesPerPool] at hpool
  rw [← hwithin.maxStickyEntries] at hsize
  refine ⟨hroom, hvalid.pool_pos, hvalid.pool_le, hsize, hpool, hvalid.pool_size_le, ?_, ?_⟩
  · exact hwithin.sticky_none ((hsticky.deleteAvoidance_within k).sticky_none
      (hclean.get?_deleteSticky k))
  · exact hwithin.avoidance_none (hsticky.get?_deleteAvoidance k)

theorem Roomy.lru_none (h : c.Roomy k poolId) : c.stickyLru.get? k = none :=
  (h.lru k).trans (recordEntry_of_none h.sticky_none h.avoidance_none)

/-- The indexes with one more record: the recency entry of `k` is appended. -/
theorem Roomy.lru_set (h : c.Roomy k poolId) (kind : StickyKind) {c' : StickyCache}
    (hentry : c'.recordEntry = Function.update c.recordEntry k (some ⟨poolId, kind⟩))
    (hlru : c'.stickyLru = c.stickyLru.set k ⟨poolId, kind⟩)
    (hpools : c'.stickyLruByPool = c.stickyLruByPool.putIn poolId k kind)
    (hmax : c'.maxStickyEntries = c.maxStickyEntries)
    (hmaxPool : c'.maxStickyEntriesPerPool = c.maxStickyEntriesPerPool) :
    (∀ k', c'.stickyLru.get? k' = c'.recordEntry k') ∧
      (c'.stickyLruByPool.Indexes fun k' => (c'.recordEntry k').map fun e => (e.poolId, e.kind)) ∧
      c'.stickyLru.size ≤ c'.maxStickyEntries ∧
      ∀ p, (c'.stickyLruByPool.group p).size ≤ c'.maxStickyEntriesPerPool := by
  have hnone := recordEntry_of_none h.sticky_none h.avoidance_none
  refine ⟨fun k' => ?_, ?_, ?_, fun p => ?_⟩
  · rw [hlru, hentry, JsMap.get?_set, Function.update_apply, h.lru k']
  · have hput := h.pools.putIn poolId (k := k) kind (by simp [hnone])
    rw [hpools, hentry]
    convert hput using 1
    funext k'
    by_cases hk' : k' = k <;> simp [hk']
  · have hmem : k ∉ c.stickyLru.keys := JsMap.get?_eq_none_iff.mp h.lru_none
    rw [hlru, hmax, JsMap.size_set_of_not_mem hmem]
    exact h.size_lt
  · have hmem : k ∉ (c.stickyLruByPool.group poolId).keys := by
      rw [h.mem_pool, hnone]
      simp
    rw [hpools, hmaxPool, JsMap.group_putIn]
    split
    · rw [JsMap.size_set_of_not_mem hmem]
      exact h.pool_size_lt
    · exact h.pool_size_le p

/-- Touching a key that is not listed only adds it. -/
theorem touchStickyLru_of_none (h : c.stickyLru.get? k = none) (poolId : JsString)
    (kind : StickyKind) : c.touchStickyLru k poolId kind = { c with
      stickyLru := c.stickyLru.set k ⟨poolId, kind⟩
      stickyLruByPool := c.stickyLruByPool.putIn poolId k kind } := by
  unfold StickyCache.touchStickyLru
  rw [deleteStickyLru_of_none h]
  rfl

/-- What `setSticky` does once there is room. -/
def putSticky (c : StickyCache) (stickyKey : JsString) (assignment : StickyRecord) : StickyCache :=
  let c := { c with
    sticky := c.sticky.set stickyKey assignment
    stickyKeysByAccount := c.stickyKeysByAccount.putIn assignment.accountId stickyKey () }
  let c := c.touchStickyLru stickyKey assignment.poolId .assignment
  { c with
    stickyExpiry := compactExpiryHeap
      (pushExpiry c.stickyExpiry ⟨stickyKey, assignment.expiresAt⟩) (liveExpiries c.sticky) }

/-- What `setStickyFailureAvoidance` does once there is room. -/
def putAvoidance (c : StickyCache) (stickyKey : JsString) (avoidance : StickyRecord) :
    StickyCache :=
  let c := { c with stickyFailureAvoidance := c.stickyFailureAvoidance.set stickyKey avoidance }
  let c := c.touchStickyLru stickyKey avoidance.poolId .avoidance
  { c with
    stickyFailureExpiry := compactExpiryHeap
      (pushExpiry c.stickyFailureExpiry ⟨stickyKey, avoidance.expiresAt⟩)
      (liveExpiries c.stickyFailureAvoidance) }

theorem setSticky_eq (c : StickyCache) (k : JsString) (r : StickyRecord) (now : Millis) :
    c.setSticky k r now = (c.makeRoom k r.poolId now).putSticky k r := rfl

theorem setStickyFailureAvoidance_eq (c : StickyCache) (k : JsString) (r : StickyRecord)
    (now : Millis) :
    c.setStickyFailureAvoidance k r now = (c.makeRoom k r.poolId now).putAvoidance k r := rfl

theorem Roomy.putSticky {r : StickyRecord} (h : c.Roomy k r.poolId) : (c.putSticky k r).Valid := by
  have heq : c.putSticky k r = { c with
      sticky := c.sticky.set k r
      stickyKeysByAccount := c.stickyKeysByAccount.putIn r.accountId k ()
      stickyLru := c.stickyLru.set k ⟨r.poolId, .assignment⟩
      stickyLruByPool := c.stickyLruByPool.putIn r.poolId k .assignment
      stickyExpiry := compactExpiryHeap (pushExpiry c.stickyExpiry ⟨k, r.expiresAt⟩)
        (liveExpiries (c.sticky.set k r)) } := by
    unfold StickyCache.putSticky
    dsimp only
    rw [touchStickyLru_of_none]
    exact h.lru_none
  have hentry : (c.putSticky k r).recordEntry =
      Function.update c.recordEntry k (some ⟨r.poolId, .assignment⟩) := by
    funext k'
    rw [heq, Function.update_apply]
    by_cases hk' : k' = k <;> simp [recordEntry, hk', JsMap.get?_set]
  obtain ⟨hlru, hpools, hsize, hpoolSize⟩ := h.lru_set .assignment hentry (by rw [heq])
    (by rw [heq]) (by rw [heq]) (by rw [heq])
  refine ⟨⟨⟨fun k' r' hr' => ?_, hlru, hpools, ?_⟩, ?_, ?_⟩, ?_, ?_, hsize, hpoolSize⟩
  · rw [heq] at hr' ⊢
    rw [JsMap.get?_set] at hr'
    split at hr'
    · next hk => exact hk ▸ h.avoidance_none
    · exact h.disjoint k' r' hr'
  · have hput := h.accounts.putIn r.accountId (k := k) () (by simp [h.sticky_none])
    rw [heq]
    convert hput using 1
    funext k'
    by_cases hk' : k' = k <;> simp [hk', JsMap.get?_set]
  · rw [heq]
    exact h.stickyHeap.set k r
  · rw [heq]
    exact h.avoidanceHeap
  · rw [heq]
    exact h.pool_pos
  · rw [heq]
    exact h.pool_le

theorem Roomy.putAvoidance {r : StickyRecord} (h : c.Roomy k r.poolId) :
    (c.putAvoidance k r).Valid := by
  have heq : c.putAvoidance k r = { c with
      stickyFailureAvoidance := c.stickyFailureAvoidance.set k r
      stickyLru := c.stickyLru.set k ⟨r.poolId, .avoidance⟩
      stickyLruByPool := c.stickyLruByPool.putIn r.poolId k .avoidance
      stickyFailureExpiry := compactExpiryHeap (pushExpiry c.stickyFailureExpiry ⟨k, r.expiresAt⟩)
        (liveExpiries (c.stickyFailureAvoidance.set k r)) } := by
    unfold StickyCache.putAvoidance
    dsimp only
    rw [touchStickyLru_of_none]
    exact h.lru_none
  have hentry : (c.putAvoidance k r).recordEntry =
      Function.update c.recordEntry k (some ⟨r.poolId, .avoidance⟩) := by
    funext k'
    rw [heq, Function.update_apply]
    by_cases hk' : k' = k
    · simp [recordEntry, hk', h.sticky_none]
    · simp [recordEntry, hk', JsMap.get?_set]
  obtain ⟨hlru, hpools, hsize, hpoolSize⟩ := h.lru_set .avoidance hentry (by rw [heq])
    (by rw [heq]) (by rw [heq]) (by rw [heq])
  refine ⟨⟨⟨fun k' r' hr' => ?_, hlru, hpools, ?_⟩, ?_, ?_⟩, ?_, ?_, hsize, hpoolSize⟩
  · rw [heq] at hr' ⊢
    have hne : k' ≠ k := fun hk => by
      rw [hk, h.sticky_none] at hr'
      cases hr'
    rw [JsMap.get?_set_of_ne _ _ hne]
    exact h.disjoint k' r' hr'
  · rw [heq]
    exact h.accounts
  · rw [heq]
    exact h.stickyHeap
  · rw [heq]
    exact h.avoidanceHeap.set k r
  · rw [heq]
    exact h.pool_pos
  · rw [heq]
    exact h.pool_le

theorem Valid.setSticky (h : c.Valid) (k : JsString) (r : StickyRecord) (now : Millis) :
    (c.setSticky k r now).Valid := by
  rw [setSticky_eq]
  exact (h.makeRoom k r.poolId now).putSticky

theorem Valid.setStickyFailureAvoidance (h : c.Valid) (k : JsString) (r : StickyRecord)
    (now : Millis) : (c.setStickyFailureAvoidance k r now).Valid := by
  rw [setStickyFailureAvoidance_eq]
  exact (h.makeRoom k r.poolId now).putAvoidance

/-! ## Failures -/

theorem Valid.failAssignment (h : c.Valid) (k accountId : JsString) (now : Millis) :
    (c.failAssignment k accountId now).2.Valid := by
  unfold StickyCache.failAssignment
  split
  · exact h
  · split
    · exact h
    · dsimp only
      split
      · exact (h.deleteSticky k).setStickyFailureAvoidance k _ now
      · exact h.deleteSticky k

theorem Valid.recordStickyFailure (h : c.Valid) (poolId : JsString) (sessionId : Option JsString)
    (accountId : JsString) (now : Millis) :
    (c.recordStickyFailure poolId sessionId accountId now).2.Valid := by
  unfold StickyCache.recordStickyFailure
  split
  · exact h
  · exact (h.cleanupExpiredSticky now).failAssignment _ accountId now

theorem Valid.failAccount (h : c.Valid) (accountId : JsString) (now : Millis) :
    (c.failAccount accountId now).Valid := by
  unfold StickyCache.failAccount
  dsimp only
  have hclean := h.cleanupExpiredSticky now
  generalize c.cleanupExpiredSticky now = c₀ at *
  generalize (c₀.stickyKeysByAccount.getD accountId ∅).keys = keys
  induction keys generalizing c₀ with
  | nil => exact hclean
  | cons k keys ih => exact ih _ (hclean.failAssignment k accountId now)

theorem valid_init {maxStickyEntries maxStickyEntriesPerPool : Nat}
    (hpos : 0 < maxStickyEntriesPerPool) (hle : maxStickyEntriesPerPool ≤ maxStickyEntries) :
    (init maxStickyEntries maxStickyEntriesPerPool).Valid where
  disjoint := fun _ _ _ => rfl
  lru := fun _ => rfl
  pools := .empty
  accounts := .empty
  stickyHeap := .empty
  avoidanceHeap := .empty
  pool_pos := hpos
  pool_le := hle
  size_le := Nat.zero_le _
  pool_size_le := fun _ => Nat.zero_le _

theorem Valid.clear (h : c.Valid) : c.clear.Valid := valid_init h.pool_pos h.pool_le

end StickyCache

end StonePlus.Scheduler
